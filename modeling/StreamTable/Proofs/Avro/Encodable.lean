/-
Rows that fit a schema and still have no datum.  The check of a row and its encoding read the schema
independently.  They agree but for a few things that the check does not look at: an integer may be
too large for floating point, a field may be missing whose type does not name null outright, the
symbols of an enum may be no list, and the search for the branch that a value of a union goes to may
break off where the check was content with an earlier branch, or find none.

`Blocked` says that one of these is met on the way through a value.  Nothing else keeps a value that
was accepted from being encoded.
-/
import StreamTable.Avro.Datum.Write
import StreamTable.Proofs.Action.Results
import StreamTable.Proofs.Avro.Fitting

namespace StreamTable
namespace Avro

open Validation

/-- A value passes the check of a schema, whatever the place where it stands. -/
def Accepted (defs : Definitions) (s : Schema) (v : Value) : Prop :=
  ∃ n path, check defs n s path v = .ok true

/-- Whether symbols have places, by which they are stored. -/
def hasPlaces : Value → Bool
  | .str _ => true
  | .list _ => true
  | .tuple _ => true
  | _ => false

namespace Datum

/-- An integer is given for floating point, and is too large for it. -/
def IsTooLarge (p : Primitive) (v : Value) : Prop :=
  (p = .float ∨ p = .double) ∧ ∃ k, v = .int k ∧ Double.ofInt? k = none

/-- Something without a datum is met while a value is written, so many names being looked up inside
one another at most. -/
inductive Blocked (defs : Definitions) : Nat → Schema → Value → Prop where
  | exhausted {s : Schema} {v : Value} : Blocked defs 0 s v
  | number {n : Nat} {p : Primitive} {v : Value} (h : IsTooLarge p v) :
      Blocked defs n (.primitive p) v
  | annotated {n : Nat} {p : Primitive} {attrs : Attributes} {v : Value} (h : IsTooLarge p v) :
      Blocked defs n (.annotated p attrs) v
  | named {n : Nat} {name : String} {s : Schema} {v : Value} (hs : defs.find? name = some s)
      (h : Blocked defs n s v) : Blocked defs (n + 1) (.named name) v
  | item {n : Nat} {s : Schema} {attrs : Attributes} {xs : List Value} {v x : Value}
      (hxs : items? v = some xs) (hx : x ∈ xs) (h : Blocked defs n s x) :
      Blocked defs n (.array s attrs) v
  | value {n : Nat} {s : Schema} {attrs : Attributes} {es : List (Value × Value)}
      {e : Value × Value} (he : e ∈ es) (h : Blocked defs n s e.2) :
      Blocked defs n (.map s attrs) (.map es)
  | symbols {n : Nat} {name : String} {symbols : Value} {attrs : Attributes} {v : Value}
      (h : hasPlaces symbols = false) : Blocked defs n (.enum name symbols attrs) v
  | missing {n : Nat} {isError : Bool} {name : String} {fields : List Field} {attrs : Attributes}
      {row : List (Value × Value)} {f : FieldHead} {s : Schema} (hf : (f, s) ∈ fields)
      (hrow : Value.lookup row f.name = none) (hdefault : f.default? = none)
      (hnull : namesNull s = false) : Blocked defs n (.record isError name fields attrs) (.map row)
  | field {n : Nat} {isError : Bool} {name : String} {fields : List Field} {attrs : Attributes}
      {row : List (Value × Value)} {f : FieldHead} {s : Schema} {v : Value} (hf : (f, s) ∈ fields)
      (hv : fieldValue row f s = .ok v) (h : Blocked defs n s v) :
      Blocked defs n (.record isError name fields attrs) (.map row)
  | choice {n : Nat} {branches : List Schema} {v : Value} {fault : DataFault}
      (h : choose defs branches v = .error fault) : Blocked defs n (.union branches) v
  | branch {n i : Nat} {branches : List Schema} {v v' : Value} {s : Schema}
      (hchosen : choose defs branches v = .ok (i, v')) (hs : branches[i]? = some s)
      (h : Blocked defs n s v') : Blocked defs n (.union branches) v

end Datum

/-! ## What is accepted -/

namespace Accepted

variable {defs : Definitions} {v : Value} {attrs : Attributes}

theorem primitive {p : Primitive} (h : Accepted defs (.primitive p) v) :
    fitsPrimitive p v = true := by
  obtain ⟨_ | n, path, h⟩ := h
  · cases h
  · exact Except.ok.inj h

theorem named {name : String} (h : Accepted defs (.named name) v) :
    ∃ s, defs.find? name = some s ∧ Accepted defs s v := by
  obtain ⟨_ | n, path, h⟩ := h
  · cases h
  · rw [check, checkWith] at h
    cases hs : defs.find? name with
    | none =>
      rw [hs] at h
      cases h
    | some s =>
      rw [hs] at h
      exact ⟨s, rfl, n, path, h⟩

/-- A value of a logical type is checked as it is stored. -/
theorem annotated {p : Primitive} (h : Accepted defs (.annotated p attrs) v) :
    match Logical.of? p attrs with
    | some l => ∃ v', l.prepare attrs v = .ok v' ∧ fitsPrimitive p v' = true
    | none => fitsPrimitive p v = true := by
  obtain ⟨_ | n, path, h⟩ := h
  · cases h
  · rw [check, checkWith] at h
    cases hl : Logical.of? p attrs with
    | none =>
      rw [hl] at h
      exact Except.ok.inj h
    | some l =>
      rw [hl] at h
      obtain ⟨v', hv', h⟩ := Except.of_bind_ok h
      exact ⟨v', hv', Except.ok.inj h⟩

/-- All items pass a check that allows all of them. -/
theorem of_allPass {α : Type} {check : α → Except DataFault Bool} {xs : List α}
    (h : allPass check xs = .ok true) : ∀ x ∈ xs, check x = .ok true := by
  induction xs with
  | nil => exact List.forall_mem_nil _
  | cons x xs ih =>
    obtain ⟨hx, hxs⟩ := and_eq_true h
    exact List.forall_mem_cons.mpr ⟨hx, ih hxs⟩

theorem array {s : Schema} (h : Accepted defs (.array s attrs) v) :
    ∃ xs, items? v = some xs ∧ ∀ x ∈ xs, Accepted defs s x := by
  obtain ⟨_ | n, path, h⟩ := h
  · cases h
  · rw [check, checkWith] at h
    cases hxs : items? v with
    | none =>
      rw [hxs] at h
      cases h
    | some xs =>
      rw [hxs] at h
      exact ⟨xs, rfl, fun x hx => ⟨n + 1, path, of_allPass h x hx⟩⟩

theorem map {s : Schema} (h : Accepted defs (.map s attrs) v) :
    ∃ es, v = .map es ∧ ∀ e ∈ es, Accepted defs s e.2 := by
  obtain ⟨_ | n, path, h⟩ := h
  · cases h
  · cases v with
    | map es =>
      rw [check, checkWith] at h
      split at h
      · exact ⟨es, rfl, fun e he => ⟨n + 1, path, of_allPass h e he⟩⟩
      · cases h
    | _ => cases h

theorem enum {name : String} {symbols : Value} (h : Accepted defs (.enum name symbols attrs) v) :
    Schema.isSymbol symbols v = .ok true := by
  obtain ⟨_ | n, path, h⟩ := h
  · cases h
  · exact h

theorem fixed {name : String} {size : Value} (h : Accepted defs (.fixed name size attrs) v) :
    ∃ v', Logical.prepareFixed size attrs v = .ok v' ∧ fitsFixed size v' = true := by
  obtain ⟨_ | n, path, h⟩ := h
  · cases h
  · obtain ⟨v', hv', h⟩ := Except.of_bind_ok h
    exact ⟨v', hv', Except.ok.inj h⟩

/-- A field of a row that is accepted. -/
def Field (defs : Definitions) (row : List (Value × Value)) (f : Field) : Prop :=
  f.1.name.isHashable = true ∧
    Accepted defs f.2 ((Value.lookup row f.1.name).getD (f.1.default?.getD .null))

theorem fields {n : Nat} {fields : List Avro.Field} {path : String} {row : List (Value × Value)}
    (h : checkFields (fun name path v => match defs.find? name with
      | some s => check defs n s path v
      | none => .error .wrongValue) fields path row = .ok true) :
    ∀ f ∈ fields, Accepted.Field defs row f := by
  induction fields with
  | nil => exact List.forall_mem_nil _
  | cons f rest ih =>
    obtain ⟨f, s⟩ := f
    obtain ⟨v, hv, h⟩ := Except.of_bind_ok h
    obtain ⟨hhead, hrest⟩ := and_eq_true h
    refine List.forall_mem_cons.mpr ⟨?_, ih hrest⟩
    unfold Validation.fieldValue at hv
    split at hv
    · next hname =>
      obtain rfl := Except.ok.inj hv
      exact ⟨hname, n + 1, _, hhead⟩
    · cases hv

theorem record {isError : Bool} {name : String} {members : List Avro.Field}
    (h : Accepted defs (.record isError name members attrs) v) :
    ∃ row, v = .map row ∧ ∀ f ∈ members, Accepted.Field defs row f := by
  obtain ⟨_ | n, path, h⟩ := h
  · cases h
  · cases v with
    | map row =>
      rw [check, checkWith] at h
      split at h
      · exact ⟨row, rfl, fields h⟩
      · cases h
    | _ => cases h

theorem not_unchecked {node : Value} : ¬Accepted defs (.unchecked node) v := by
  rintro ⟨_ | n, path, h⟩
  · cases h
  · cases h

end Accepted

/-! ## Branches that values go to -/

namespace Datum

variable {defs : Definitions} {v : Value}

theorem namedBranch?_of_check {R : Resolve} {branches : List Schema} {path : String} {name : Value}
    (k : Nat) (h : checkBranchNamed R branches path name v = .ok true) :
    ∃ i s, namedBranch? name k branches = some (k + i) ∧ branches[i]? = some s ∧
      checkWith R s path v = .ok true := by
  induction branches generalizing k with
  | nil => cases h
  | cons s rest ih =>
    rw [checkBranchNamed] at h
    rw [namedBranch?]
    split at h
    · next hname =>
      rw [if_pos hname]
      exact ⟨0, s, rfl, rfl, h⟩
    · next hname =>
      rw [if_neg hname]
      obtain ⟨i, t, hi, ht, hcheck⟩ := ih (k + 1) h
      exact ⟨i + 1, t, by rw [hi]; congr 1; omega, ht, hcheck⟩

theorem doubleFrom?_eq_some {k j : Nat} {branches : List Schema}
    (h : doubleFrom? k branches = some j) :
    ∃ i s, j = k + i ∧ branches[i]? = some s ∧ isType .double s = true := by
  induction branches generalizing k with
  | nil => cases h
  | cons s rest ih =>
    rw [doubleFrom?] at h
    split at h
    · next hs =>
      cases h
      exact ⟨0, s, rfl, rfl, hs⟩
    · obtain ⟨i, t, hj, ht, hdouble⟩ := ih h
      exact ⟨i + 1, t, by omega, ht, hdouble⟩

/-- Nothing stands for floating point. -/
theorem logical_floating {p : Primitive} (hp : p = .float ∨ p = .double) (attrs : Attributes) :
    Logical.of? p attrs = none := by
  unfold Logical.of?
  obtain rfl | rfl := hp <;> split <;> rfl

/-- Numbers that a `float` takes are taken by a `double`. -/
theorem accepted_double {s t : Schema} (hs : isType .float s = true) (ht : isType .double t = true)
    (h : Accepted defs s v) : Accepted defs t v := by
  have hfits : fitsPrimitive .float v = true := by
    cases s with
    | primitive p =>
      obtain rfl : Primitive.float = p := of_decide_eq_true hs
      exact h.primitive
    | annotated p attrs =>
      obtain rfl : Primitive.float = p := of_decide_eq_true hs
      have := h.annotated
      rwa [logical_floating (.inl rfl)] at this
    | _ => cases hs
  have hdouble : fitsPrimitive .double v = true := by
    cases v <;> first | rfl | cases hfits
  cases t with
  | primitive p =>
    obtain rfl : Primitive.double = p := of_decide_eq_true ht
    exact ⟨1, "", congrArg Except.ok hdouble⟩
  | annotated p attrs =>
    obtain rfl : Primitive.double = p := of_decide_eq_true ht
    refine ⟨1, "", ?_⟩
    rw [check, checkWith, logical_floating (.inr rfl)]
    exact congrArg Except.ok hdouble
  | _ => cases ht

/-- A branch that is chosen takes the value. -/
theorem chooseFrom_index {k : Nat} {branches : List Schema} {best choice : Choice}
    (h : chooseFrom defs v k branches best = .ok choice) :
    choice.index = best.index ∨
      ∃ i s, choice.index = some (k + i) ∧ branches[i]? = some s ∧ Accepted defs s v := by
  induction branches generalizing k best with
  | nil =>
    obtain rfl := Except.ok.inj h
    exact .inl rfl
  | cons s rest ih =>
    -- What is chosen among the branches that follow is as far from here, and one more.
    have hlater {best' : Choice} (h : chooseFrom defs v (k + 1) rest best' = .ok choice) :
        choice.index = best'.index ∨ ∃ i t, choice.index = some (k + i) ∧
          (s :: rest)[i]? = some t ∧ Accepted defs t v := by
      refine (ih h).imp_right fun ⟨i, t, hi, ht, haccepted⟩ => ⟨i + 1, t, ?_, ht, haccepted⟩
      rw [hi]
      congr 1
      omega
    obtain ⟨fits, hfits, h⟩ := Except.of_bind_ok h
    cases fits with
    | false => exact hlater h
    | true =>
      have haccepted : Accepted defs s v := ⟨_, _, hfits⟩
      have hhere : ∃ i t, some k = some (k + i) ∧ (s :: rest)[i]? = some t ∧ Accepted defs t v :=
        ⟨0, s, rfl, rfl, haccepted⟩
      rw [if_pos rfl] at h
      cases hmembers : recordFields? defs s with
      | some members =>
        rw [hmembers] at h
        obtain ⟨names, -, h⟩ := Except.of_bind_ok h
        obtain hbest | hbranch := hlater h
        · rw [hbest]
          split
          · exact .inr hhere
          · exact .inl rfl
        · exact .inr hbranch
      | none =>
        rw [hmembers] at h
        dsimp only at h
        split at h
        · next hfloat =>
          obtain rfl := Except.ok.inj h
          right
          cases hdouble : doubleFrom? (k + 1) rest with
          | none => exact hhere
          | some j =>
            obtain ⟨i, t, rfl, ht, htype⟩ := doubleFrom?_eq_some hdouble
            refine ⟨i + 1, t, ?_, ht, accepted_double hfloat htype haccepted⟩
            show some (k + 1 + i) = _
            congr 1
            omega
        · obtain rfl := Except.ok.inj h
          exact .inr hhere

theorem choose_accepted {branches : List Schema} {i : Nat} {v' : Value}
    (hv : Accepted defs (.union branches) v) (h : choose defs branches v = .ok (i, v')) :
    ∃ s, branches[i]? = some s ∧ Accepted defs s v' := by
  have hchosen {choice : Choice} (hchoice : chooseFrom defs v 0 branches .none = .ok choice)
      (hindex : choice.index = some i) : ∃ s, branches[i]? = some s ∧ Accepted defs s v := by
    obtain hnone | ⟨j, s, hj, hs, haccepted⟩ := chooseFrom_index hchoice
    · rw [hnone] at hindex
      cases hindex
    · cases hj.symm.trans hindex
      exact ⟨s, by simpa using hs, haccepted⟩
  obtain ⟨_ | n, path, hv⟩ := hv
  · cases hv
  · cases v with
    | tuple xs =>
      rcases xs with _ | ⟨name, _ | ⟨w, _ | ⟨u, xs⟩⟩⟩
      · cases hv
      · cases hv
      · obtain ⟨j, s, hj, hs, hcheck⟩ := namedBranch?_of_check 0 hv
        rw [Nat.zero_add] at hj
        rw [choose, hj] at h
        cases h
        exact ⟨s, hs, n + 1, path, hcheck⟩
      · cases hv
    | _ =>
      obtain ⟨choice, hchoice, h⟩ := Except.of_bind_ok h
      cases hindex : choice.index with
      | none =>
        rw [hindex] at h
        cases h
      | some j =>
        rw [hindex] at h
        cases h
        exact hchosen hchoice hindex

/-! ## What is written -/

theorem ofPrimitive_isOk_iff {p : Primitive} (h : fitsPrimitive p v = true) :
    (∃ d, ofPrimitive p v = .ok d) ↔ ¬IsTooLarge p v := by
  have hplain (hp : ¬(p = .float ∨ p = .double)) (d : Datum) (hd : ofPrimitive p v = .ok d) :
      (∃ d, ofPrimitive p v = .ok d) ↔ ¬IsTooLarge p v :=
    ⟨fun _ hlarge => hp hlarge.1, fun _ => ⟨d, hd⟩⟩
  have hdouble (hp : p = .float ∨ p = .double) :
      (∃ x, v.toDouble = .ok x) ↔ ¬IsTooLarge p v := by
    cases v with
    | int k =>
      rw [Value.toDouble, Value.doubleOfInt]
      cases hk : Double.ofInt? k with
      | some x => exact ⟨fun _ ⟨_, k', hk', hlarge⟩ => (by cases hk'; cases hk.symm.trans hlarge),
          fun _ => ⟨x, rfl⟩⟩
      | none => exact ⟨fun ⟨x, hx⟩ => (by cases hx), fun h => absurd ⟨hp, k, rfl, hk⟩ h⟩
    | float x => exact ⟨fun _ ⟨_, k, hk, _⟩ => (by cases hk), fun _ => ⟨x, rfl⟩⟩
    | _ => obtain rfl | rfl := hp <;> cases h
  cases p with
  | float => exact Except.map_isOk_iff.trans (hdouble (.inl rfl))
  | double => exact Except.map_isOk_iff.trans (hdouble (.inr rfl))
  | null => exact hplain (by simp) _ rfl
  | boolean => exact hplain (by simp) _ rfl
  | int => 
    cases v with
    | int k => exact hplain (by simp) _ rfl
    | _ => cases h
  | long =>
    cases v with
    | int k => exact hplain (by simp) _ rfl
    | _ => cases h
  | bytes =>
    cases v with
    | bytes b => exact hplain (by simp) _ rfl
    | bytearray b => exact hplain (by simp) _ rfl
    | _ => cases h
  | string =>
    cases v with
    | str t => exact hplain (by simp) _ rfl
    | _ => cases h

/-- The place of a symbol that is one of the symbols. -/
theorem symbolIndex_isOk_iff {symbols : Value} (h : Schema.isSymbol symbols v = .ok true) :
    (∃ i, symbolIndex symbols v = .ok i) ↔ hasPlaces symbols = true := by
  have hplace {xs : List Value} (h : xs.any (v.same ·) = true) :
      ∃ i, xs.findIdx? (v.same ·) = some i := by
    rw [← Option.isSome_iff_exists, List.findIdx?_isSome]
    exact h
  cases symbols with
  | str t =>
    cases v with
    | str s =>
      obtain ⟨i, hi⟩ := Option.isSome_iff_exists.mp (Except.ok.inj h)
      refine ⟨fun _ => rfl, fun _ => ⟨i, ?_⟩⟩
      simp only [symbolIndex, hi]
    | _ => cases h
  | list xs =>
    obtain ⟨i, hi⟩ := hplace (Except.ok.inj h)
    refine ⟨fun _ => rfl, fun _ => ⟨i, ?_⟩⟩
    simp only [symbolIndex, hi]
  | tuple xs =>
    obtain ⟨i, hi⟩ := hplace (Except.ok.inj h)
    refine ⟨fun _ => rfl, fun _ => ⟨i, ?_⟩⟩
    simp only [symbolIndex, hi]
  | _ => exact ⟨fun ⟨i, hi⟩ => (by cases hi), fun h => (by cases h)⟩

/-- A field has the value that it was checked with, or it is missing and has none. -/
theorem fieldValue_cases {row : List (Value × Value)} {f : FieldHead} {s : Schema}
    (hf : f.name.isHashable = true) :
    fieldValue row f s = .ok ((Value.lookup row f.name).getD (f.default?.getD .null)) ∨
      (fieldValue row f s = .error .wrongValue ∧ Value.lookup row f.name = none ∧
        f.default? = none ∧ namesNull s = false) := by
  unfold fieldValue
  rw [hf, Bool.not_true, if_neg Bool.false_ne_true]
  cases Value.lookup row f.name with
  | some v => exact .inl rfl
  | none =>
    cases f.default? with
    | some d => exact .inl rfl
    | none =>
      cases namesNull s with
      | true => exact .inl rfl
      | false => exact .inr ⟨rfl, rfl, rfl, rfl⟩

/-- What writing knows of the schema as a whole, so many names being looked up inside one another
at most. -/
def scopeOf (defs : Definitions) (n : Nat) : Scope where
  resolve name v :=
    match defs.find? name with
    | some s => write defs n s v
    | none => .error (.missingKey (.str name))
  choose := choose defs

/-- A field of a row has no datum. -/
def FieldBlocked (defs : Definitions) (n : Nat) (row : List (Value × Value)) (f : Field) : Prop :=
  (Value.lookup row f.1.name = none ∧ f.1.default? = none ∧ namesNull f.2 = false) ∨
    ∃ v, fieldValue row f.1 f.2 = .ok v ∧ Blocked defs n f.2 v

theorem blocked_record_iff {n : Nat} {isError : Bool} {name : String} {fields : List Field}
    {attrs : Attributes} {row : List (Value × Value)} :
    Blocked defs (n + 1) (.record isError name fields attrs) (.map row) ↔
      ∃ f ∈ fields, FieldBlocked defs (n + 1) row f := by
  constructor
  · intro h
    cases h with
    | missing hf hrow hdefault hnull => exact ⟨_, hf, .inl ⟨hrow, hdefault, hnull⟩⟩
    | field hf hv h => exact ⟨_, hf, .inr ⟨_, hv, h⟩⟩
  · rintro ⟨⟨f, s⟩, hf, ⟨hrow, hdefault, hnull⟩ | ⟨v, hv, h⟩⟩
    · exact .missing hf hrow hdefault hnull
    · exact .field hf hv h

section Writing

variable {n : Nat}

/-- A value of a primitive type with attributes is written unless it is a number too large for the
type; what a logical type makes of a value never is. -/
theorem annotated_isOk_iff {p : Primitive} {attrs : Attributes} {v : Value}
    (h : Accepted defs (.annotated p attrs) v) :
    (∃ d, writeWith (scopeOf defs n) (.annotated p attrs) v = .ok d) ↔
      ¬Blocked defs (n + 1) (.annotated p attrs) v := by
  have hfits := h.annotated
  have hlarge : Blocked defs (n + 1) (.annotated p attrs) v ↔ IsTooLarge p v := by
    refine ⟨fun hb => ?_, .annotated⟩
    cases hb with
    | annotated hlarge => exact hlarge
  rw [writeWith, hlarge]
  cases hl : Logical.of? p attrs with
  | none =>
    rw [hl] at hfits
    exact ofPrimitive_isOk_iff hfits
  | some l =>
    rw [hl] at hfits
    obtain ⟨v', hv', hfits⟩ := hfits
    -- A logical type is none of floating point, so no number is too large for it.
    have hnever (v : Value) : ¬IsTooLarge p v := fun ⟨hp, _⟩ => by
      cases (logical_floating hp attrs).symm.trans hl
    obtain ⟨d, hd⟩ := (ofPrimitive_isOk_iff hfits).mpr (hnever v')
    exact iff_of_true ⟨d, by simp only [hv']; exact hd⟩ (hnever v)

/-- A value that a fixed type accepts is written. -/
theorem fixed_isOk {name : String} {size : Value} {attrs : Attributes} {v : Value}
    (h : Accepted defs (.fixed name size attrs) v) :
    ∃ d, writeWith (scopeOf defs n) (.fixed name size attrs) v = .ok d := by
  obtain ⟨v', hv', hfits⟩ := h.fixed
  cases v' with
  | bytes b =>
    have hsize : size.same (.int b.length) = true := hfits
    refine ⟨.fixed b, ?_⟩
    rw [writeWith, hv']
    show (if size.same (.int b.length) = true then _ else _) = _
    rw [if_pos hsize]
    rfl
  | _ => cases hfits

mutual

theorem writeWith_isOk_iff
    (hresolve : ∀ {s : Schema} {v : Value}, Accepted defs s v →
      ((∃ d, write defs n s v = .ok d) ↔ ¬Blocked defs n s v)) :
    ∀ {s : Schema} {v : Value}, Accepted defs s v →
      ((∃ d, writeWith (scopeOf defs n) s v = .ok d) ↔ ¬Blocked defs (n + 1) s v)
  | .primitive p, v, h => by
    refine (ofPrimitive_isOk_iff h.primitive).trans (not_congr ⟨.number, fun hb => ?_⟩)
    cases hb with
    | number hlarge => exact hlarge
  | .named name, v, h => by
    obtain ⟨s, hs, h⟩ := h.named
    have hwrite : writeWith (scopeOf defs n) (.named name) v = write defs n s v := by
      rw [writeWith, scopeOf]
      simp only [hs]
    rw [hwrite, hresolve h]
    refine not_congr ⟨.named hs, fun hb => ?_⟩
    cases hb with
    | named hs' hb => exact Option.some.inj (hs'.symm.trans hs) ▸ hb
  | .annotated p attrs, v, h => annotated_isOk_iff h
  | .array item attrs, v, h => by
    obtain ⟨xs, hxs, hall⟩ := h.array
    have hitems : (∃ ds, xs.mapM (writeWith (scopeOf defs n) item) = .ok ds) ↔
        ∀ x ∈ xs, ¬Blocked defs (n + 1) item x := by
      rw [Except.mapM_isOk_iff]
      exact forall₂_congr fun x hx => writeWith_isOk_iff hresolve (hall x hx)
    rw [writeWith, hxs]
    refine Except.map_isOk_iff.trans (hitems.trans ⟨fun hfree hb => ?_, fun hb x hx hx' => ?_⟩)
    · cases hb with
      | item hxs' hx hb => exact hfree _ (Option.some.inj (hxs'.symm.trans hxs) ▸ hx) hb
    · exact hb (.item hxs hx hx')
  | .map values attrs, v, h => by
    obtain ⟨es, rfl, hes⟩ := h.map
    have hvalues : (∃ ds, (es.mapM fun e => do
          let d ← writeWith (scopeOf defs n) values e.2
          pure (e.1.text, d)) = .ok ds) ↔ ∀ e ∈ es, ¬Blocked defs (n + 1) values e.2 := by
      rw [Except.mapM_isOk_iff]
      exact forall₂_congr fun e he =>
        Except.map_isOk_iff.trans (writeWith_isOk_iff hresolve (hes e he))
    rw [writeWith]
    refine Except.map_isOk_iff.trans (hvalues.trans ⟨fun hfree hb => ?_, fun hb e he he' => ?_⟩)
    · cases hb with
      | value he hb => exact hfree _ he hb
    · exact hb (.value he he')
  | .enum name symbols attrs, v, h => by
    rw [writeWith]
    refine Except.map_isOk_iff.trans ((symbolIndex_isOk_iff h.enum).trans ?_)
    rw [← Bool.not_eq_false]
    refine not_congr ⟨.symbols, fun hb => ?_⟩
    cases hb with
    | symbols hb => exact hb
  | .fixed name size attrs, v, h => iff_of_true (fixed_isOk h) fun hb => by cases hb
  | .record isError name members attrs, v, h => by
    obtain ⟨row, rfl, hmembers⟩ := h.record
    rw [writeWith]
    refine Except.map_isOk_iff.trans ((writeFields_isOk_iff hresolve hmembers).trans ?_)
    rw [blocked_record_iff]
    simp
  | .union branches, v, h => by
    rw [writeWith]
    show (∃ d, (choose defs branches v >>= _) = Except.ok d) ↔ _
    cases hchosen : choose defs branches v with
    | error fault => exact ⟨fun ⟨d, hd⟩ => (by cases hd), fun hb => absurd (.choice hchosen) hb⟩
    | ok chosen =>
      obtain ⟨i, v'⟩ := chosen
      obtain ⟨s, hs, h'⟩ := choose_accepted h hchosen
      refine Except.map_isOk_iff.trans ((writeBranch_isOk_iff hresolve hs h').trans
        (not_congr ⟨.branch hchosen hs, fun hb => ?_⟩))
      cases hb with
      | choice hnone => cases hnone.symm.trans hchosen
      | branch hchosen' hs' hb =>
        obtain ⟨rfl, rfl⟩ := Prod.mk.inj (Except.ok.inj (hchosen'.symm.trans hchosen))
        exact Option.some.inj (hs'.symm.trans hs) ▸ hb
  | .unchecked node, v, h => absurd h Accepted.not_unchecked

theorem writeFields_isOk_iff
    (hresolve : ∀ {s : Schema} {v : Value}, Accepted defs s v →
      ((∃ d, write defs n s v = .ok d) ↔ ¬Blocked defs n s v)) :
    ∀ {fields : List Field} {row : List (Value × Value)},
      (∀ f ∈ fields, Accepted.Field defs row f) →
      ((∃ ds, writeFields (scopeOf defs n) fields row = .ok ds) ↔
        ∀ f ∈ fields, ¬FieldBlocked defs (n + 1) row f)
  | [], row, h => ⟨fun _ => List.forall_mem_nil _, fun _ => ⟨[], rfl⟩⟩
  | (f, s) :: rest, row, h => by
    obtain ⟨⟨hname, hhead⟩, hrest⟩ := List.forall_mem_cons.mp h
    rw [List.forall_mem_cons, writeFields, Except.bind_isOk_iff]
    have hfields := writeFields_isOk_iff hresolve hrest
    have hcases := @fieldValue_cases row f s hname
    obtain hv | ⟨hv, hrow, hdefault, hnull⟩ := hcases
    · have hhere : FieldBlocked defs (n + 1) row (f, s) ↔ Blocked defs (n + 1) s
          ((Value.lookup row f.name).getD (f.default?.getD .null)) := by
        refine ⟨fun hb => ?_, fun hb => .inr ⟨_, hv, hb⟩⟩
        obtain ⟨hrow, hdefault, hnull⟩ | ⟨v, hv', hb⟩ := hb
        · simp [fieldValue, hname, hrow, hdefault, hnull] at hv
        · exact Except.ok.inj (hv'.symm.trans hv) ▸ hb
      rw [hhere, ← writeWith_isOk_iff hresolve hhead, ← hfields]
      constructor
      · rintro ⟨v, hv', hds⟩
        obtain rfl := Except.ok.inj (hv'.symm.trans hv)
        obtain ⟨d, hd, hds⟩ := Except.bind_isOk_iff.mp hds
        exact ⟨⟨d, hd⟩, Except.map_isOk_iff.mp hds⟩
      · rintro ⟨⟨d, hd⟩, hds⟩
        exact ⟨_, hv, Except.bind_isOk_iff.mpr ⟨d, hd, Except.map_isOk_iff.mpr hds⟩⟩
    · refine iff_of_false ?_ fun h => h.1 (.inl ⟨hrow, hdefault, hnull⟩)
      rintro ⟨v, hv', -⟩
      cases hv'.symm.trans hv

theorem writeBranch_isOk_iff
    (hresolve : ∀ {s : Schema} {v : Value}, Accepted defs s v →
      ((∃ d, write defs n s v = .ok d) ↔ ¬Blocked defs n s v)) :
    ∀ {branches : List Schema} {i : Nat} {s : Schema} {v : Value}, branches[i]? = some s →
      Accepted defs s v →
      ((∃ d, writeBranch (scopeOf defs n) branches i v = .ok d) ↔ ¬Blocked defs (n + 1) s v)
  | [], i, s, v, hs, h => by cases hs
  | t :: rest, 0, s, v, hs, h => by
    obtain rfl := Option.some.inj hs
    exact writeWith_isOk_iff hresolve h
  | t :: rest, i + 1, s, v, hs, h => by
    have hrest : rest[i]? = some s := hs
    have hwrite := writeBranch_isOk_iff hresolve hrest h
    exact hwrite

end

end Writing

/-- A value that is accepted has a datum unless something without one is met in it. -/
theorem write_isOk_iff (n : Nat) {s : Schema} (h : Accepted defs s v) :
    (∃ d, write defs n s v = .ok d) ↔ ¬Blocked defs n s v := by
  induction n generalizing s v with
  | zero => exact iff_of_false (fun ⟨d, hd⟩ => by cases hd) (not_not.mpr .exhausted)
  | succ n ih => exact writeWith_isOk_iff (fun h => ih h) h

end Datum
end Avro
end StreamTable
