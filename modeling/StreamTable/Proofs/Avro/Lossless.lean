/-
What stripping a schema of nulls keeps.  A value without nulls that has all fields at hand fits the
stripped schema just where it fits the schema: each branch that such a value can take is left.  The
check itself may take another branch, or break off on its way to the right one, but it does not
refuse the value.  If the value has all fields of every record type that it is compared with, then
the two checks come to the same, whatever that is.

The two notions recurse as the check does: on the schema, and on a count of look-ups where a name is
met.
-/
import StreamTable.Proofs.Avro.Fitting

namespace StreamTable

/-! ## Values without nulls -/

namespace Value

/-- Values without a null and without a tuple inside. -/
inductive Solid : Value → Prop where
  | atom (v : Value) (h : v.isAtom = true) (hnull : v.isNull = false) : Solid v
  | list (xs : List Value) (h : ∀ x ∈ xs, x.Solid) : Solid (.list xs)
  | map (es : List (Value × Value)) (h : ∀ e ∈ es, e.2.Solid) : Solid (.map es)

variable {v : Value}

theorem Solid.items {xs : List Value} (h : (Value.list xs).Solid) : ∀ x ∈ xs, x.Solid := by
  cases h with
  | atom _ h => cases h
  | list _ h => exact h

theorem Solid.values {es : List (Value × Value)} (h : (Value.map es).Solid) :
    ∀ e ∈ es, e.2.Solid := by
  cases h with
  | atom _ h => cases h
  | map _ h => exact h

theorem Solid.not_tuple {xs : List Value} : ¬(Value.tuple xs).Solid := by
  intro h
  cases h with
  | atom _ h => cases h

theorem Solid.not_null : ¬Value.null.Solid := by
  intro h
  cases h with
  | atom _ _ hnull => cases hnull

theorem Solid.lookup {es : List (Value × Value)} {key w : Value} (h : ∀ e ∈ es, e.2.Solid)
    (hw : Value.lookup es key = some w) : w.Solid := by
  obtain ⟨e, he, rfl⟩ := Option.map_eq_some_iff.mp hw
  exact h e (List.mem_of_find?_eq_some he)

end Value

namespace Avro

open Value

namespace Validation

/-! ## Values that have all fields at hand -/

/-- Whether a value fits a schema that has no others inside. -/
def leafFits (s : Schema) (v : Value) : Bool :=
  Except.passes id (checkWith (fun _ _ _ => .error .tooDeep) s "" v)

mutual

/-- Whether a value fits a schema with all fields of its record types at hand, named types being
judged by `resolve`. -/
def fitsWholeWith (resolve : String → String → Value → Bool) : Schema → String → Value → Bool
  | .primitive p, _, v => leafFits (.primitive p) v
  | .named name, path, v => resolve name path v
  | .annotated p attrs, _, v => leafFits (.annotated p attrs) v
  | .array items _, path, v =>
    match items? v with
    | some xs => xs.all (fitsWholeWith resolve items path)
    | none => false
  | .map values _, path, v =>
    match v with
    | .map es => es.all (·.1.isStr) && es.all fun e => fitsWholeWith resolve values path e.2
    | _ => false
  | .enum name symbols attrs, _, v => leafFits (.enum name symbols attrs) v
  | .fixed name size attrs, _, v => leafFits (.fixed name size attrs) v
  | .record _ name fields _, path, v =>
    match v with
    | .map row =>
      let full := nameAt path name
      typeMarkFits row full && fitsWholeFields resolve fields full row
    | _ => false
  | .union branches, path, v => fitsWholeBranch resolve branches path v
  | .unchecked _, _, _ => false

def fitsWholeFields (resolve : String → String → Value → Bool) :
    List (FieldHead × Schema) → String → List (Value × Value) → Bool
  | [], _, _ => true
  | (f, s) :: rest, path, row =>
    f.name.isHashable &&
      (match Value.lookup row f.name with
        | some v => fitsWholeWith resolve s (path ++ "." ++ f.name.text) v
        | none => false) &&
      fitsWholeFields resolve rest path row

def fitsWholeBranch (resolve : String → String → Value → Bool) :
    List Schema → String → Value → Bool
  | [], _, _ => false
  | s :: rest, path, v => fitsWholeWith resolve s path v || fitsWholeBranch resolve rest path v

end

def fitsWhole (defs : Definitions) : Nat → Schema → String → Value → Bool
  | 0 => fun _ _ _ => false
  | fuel + 1 => fitsWholeWith fun name path v =>
    match defs.find? name with
    | some s => fitsWhole defs fuel s path v
    | none => false

mutual

/-- Whether a value has all fields of every record type that it is compared with, named types being
judged by `resolve`. -/
def carriesWith (resolve : String → Value → Bool) : Schema → Value → Bool
  | .named name, v => resolve name v
  | .array items _, v =>
    match items? v with
    | some xs => xs.all (carriesWith resolve items)
    | none => true
  | .map values _, v =>
    match v with
    | .map es => es.all fun e => carriesWith resolve values e.2
    | _ => true
  | .record _ _ fields _, v =>
    match v with
    | .map row => carriesFields resolve fields row
    | _ => true
  | .union branches, v => carriesBranches resolve branches v
  | .primitive _, _ => true
  | .annotated _ _, _ => true
  | .enum _ _ _, _ => true
  | .fixed _ _ _, _ => true
  | .unchecked _, _ => true

def carriesFields (resolve : String → Value → Bool) :
    List (FieldHead × Schema) → List (Value × Value) → Bool
  | [], _ => true
  | (f, s) :: rest, row =>
    (match Value.lookup row f.name with
      | some v => carriesWith resolve s v
      | none => false) &&
      carriesFields resolve rest row

def carriesBranches (resolve : String → Value → Bool) : List Schema → Value → Bool
  | [], _ => true
  | s :: rest, v => carriesWith resolve s v && carriesBranches resolve rest v

end

def carries (defs : Definitions) : Nat → Schema → Value → Bool
  | 0 => fun _ _ => true
  | fuel + 1 => carriesWith fun name v =>
    match defs.find? name with
    | some s => carries defs fuel s v
    | none => true

/-! ## Solid values -/

section Solid

variable {v : Value}

theorem solid_items? {xs : List Value} (hv : v.Solid) (h : items? v = some xs) :
    ∀ x ∈ xs, x.Solid := by
  have hnumbers (b : List UInt8) : ∀ x ∈ b.map (fun n => Value.int n.toNat), x.Solid := by
    intro x hx
    obtain ⟨n, -, rfl⟩ := List.mem_map.mp hx
    exact .atom _ rfl rfl
  cases v with
  | list ys =>
    cases h
    exact hv.items
  | tuple ys => exact absurd hv Solid.not_tuple
  | bytes b =>
    cases h
    exact hnumbers b
  | bytearray b =>
    cases h
    exact hnumbers b
  | _ => cases h

theorem not_fits_null (hv : v.Solid) : fitsPrimitive .null v = false := by
  cases v with
  | null => exact absurd hv Solid.not_null
  | _ => rfl

theorem checkWith_union_of_solid {R : Resolve} {branches : List Schema} {path : String}
    (hv : v.Solid) : checkWith R (.union branches) path v = checkBranches R branches path v := by
  cases v with
  | tuple xs => exact absurd hv Solid.not_tuple
  | _ => rfl

/-- A null branch refuses what is not null. -/
theorem checkWith_null_of_solid {R : Resolve} {s : Schema} (hs : s.isNull = true) (path : String)
    (hv : v.Solid) : checkWith R s path v = .ok false := by
  rw [checkWith_null hs, not_fits_null hv]

theorem not_fitsWhole_null {W : String → String → Value → Bool} {s : Schema}
    (hs : s.isNull = true) (path : String) (hv : v.Solid) : fitsWholeWith W s path v = false := by
  have hleaf : leafFits s v = false := by
    rw [leafFits, checkWith_null_of_solid hs "" hv]
    rfl
  cases s with
  | primitive p => exact hleaf
  | annotated p attrs => exact hleaf
  | _ => cases hs

end Solid

theorem all_congr {α : Type} {f g : α → Bool} {xs : List α} (h : ∀ x ∈ xs, f x = g x) :
    xs.all f = xs.all g := by
  induction xs with
  | nil => rfl
  | cons x xs ih =>
    rw [List.all_cons, List.all_cons, h x List.mem_cons_self,
      ih fun y hy => h y (List.mem_cons_of_mem x hy)]

theorem allPass_congr {α : Type} {f g : α → Except DataFault Bool} {xs : List α}
    (h : ∀ x ∈ xs, f x = g x) : allPass f xs = allPass g xs := by
  induction xs with
  | nil => rfl
  | cons x xs ih =>
    rw [allPass, allPass, h x List.mem_cons_self, ih fun y hy => h y (List.mem_cons_of_mem x hy)]

theorem stripped_name (f : FieldHead) (null : Bool) : (f.stripped null).name = f.name := by
  cases null <;> rfl

/-! ## What fits with all fields at hand fits the stripped schema alike -/

section Whole

variable {W W' : String → String → Value → Bool}

theorem fitsWholeWith_collapse {branches : List Schema} {path : String} {v : Value} (hv : v.Solid) :
    fitsWholeWith W (Schema.collapse branches) path v = fitsWholeBranch W branches path v := by
  match branches with
  | [] => exact not_fitsWhole_null rfl path hv
  | [s] => exact (Bool.or_false _).symm
  | s :: s' :: rest => rfl

mutual

theorem fitsWholeWith_stripped
    (hW : ∀ name path v, v.Solid → W' name path v = W name path v) :
    ∀ {s : Schema} {path : String} {v : Value}, v.Solid →
    fitsWholeWith W' s.stripped path v = fitsWholeWith W s path v
  | .primitive p, path, v, _ => rfl
  | .named name, path, v, hv => hW name path v hv
  | .annotated p attrs, path, v, _ => rfl
  | .enum name symbols attrs, path, v, _ => rfl
  | .fixed name size attrs, path, v, _ => rfl
  | .array items attrs, path, v, hv => by
    rw [Schema.stripped, fitsWholeWith, fitsWholeWith]
    cases hxs : items? v with
    | none => rfl
    | some xs => exact all_congr fun x hx => fitsWholeWith_stripped hW (solid_items? hv hxs x hx)
  | .map values attrs, path, v, hv => by
    cases v with
    | map es =>
      rw [Schema.stripped, fitsWholeWith, fitsWholeWith]
      exact congrArg (es.all (·.1.isStr) && ·)
        (all_congr fun e he => fitsWholeWith_stripped hW (hv.values e he))
    | _ => rfl
  | .record isError name fields attrs, path, v, hv => by
    cases v with
    | map row =>
      rw [Schema.stripped, fitsWholeWith, fitsWholeWith]
      exact congrArg (typeMarkFits row (nameAt path name) && ·)
        (fitsWholeFields_stripped hW hv.values)
    | _ => rfl
  | .union branches, path, v, hv => by
    rw [Schema.stripped, fitsWholeWith_collapse hv]
    exact fitsWholeBranch_stripped hW hv
  | .unchecked node, path, v, _ => rfl

theorem fitsWholeFields_stripped
    (hW : ∀ name path v, v.Solid → W' name path v = W name path v) :
    ∀ {fields : List Field} {path : String} {row : List (Value × Value)}, (∀ e ∈ row, e.2.Solid) →
    fitsWholeFields W' (Schema.strippedFields fields) path row = fitsWholeFields W fields path row
  | [], path, row, _ => rfl
  | (f, s) :: rest, path, row, hrow => by
    rw [Schema.strippedFields, fitsWholeFields, fitsWholeFields, stripped_name,
      fitsWholeFields_stripped hW hrow]
    cases hv : Value.lookup row f.name with
    | none => rfl
    | some v =>
      dsimp only
      rw [fitsWholeWith_stripped hW (Solid.lookup hrow hv)]

theorem fitsWholeBranch_stripped
    (hW : ∀ name path v, v.Solid → W' name path v = W name path v) :
    ∀ {branches : List Schema} {path : String} {v : Value}, v.Solid →
    fitsWholeBranch W' (Schema.strippedBranches branches) path v = fitsWholeBranch W branches path v
  | [], path, v, _ => rfl
  | s :: rest, path, v, hv => by
    have hrest : fitsWholeBranch W' (Schema.strippedBranches rest) path v =
        fitsWholeBranch W rest path v := fitsWholeBranch_stripped hW hv
    rw [Schema.strippedBranches, fitsWholeBranch]
    cases hnull : s.isNull with
    | true => rw [if_pos rfl, not_fitsWhole_null hnull path hv, Bool.false_or, hrest]
    | false =>
      rw [if_neg Bool.false_ne_true, fitsWholeBranch, fitsWholeWith_stripped hW hv, hrest]

end

theorem fitsWhole_stripped {t : Schema} (fuel : Nat) :
    ∀ {s : Schema} {path : String} {v : Value}, v.Solid →
    fitsWhole (.of t.stripped) fuel s.stripped path v = fitsWhole (.of t) fuel s path v := by
  induction fuel with
  | zero => exact fun _ => rfl
  | succ fuel ih =>
    intro s path v hv
    refine fitsWholeWith_stripped (fun name path v hv => ?_) hv
    rw [Schema.find?_stripped]
    cases (Definitions.of t).find? name with
    | none => rfl
    | some d => exact ih hv

end Whole

/-! ## What fits with all fields at hand is not refused -/

section NotRefused

variable {R : Resolve} {W : String → String → Value → Bool}

/-- A type that has no others inside is judged alike everywhere. -/
theorem checkWith_of_leafFits {s : Schema} {path : String} {v : Value} (h : leafFits s v = true)
    (hleaf : ∀ R : Resolve, checkWith R s path v =
      checkWith (fun _ _ _ => .error .tooDeep) s "" v) : checkWith R s path v ≠ .ok false := by
  obtain ⟨b, hb, htrue⟩ := Except.of_passes h
  rw [hleaf, hb]
  intro hfalse
  cases hfalse
  cases htrue

theorem allPass_notRefused {α : Type} {check : α → Except DataFault Bool} {xs : List α}
    (h : ∀ x ∈ xs, check x ≠ .ok false) : allPass check xs ≠ .ok false := by
  induction xs with
  | nil => exact verdict_notRefused.accepted
  | cons x xs ih =>
    exact verdict_notRefused.and (h x List.mem_cons_self) (ih fun y hy =>
      h y (List.mem_cons_of_mem x hy))

mutual

theorem checkWith_notRefused
    (hW : ∀ name path v, v.Solid → W name path v = true → R name path v ≠ .ok false) :
    ∀ {s : Schema} {path : String} {v : Value}, v.Solid → fitsWholeWith W s path v = true →
    checkWith R s path v ≠ .ok false
  | .primitive p, path, v, _, h => checkWith_of_leafFits h fun _ => rfl
  | .named name, path, v, hv, h => hW name path v hv h
  | .annotated p attrs, path, v, _, h => checkWith_of_leafFits h fun _ => rfl
  | .enum name symbols attrs, path, v, _, h => checkWith_of_leafFits h fun _ => rfl
  | .fixed name size attrs, path, v, _, h => checkWith_of_leafFits h fun _ => rfl
  | .array items attrs, path, v, hv, h => by
    rw [fitsWholeWith] at h
    rw [checkWith]
    cases hxs : items? v with
    | none =>
      rw [hxs] at h
      cases h
    | some xs =>
      rw [hxs] at h
      exact allPass_notRefused fun x hx =>
        checkWith_notRefused hW (solid_items? hv hxs x hx) (List.all_eq_true.mp h x hx)
  | .map values attrs, path, v, hv, h => by
    cases v with
    | map es =>
      rw [fitsWholeWith] at h
      obtain ⟨hkeys, hvalues⟩ := Bool.and_eq_true_iff.mp h
      rw [checkWith, if_pos hkeys]
      exact allPass_notRefused fun e he =>
        checkWith_notRefused hW (hv.values e he) (List.all_eq_true.mp hvalues e he)
    | _ => cases h
  | .record isError name fields attrs, path, v, hv, h => by
    cases v with
    | map row =>
      rw [fitsWholeWith] at h
      obtain ⟨hmark, hfields⟩ := Bool.and_eq_true_iff.mp h
      rw [checkWith, if_pos hmark]
      exact checkFields_notRefused hW hv.values hfields
    | _ => cases h
  | .union branches, path, v, hv, h => by
    rw [checkWith_union_of_solid hv]
    exact checkBranches_notRefused hW hv h
  | .unchecked node, path, v, _, h => by cases h

theorem checkFields_notRefused
    (hW : ∀ name path v, v.Solid → W name path v = true → R name path v ≠ .ok false) :
    ∀ {fields : List Field} {path : String} {row : List (Value × Value)}, (∀ e ∈ row, e.2.Solid) →
    fitsWholeFields W fields path row = true → checkFields R fields path row ≠ .ok false
  | [], path, row, _, _ => verdict_notRefused.accepted
  | (f, s) :: rest, path, row, hrow, h => by
    rw [fitsWholeFields] at h
    obtain ⟨hhead, hrest⟩ := Bool.and_eq_true_iff.mp h
    obtain ⟨hname, hvalue⟩ := Bool.and_eq_true_iff.mp hhead
    rw [checkFields, fieldValue, if_pos hname]
    cases hv : Value.lookup row f.name with
    | none =>
      rw [hv] at hvalue
      cases hvalue
    | some v =>
      rw [hv] at hvalue
      exact verdict_notRefused.and (checkWith_notRefused hW (Solid.lookup hrow hv) hvalue)
        (checkFields_notRefused hW hrow hrest)

theorem checkBranches_notRefused
    (hW : ∀ name path v, v.Solid → W name path v = true → R name path v ≠ .ok false) :
    ∀ {branches : List Schema} {path : String} {v : Value}, v.Solid →
    fitsWholeBranch W branches path v = true → checkBranches R branches path v ≠ .ok false
  | [], path, v, _, h => by cases h
  | s :: rest, path, v, hv, h => by
    rw [fitsWholeBranch] at h
    rw [checkBranches]
    obtain h | h := Bool.or_eq_true_iff.mp h
    · exact verdict_notRefused.orFirst (checkWith_notRefused hW hv h)
    · exact verdict_notRefused.orNext (.inl trivial) (checkBranches_notRefused hW hv h)

end

theorem check_notRefused {defs : Definitions} (fuel : Nat) :
    ∀ {s : Schema} {path : String} {v : Value}, v.Solid → fitsWhole defs fuel s path v = true →
    check defs fuel s path v ≠ .ok false := by
  induction fuel with
  | zero => exact fun _ h => by cases h
  | succ fuel ih =>
    intro s path v hv h
    refine checkWith_notRefused (fun name path v hv h => ?_) hv h
    cases hd : defs.find? name with
    | none =>
      rw [hd] at h
      cases h
    | some d =>
      rw [hd] at h
      exact ih hv h

end NotRefused

/-! ## What is compared with all fields at hand -/

section Carried

variable {R R' : Resolve} {C : String → Value → Bool}

theorem checkWith_collapse {branches : List Schema} {path : String} {v : Value} (hv : v.Solid) :
    checkWith R (Schema.collapse branches) path v = checkBranches R branches path v := by
  match branches with
  | [] => exact checkWith_null_of_solid rfl path hv
  | [s] =>
    show checkWith R s path v = _
    rw [checkBranches, checkBranches]
    cases checkWith R s path v with
    | error fault => rfl
    | ok b => cases b <;> rfl
  | s :: s' :: rest => exact checkWith_union_of_solid hv

mutual

theorem checkWith_carried
    (hC : ∀ name path v, v.Solid → C name v = true → R' name path v = R name path v) :
    ∀ {s : Schema} {path : String} {v : Value}, s.Regular → v.Solid → carriesWith C s v = true →
    checkWith R' s.stripped path v = checkWith R s path v
  | .primitive p, path, v, _, _, _ => rfl
  | .named name, path, v, _, hv, h => hC name path v hv h
  | .annotated p attrs, path, v, _, _, _ => rfl
  | .enum name symbols attrs, path, v, _, _, _ => rfl
  | .fixed name size attrs, path, v, _, _, _ => rfl
  | .array items attrs, path, v, hs, hv, h => by
    rw [carriesWith] at h
    rw [Schema.stripped, checkWith, checkWith]
    cases hxs : items? v with
    | none => rfl
    | some xs =>
      rw [hxs] at h
      exact allPass_congr fun x hx =>
        checkWith_carried hC hs.2 (solid_items? hv hxs x hx) (List.all_eq_true.mp h x hx)
  | .map values attrs, path, v, hs, hv, h => by
    cases v with
    | map es =>
      rw [carriesWith] at h
      have hvalues : allPass (fun e => checkWith R' values.stripped path e.2) es =
          allPass (fun e => checkWith R values path e.2) es := allPass_congr fun e he =>
        checkWith_carried hC hs.2 (hv.values e he) (List.all_eq_true.mp h e he)
      rw [Schema.stripped, checkWith, checkWith, hvalues]
    | _ => rfl
  | .record isError name fields attrs, path, v, hs, hv, h => by
    cases v with
    | map row =>
      rw [carriesWith] at h
      rw [Schema.stripped, checkWith, checkWith, checkFields_carried hC hs.2 hv.values h]
    | _ => rfl
  | .union branches, path, v, hs, hv, h => by
    rw [Schema.stripped, checkWith_collapse hv, checkWith_union_of_solid hv]
    exact checkBranches_carried hC hs hv h
  | .unchecked node, path, v, _, _, _ => rfl

theorem checkFields_carried
    (hC : ∀ name path v, v.Solid → C name v = true → R' name path v = R name path v) :
    ∀ {fields : List Field} {path : String} {row : List (Value × Value)},
    Schema.RegularFields fields → (∀ e ∈ row, e.2.Solid) → carriesFields C fields row = true →
    checkFields R' (Schema.strippedFields fields) path row = checkFields R fields path row
  | [], path, row, _, _, _ => rfl
  | (f, s) :: rest, path, row, hs, hrow, h => by
    rw [carriesFields] at h
    obtain ⟨hvalue, hrest⟩ := Bool.and_eq_true_iff.mp h
    rw [Schema.strippedFields, checkFields, checkFields, fieldValue_stripped row hs.1,
      stripped_name, checkFields_carried hC hs.2.2 hrow hrest]
    cases hv : Value.lookup row f.name with
    | none =>
      rw [hv] at hvalue
      cases hvalue
    | some v =>
      rw [hv] at hvalue
      rw [fieldValue, hv]
      split
      · exact congrArg (· >>= fun b => if b then checkFields R rest path row else pure false)
          (checkWith_carried hC hs.2.1 (Solid.lookup hrow hv) hvalue)
      · rfl

theorem checkBranches_carried
    (hC : ∀ name path v, v.Solid → C name v = true → R' name path v = R name path v) :
    ∀ {branches : List Schema} {path : String} {v : Value}, Schema.RegularBranches branches →
    v.Solid → carriesBranches C branches v = true →
    checkBranches R' (Schema.strippedBranches branches) path v = checkBranches R branches path v
  | [], path, v, _, _, _ => rfl
  | s :: rest, path, v, hs, hv, h => by
    rw [carriesBranches] at h
    obtain ⟨hhead, hrest⟩ := Bool.and_eq_true_iff.mp h
    have hrest : checkBranches R' (Schema.strippedBranches rest) path v =
        checkBranches R rest path v := checkBranches_carried hC hs.2 hv hrest
    rw [Schema.strippedBranches, checkBranches]
    cases hnull : s.isNull with
    | true =>
      rw [if_pos rfl, checkWith_null_of_solid hnull path hv, hrest]
      rfl
    | false =>
      rw [if_neg Bool.false_ne_true, checkBranches, checkWith_carried hC hs.1 hv hhead, hrest]

end

theorem check_carried {t : Schema} (ht : t.Regular) (fuel : Nat) :
    ∀ {s : Schema} {path : String} {v : Value}, s.Regular → v.Solid →
    carries (.of t) fuel s v = true →
    check (.of t.stripped) fuel s.stripped path v = check (.of t) fuel s path v := by
  induction fuel with
  | zero => exact fun _ _ _ => rfl
  | succ fuel ih =>
    intro s path v hs hv h
    refine checkWith_carried (fun name path v hv h => ?_) hs hv h
    rw [Schema.find?_stripped]
    cases hd : (Definitions.of t).find? name with
    | none => rfl
    | some d =>
      rw [hd] at h
      exact ih (Schema.inherited_regular.find? ht hd) hv h

end Carried

end Validation

namespace Schema

open Validation

/-- Whether a value fits a schema that stands for itself, with all fields of its record types at
hand. -/
def fitsWhole (s : Schema) (v : Value) : Bool := Validation.fitsWhole (.of s) maxNesting s "" v

/-- Whether a value has all fields of every record type that it is compared with. -/
def carries (s : Schema) (v : Value) : Bool := Validation.carries (.of s) maxNesting s v

variable {s t : Schema} {v : Value}

theorem fitsWhole_of_stripped (hv : v.Solid) : t.stripped.fitsWhole v = t.fitsWhole v :=
  Validation.fitsWhole_stripped maxNesting hv

theorem fits_of_settled (hs : s.settle = .ok t) :
    s.fits v = (check (.of t) maxNesting t "" v).mapError .data := by
  rw [fits, hs]

theorem not_refused_of_fitsWhole (hs : s.settle = .ok t) (hv : v.Solid)
    (h : t.fitsWhole v = true) : s.fits v ≠ .ok false := by
  rw [fits_of_settled hs]
  exact fun hrefused => check_notRefused maxNesting hv h (Except.ok_of_mapError hrefused)

end Schema
end Avro
end StreamTable
