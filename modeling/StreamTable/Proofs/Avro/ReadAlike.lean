/-
Nodes that differ in the order of their keys are read alike.  The induction is on how the nodes are
the same: a reader asks an object for one entry after another by key, and what it finds is the same
again.  Readers share what is known of names; the order in which names came to be known does not
matter either.
-/
import StreamTable.Proofs.Avro.Faults
import StreamTable.Proofs.Avro.Reordering

namespace StreamTable
namespace Avro

open Value

/-! ## Readers that do alike -/

/-- The same names are known, and the same were defined here in the same order. -/
structure Names.Alike (m n : Names) : Prop where
  own : m.own = n.own
  known : ∀ name, name ∈ m.known ↔ name ∈ n.known

/-- Wherever one reader comes to a result, the other comes to a related one. -/
def Simulates {α β : Type} (R : α → β → Prop) (x : Reading α) (y : Reading β) : Prop :=
  ∀ (m n : Names) (a : α) (m' : Names), m.Alike n → x.run m = .ok (a, m') →
    ∃ b n', y.run n = .ok (b, n') ∧ R a b ∧ m'.Alike n'

section Simulates

variable {α β γ δ : Type} {R : α → β → Prop} {R' : γ → δ → Prop} {x : Reading α} {y : Reading β}

theorem simulates_pure {a : α} {b : β} (h : R a b) : Simulates R (pure a) (pure b) := by
  intro m n a' m' hmn hx
  cases hx
  exact ⟨b, n, rfl, h, hmn⟩

theorem simulates_throw {e : SchemaFault} : Simulates R (throw e) y := by
  intro m n a m' _ hx
  cases hx

theorem Simulates.bind {f : α → Reading γ} {g : β → Reading δ} (hx : Simulates R x y)
    (hf : ∀ a b, R a b → Simulates R' (f a) (g b)) : Simulates R' (x >>= f) (y >>= g) := by
  intro m n c m' hmn h
  obtain ⟨⟨a, m₁⟩, ha, hc⟩ := Except.of_bind_ok h
  obtain ⟨b, n₁, hb, hab, hmn₁⟩ := hx m n a m₁ hmn ha
  obtain ⟨d, n', hd, hcd, hmn'⟩ := hf a b hab m₁ n₁ c m' hmn₁ hc
  refine ⟨d, n', ?_, hcd, hmn'⟩
  show (y.run n >>= fun p => (g p.1).run p.2) = _
  rw [hb]
  exact hd

theorem simulates_lift {r : Except SchemaFault α} {r' : Except SchemaFault β}
    (h : ∀ a, r = .ok a → ∃ b, r' = .ok b ∧ R a b) :
    Simulates R (liftM r : Reading α) (liftM r' : Reading β) := by
  intro m n a m' hmn hx
  cases r with
  | error e => cases hx
  | ok a₀ =>
    cases hx
    obtain ⟨b, rfl, hab⟩ := h a rfl
    exact ⟨b, n, rfl, hab, hmn⟩

/-- A result that is reached without regard to names. -/
theorem simulates_lift_same (r : Except SchemaFault α) :
    Simulates Eq (liftM r : Reading α) (liftM r : Reading α) :=
  simulates_lift fun a ha => ⟨a, ha, rfl⟩

theorem simulates_get : Simulates Names.Alike (get : Reading Names) (get : Reading Names) := by
  intro m n a m' hmn hx
  cases hx
  exact ⟨n, n, rfl, hmn, hmn⟩

theorem simulates_modify {f g : Names → Names} (h : ∀ m n, m.Alike n → (f m).Alike (g n)) :
    Simulates (fun _ _ => True) (modify f : Reading PUnit) (modify g : Reading PUnit) := by
  intro m n a m' hmn hx
  cases hx
  exact ⟨(), g n, rfl, trivial, h m n hmn⟩

/-- A reader goes on in the same way after a check that may have to be made. -/
theorem simulates_check {c : Prop} [Decidable c] {check check' : Reading Unit}
    {f : Unit → Reading α} {g : Unit → Reading β}
    (hcheck : c → Simulates (fun _ _ => True) check check') (hf : Simulates R (f ()) (g ())) :
    Simulates R (if c then check >>= f else f ()) (if c then check' >>= g else g ()) := by
  split
  · rename_i hc
    exact (hcheck hc).bind fun _ _ _ => hf
  · exact hf

/-- What is read without names known beforehand. -/
theorem Simulates.run' (h : Simulates R x y) {a : α} (hx : x.run' ⟨[], []⟩ = .ok a) :
    ∃ b, y.run' ⟨[], []⟩ = .ok b ∧ R a b := by
  obtain ⟨⟨a', m'⟩, hrun, ha⟩ := Except.of_bind_ok hx
  cases ha
  obtain ⟨b, n', hb, hab, -⟩ := h _ _ _ _ ⟨rfl, fun _ => Iff.rfl⟩ hrun
  refine ⟨b, ?_, hab⟩
  show (y.run ⟨[], []⟩ >>= fun p => Except.ok p.1) = _
  rw [hb]
  rfl

end Simulates

namespace Schema

variable {p : Place} {v w : Value} {es fs : List (Value × Value)}

theorem define_alike (name : String) :
    Simulates (fun _ _ => True) (define name) (define name) := by
  refine simulates_get.bind fun m n hmn => ?_
  rw [hmn.own]
  split
  · exact simulates_throw
  · intro m₀ n₀ a m' _ hx
    cases hx
    exact ⟨(), _, rfl, trivial, rfl, fun name' => by simp [hmn.known]⟩

theorem defineIn_alike (scope : Scope) (name : String) :
    Simulates (fun _ _ => True) (defineIn scope name) (defineIn scope name) := by
  cases scope with
  | within around => exact define_alike name
  | verbatim => exact simulates_pure trivial

theorem referenceWithin_alike (s : String) (around : Value) :
    Simulates Alike (referenceWithin s around) (referenceWithin s around) := by
  let known (name : String) : Reading Schema := do
    if (← get).known.contains name then pure (.named name) else throw (.unknownName name)
  have hknown (name name' : String) (h : name = name') :
      Simulates Alike (known name) (known name') := by
    refine simulates_get.bind fun m n hmn => ?_
    have hcontains : m.known.contains name = n.known.contains name := by
      rw [Bool.eq_iff_iff, List.contains_iff_mem, List.contains_iff_mem, hmn.known]
    rw [← h, hcontains]
    split
    · exact simulates_pure rfl
    · exact simulates_throw
  unfold referenceWithin
  dsimp only
  split
  · split
    · exact (simulates_pure rfl).bind hknown
    · exact simulates_throw
  · exact (simulates_pure rfl).bind hknown

theorem readReference_alike (s : String) (scope : Scope) :
    Simulates Alike (readReference s scope) (readReference s scope) := by
  cases scope with
  | within around => exact referenceWithin_alike s around
  | verbatim => exact simulates_pure rfl

theorem noFields_alike (scope : Scope) :
    Simulates FieldsAlike (noFields scope) (noFields scope) := by
  cases scope with
  | within around => exact simulates_pure rfl
  | verbatim => exact simulates_throw

/-- What a scope asks to be checked simulates what the same scope asks for elsewhere, if one check
passes whenever the other one does. -/
theorem scopeCheck_alike (scope : Scope) {c c' : Except SchemaFault Unit}
    (h : c = .ok () → c' = .ok ()) :
    Simulates (fun _ _ => True) (liftM (scope.check c) : Reading Unit)
      (liftM (scope.check c')) := by
  cases scope with
  | within around => exact simulates_lift fun u hu => ⟨u, h hu, trivial⟩
  | verbatim => exact simulates_lift fun u hu => ⟨u, hu, trivial⟩

/-! ## Checks -/

theorem acceptsDefault_eq (q : Primitive) (h : Reordered p v w) :
    acceptsDefault q v = acceptsDefault q w := by
  obtain rfl | ⟨xs, ys, rfl, rfl, -⟩ | ⟨es, fs, rfl, rfl, -⟩ := h.eq_or_whole
  · rfl
  · cases q <;> rfl
  · cases q <;> rfl

theorem acceptsAnnotatedDefault_eq (q : Primitive) (h : Reordered p v w) :
    acceptsAnnotatedDefault q v = acceptsAnnotatedDefault q w := by
  obtain rfl | ⟨xs, ys, rfl, rfl, -⟩ | ⟨es, fs, rfl, rfl, -⟩ := h.eq_or_whole
  · rfl
  · cases q <;> rfl
  · cases q <;> rfl

theorem isList_eq (h : Reordered p v w) : isList v = isList w := by
  obtain rfl | ⟨xs, ys, rfl, rfl, -⟩ | ⟨es, fs, rfl, rfl, -⟩ := h.eq_or_whole <;> rfl

theorem isMap_eq (h : Reordered p v w) : isMap v = isMap w := by
  obtain rfl | ⟨xs, ys, rfl, rfl, -⟩ | ⟨es, fs, rfl, rfl, -⟩ := h.eq_or_whole <;> rfl

theorem isStr_eq (h : Reordered p v w) : v.isStr = w.isStr := by
  obtain rfl | ⟨xs, ys, rfl, rfl, -⟩ | ⟨es, fs, rfl, rfl, -⟩ := h.eq_or_whole <;> rfl

theorem checkDefault_eq {d d' : Option Value} (h : Option.Rel (Reordered .data) d d')
    {accepts : Value → Bool} (ha : ∀ v w, Reordered .data v w → accepts v = accepts w) :
    checkDefault d accepts = checkDefault d' accepts := by
  cases h with
  | none => rfl
  | some h => rw [checkDefault, checkDefault, ha _ _ h]

theorem branchAccepts_eq (h : Reordered .data v w) : ∀ {branches branches' : List Schema},
    BranchesAlike branches branches' → branches.any (branchAccepts v) =
      branches'.any (branchAccepts w)
  | [], branches', hb => by
    cases hb
    rfl
  | s :: rest, branches', hb => by
    obtain ⟨t, rest', rfl, hs, hrest⟩ := hb
    have hhead : branchAccepts v s = branchAccepts w t := by
      cases s with
      | primitive q =>
        cases hs
        exact acceptsDefault_eq q h
      | named => cases hs; rfl
      | annotated => obtain ⟨a', rfl, -⟩ := hs; rfl
      | array => obtain ⟨s', a', rfl, -⟩ := hs; rfl
      | map => obtain ⟨s', a', rfl, -⟩ := hs; rfl
      | enum => obtain ⟨a', rfl, -⟩ := hs; rfl
      | fixed => obtain ⟨a', rfl, -⟩ := hs; rfl
      | record => obtain ⟨fields', a', rfl, -⟩ := hs; rfl
      | union => obtain ⟨branches', rfl, -⟩ := hs; rfl
      | unchecked => obtain ⟨node', rfl, -⟩ := hs; rfl
    rw [List.any_cons, List.any_cons, hhead, branchAccepts_eq h hrest]

/-- What is under a key is the same, or no number on either side. -/
theorem same_or_no_number {a a' : Attributes} (h : EntriesReordered (fun _ => .data) a a')
    (key : String) : field? a' key = field? a key ∨
      ∃ v w, field? a key = some v ∧ field? a' key = some w ∧ v.asInt? = none ∧ w.asInt? = none ∧
        w.isTruthy = v.isTruthy := by
  cases hv : field? a key with
  | none => exact .inl (h.field?_none hv)
  | some v =>
    obtain ⟨w, hw, hvw⟩ := h.field?_some hv
    obtain rfl | ⟨xs, ys, rfl, rfl, -⟩ | ⟨es, fs, rfl, rfl, -⟩ := hvw.eq_or_whole
    · exact .inl hw
    · exact .inr ⟨_, _, rfl, hw, rfl, rfl, hvw.isTruthy_eq.symm⟩
    · exact .inr ⟨_, _, rfl, hw, rfl, rfl, hvw.isTruthy_eq.symm⟩

theorem checkedScale_alike {a a' : Attributes} (h : EntriesReordered (fun _ => .data) a a')
    {scale : Option Int} (hs : checkedScale a = .ok scale) : checkedScale a' = .ok scale := by
  obtain hsame | ⟨v, w, hv, hw, hvn, hwn, ht⟩ := same_or_no_number h "scale"
  · rw [checkedScale, hsame]
    exact hs
  · rw [checkedScale, hv] at hs
    rw [checkedScale, hw]
    dsimp only at hs ⊢
    rw [ht]
    split at hs
    · rename_i hnot
      rw [if_pos hnot]
      exact hs
    · rw [hvn] at hs
      cases hs

theorem checkedPrecision_alike {a a' : Attributes} (h : EntriesReordered (fun _ => .data) a a')
    {size : Option (Except SchemaFault Value)} {precision : Option Int}
    (hp : checkedPrecision a size = .ok precision) : checkedPrecision a' size = .ok precision := by
  obtain hsame | ⟨v, w, hv, hw, hvn, hwn, ht⟩ := same_or_no_number h "precision"
  · rw [checkedPrecision, hsame]
    exact hp
  · rw [checkedPrecision, hv] at hp
    rw [checkedPrecision, hw]
    dsimp only at hp ⊢
    rw [ht]
    split at hp
    · rename_i hnot
      rw [if_pos hnot]
      exact hp
    · rw [hvn] at hp
      cases hp

theorem checkDecimal_alike {a a' : Attributes} (h : EntriesReordered (fun _ => .data) a a')
    {size : Option (Except SchemaFault Value)} (hd : checkDecimal a size = .ok ()) :
    checkDecimal a' size = .ok () := by
  obtain ⟨scale, hscale, hd⟩ := Except.of_bind_ok hd
  obtain ⟨precision, hprecision, hd⟩ := Except.of_bind_ok hd
  show (checkedScale a' >>= fun scale => checkedPrecision a' size >>= fun precision => _) = _
  rw [checkedScale_alike h hscale]
  show (checkedPrecision a' size >>= fun precision => _) = _
  rw [checkedPrecision_alike h hprecision]
  cases scale with
  | none => rfl
  | some s =>
    cases precision with
    | none => rfl
    | some n =>
      dsimp only at hd
      split at hd
      · cases hd
      · rename_i hnot
        exact if_neg hnot

/-- No list and no object is one of the symbols of an enum. -/
theorem not_isSymbol {symbols : Value} {items : List Value}
    (hitems : symbols.elements? = some items) (hnames : ∀ x ∈ items, x.isStr = true)
    (hv : isList v = true ∨ isMap v = true) : isSymbol symbols v ≠ .ok true := by
  have hnone : items.any (v.same ·) = false := by
    refine List.any_eq_false.mpr fun x hx => ?_
    have hx := hnames x hx
    cases x <;> simp only [isStr, Bool.false_eq_true] at hx
    cases v <;> simp [isList, isMap, same, compareNumbers?, asInt?] at hv ⊢
  have hhash : v.isHashable = false := by
    cases v <;> simp [isList, isMap, isHashable] at hv ⊢
  intro h
  unfold isSymbol at h
  split at h
  · split at h
    · simp [isList, isMap] at hv
    · cases h
  · rw [hhash] at h
    cases h
  · rw [hhash] at h
    cases h
  · rw [hitems] at h
    simp only [hnone] at h
    cases h

/-- A default that is one of the symbols is a name, which no order of keys changes. -/
theorem isSymbol_alike {symbols : Value} {items : List Value}
    (hitems : symbols.elements? = some items) (hnames : ∀ x ∈ items, x.isStr = true)
    (h : Reordered p v w) (hv : isSymbol symbols v = .ok true) : isSymbol symbols w = .ok true := by
  obtain rfl | ⟨xs, ys, rfl, rfl, -⟩ | ⟨es, fs, rfl, rfl, -⟩ := h.eq_or_whole
  · exact hv
  · exact absurd hv (not_isSymbol hitems hnames (.inl rfl))
  · exact absurd hv (not_isSymbol hitems hnames (.inr rfl))

theorem checkSymbols_alike (h : EntriesReordered (Place.type.under es) es fs)
    (hkind : field? es "type" = some (.str "enum")) (hs : checkSymbols es = .ok ()) :
    checkSymbols fs = .ok () := by
  have hsymbols : field? es "symbols" = field? fs "symbols" := by
    refine h.field?_eq ?_
    rw [Place.under_type hkind]
    rfl
  obtain ⟨symbols, hrequired, hs⟩ := Except.of_bind_ok hs
  have hplace : Place.type.under es "default" = .data := Place.inType_of_notMem (by decide)
  have hdefault := h.field?_rel "default"
  rw [hplace] at hdefault
  have hrequired' : required fs "symbols" = .ok symbols := by
    unfold required
    rw [← hsymbols]
    exact hrequired
  show (required fs "symbols" >>= fun symbols => _) = _
  rw [hrequired']
  dsimp only at hs
  cases hitems : symbols.elements? with
  | none =>
    rw [hitems] at hs
    cases hs
  | some items =>
    rw [hitems] at hs
    dsimp only [bind, Except.bind] at hs ⊢
    rw [hitems]
    dsimp only
    split at hs
    · cases hs
    rename_i hall
    rw [if_neg hall]
    split at hs
    · cases hs
    rename_i hdup
    rw [if_neg hdup]
    have hnames : ∀ x ∈ items, x.isStr = true := by
      rw [Bool.not_eq_true, Bool.not_eq_false', List.all_eq_true] at hall
      intro x hx
      have hx := hall x hx
      cases x <;> first | rfl | cases hx
    generalize field? es "default" = d, field? fs "default" = d' at hs hdefault ⊢
    cases hdefault with
    | none => rfl
    | some h =>
      dsimp only at hs ⊢
      split at hs
      · rename_i hsymbol
        rw [isSymbol_alike hitems hnames h hsymbol]
        exact hs
      · cases hs
      · cases hs

theorem fullNameOf_alike (h : EntriesReordered (Place.type.under es) es fs) {kind : String}
    (hkind : field? es "type" = some (.str kind)) (hnamed : kind ∈ Place.namedKinds)
    (scope : Scope) : fullNameOf fs scope = fullNameOf es scope := by
  have hplace (key : String) (hkey : key = "name" ∨ key = "namespace") :
      Place.type.under es key = .exact := by
    rw [Place.under_type hkind]
    simp only [Place.namedKinds, List.mem_cons, List.not_mem_nil, or_false] at hnamed
    obtain rfl | rfl := hkey <;> obtain rfl | rfl | rfl | rfl := hnamed <;> rfl
  have hname := h.field?_eq (hplace "name" (.inl rfl))
  cases scope with
  | within around =>
    have hwithin : nameWithin fs around = nameWithin es around := by
      rw [nameWithin, nameWithin, hname, h.field?_eq (hplace "namespace" (.inr rfl))]
    rw [fullNameOf, fullNameOf, hwithin]
  | verbatim => rw [fullNameOf, fullNameOf, required, required, hname]

/-! ## Nodes -/

/-- Two fields are the same but for the order of their attributes. -/
structure FieldAlike (f g : Field) : Prop where
  head : f.1.Alike g.1
  type : f.2.Alike g.2

/-- What comes of two values that stand for the same is alike. -/
def ReadsAlike : Place → Value → Value → Prop
  | .type, v, w => ∀ scope d d', Option.Rel (Reordered .data) d d' →
    Simulates Alike (parseNode v scope d) (parseNode w scope d')
  | .fields, v, w => ∀ scope, Simulates FieldsAlike (parseFields v scope) (parseFields w scope)
  | .field, v, w => ∀ scope, Simulates FieldAlike (parseField v scope) (parseField w scope)
  | _, _, _ => True

theorem isDecimal_eq {a a' : Attributes} (h : EntriesReordered (fun _ => .data) a a') :
    isDecimal a' = isDecimal a := by
  have hrel := h.field?_rel "logicalType"
  unfold isDecimal
  generalize field? a "logicalType" = t, field? a' "logicalType" = t' at hrel ⊢
  cases hrel with
  | none => rfl
  | some h => exact (h.isText_eq "decimal").symm

theorem required_alike {place : String → Place} (h : EntriesReordered place es fs)
    (key : String) : Simulates (fun v w => field? es key = some v ∧ field? fs key = some w ∧
      Reordered (place key) v w) (liftM (required es key)) (liftM (required fs key)) := by
  refine simulates_lift fun v hv => ?_
  have hv := required_eq_ok hv
  obtain ⟨w, hw, hvw⟩ := h.field?_some hv
  exact ⟨w, by rw [required, hw], hv, hw, hvw⟩

/-- Two children read what stands under a key. -/
def ReadUnder (es fs : List (Value × Value)) (key : String) (c c' : Child) : Prop :=
  ∃ v w, field? es key = some v ∧ field? fs key = some w ∧ c = ⟨parseNode v, parseFields v⟩ ∧
    c' = ⟨parseNode w, parseFields w⟩

theorem find?_parseChildren_rel {place : String → Place} (h : EntriesReordered place es fs)
    (key : String) : Option.Rel (fun e e' => ReadUnder es fs key e.2 e'.2)
      ((parseChildren es).find? fun e => e.1.isText key)
      ((parseChildren fs).find? fun e => e.1.isText key) := by
  have hsome := h.field?_isSome key
  rw [field?_eq_find?, field?_eq_find?, Option.isSome_map, Option.isSome_map] at hsome
  rw [find?_parseChildren, find?_parseChildren]
  cases he : es.find? fun e => e.1.isText key with
  | none =>
    rw [he] at hsome
    have hf : (fs.find? fun e => e.1.isText key) = none := by
      rw [← Option.isNone_iff_eq_none, ← Option.not_isSome, ← hsome]
      rfl
    rw [hf]
    exact .none
  | some e =>
    rw [he] at hsome
    obtain ⟨f, hf⟩ := Option.isSome_iff_exists.mp hsome.symm
    rw [hf]
    exact .some ⟨e.2, f.2, by rw [field?_eq_find?, he]; rfl, by rw [field?_eq_find?, hf]; rfl,
      rfl, rfl⟩

theorem child_alike {place : String → Place} (h : EntriesReordered place es fs) (key : String) :
    Simulates (ReadUnder es fs key) (liftM (child (parseChildren es) key))
      (liftM (child (parseChildren fs) key)) := by
  have hrel := find?_parseChildren_rel h key
  unfold child
  generalize (parseChildren es).find? _ = e, (parseChildren fs).find? _ = e' at hrel ⊢
  cases hrel with
  | none => exact simulates_throw
  | some h => exact simulates_pure h

theorem checkDefault_alike {d d' : Option Value} (h : Option.Rel (Reordered .data) d d')
    {accepts : Value → Bool} (ha : ∀ v w, Reordered .data v w → accepts v = accepts w) :
    Simulates Eq (liftM (checkDefault d accepts) : Reading Unit)
      (liftM (checkDefault d' accepts)) := by
  rw [checkDefault_eq h ha]
  exact simulates_lift_same _

/-- A part that is the same up to no reordering at all is found as it is. -/
theorem required_exact {place : String → Place} (h : EntriesReordered place es fs) {key : String}
    (hplace : place key = .exact) :
    Simulates Eq (liftM (required es key) : Reading Value) (liftM (required fs key)) := by
  rw [required, required, h.field?_eq hplace]
  exact simulates_lift_same _

/-- The check of a decimal asks a fixed type alone for its size. -/
theorem checkDecimal_simulates (h : EntriesReordered (Place.type.under es) es fs) (scope : Scope)
    {type : Value}
    (htype : field? es "type" = some type) {type' : Value}
    (hsame : Reordered (Place.type.under es "type") type type') :
    Simulates (fun _ _ => True)
      (liftM (scope.check (checkDecimal (attributesOf es)
        (if type.isText "fixed" then some (required es "size") else none))) : Reading Unit)
      (liftM (scope.check (checkDecimal (attributesOf fs)
        (if type'.isText "fixed" then some (required fs "size") else none)))) := by
  have hsize : (if type'.isText "fixed" then some (required fs "size") else none) =
      if type.isText "fixed" then some (required es "size") else none := by
    rw [← hsame.isText_eq]
    split
    · rename_i hfixed
      have hfixed := same_str.mp ((isText_eq_same _ _).symm.trans hfixed)
      rw [hfixed] at htype
      have hsize : field? es "size" = field? fs "size" :=
        h.field?_eq (by rw [Place.under_type htype]; rfl)
      rw [required, required, hsize]
    · rfl
  rw [hsize]
  exact scopeCheck_alike scope fun h' =>
    checkDecimal_alike (attributesOf_alike h).toEntriesReordered h'

/-- Arrays and maps read one node, under a key of their own. -/
theorem nested_alike {place : String → Place} (h : EntriesReordered place es fs) {key : String}
    (hread : ∀ v w, field? es key = some v → field? fs key = some w → ReadsAlike .type v w)
    (scope : Scope) {check check' : Reading Unit} (hcheck : Simulates Eq check check')
    {make make' : Schema → Schema} (hmake : ∀ s t, s.Alike t → (make s).Alike (make' t)) :
    Simulates Alike
      (do
        let inner ← (← (child (parseChildren es) key : Except SchemaFault Child)).schema scope none
        check
        pure (make inner))
      (do
        let inner ← (← (child (parseChildren fs) key : Except SchemaFault Child)).schema scope none
        check'
        pure (make' inner)) := by
  refine (child_alike h key).bind ?_
  rintro _ _ ⟨v, w, hv, hw, rfl, rfl⟩
  refine (hread v w hv hw scope none none .none).bind fun s t hst => ?_
  exact hcheck.bind fun _ _ _ => simulates_pure (hmake s t hst)

/-- Named types make their name known before anything else of them is read. -/
theorem named_alike (h : EntriesReordered (Place.type.under es) es fs) {kind : String}
    (hkind : field? es "type" = some (.str kind)) (hnamed : kind ∈ Place.namedKinds)
    (scope : Scope) {f g : Scope × String → Reading Schema}
    (hfg : ∀ name, Simulates Alike (f name) (g name)) :
    Simulates Alike
      (do
        let name ← (fullNameOf es scope : Except SchemaFault (Scope × String))
        defineIn scope name.2
        f name)
      (do
        let name ← (fullNameOf fs scope : Except SchemaFault (Scope × String))
        defineIn scope name.2
        g name) := by
  rw [fullNameOf_alike h hkind hnamed]
  refine (simulates_lift_same _).bind fun name _ hname => hname ▸ ?_
  exact (defineIn_alike scope name.2).bind fun _ _ _ => hfg name

/-- A record reads the fields it has, or goes on without any. -/
theorem recordFields_alike {place : String → Place} (h : EntriesReordered place es fs)
    (hread : ∀ v w, field? es "fields" = some v → field? fs "fields" = some w →
      ReadsAlike .fields v w) (scope inner : Scope) {f g : List Field → Reading Schema}
    (hfg : ∀ fields fields', FieldsAlike fields fields' → Simulates Alike (f fields) (g fields')) :
    Simulates Alike
      (match (parseChildren es).find? fun e => e.1.isText "fields" with
        | some e => e.2.fields inner >>= f
        | none => noFields scope >>= f)
      (match (parseChildren fs).find? fun e => e.1.isText "fields" with
        | some e => e.2.fields inner >>= g
        | none => noFields scope >>= g) := by
  have hrel := find?_parseChildren_rel h "fields"
  generalize (parseChildren es).find? _ = e, (parseChildren fs).find? _ = e' at hrel ⊢
  cases hrel with
  | none => exact (noFields_alike scope).bind hfg
  | some hchild =>
    obtain ⟨v, w, hv, hw, hc, hc'⟩ := hchild
    dsimp only
    rw [hc, hc']
    exact (hread v w hv hw inner).bind hfg

theorem parseNode_map_alike (h : EntriesReordered (Place.type.under es) es fs)
    (hread : ∀ key v w, field? es key = some v → field? fs key = some w →
      ReadsAlike (Place.type.under es key) v w) (scope : Scope) {d d' : Option Value}
    (hd : Option.Rel (Reordered .data) d d') :
    Simulates Alike (parseNode (.map es) scope d) (parseNode (.map fs) scope d') := by
  rw [parseNode, parseNode]
  have hattributes := attributesOf_alike h
  refine (required_alike h "type").bind ?_
  rintro type type' ⟨htype, -, hsame⟩
  dsimp only
  rw [isDecimal_eq hattributes.toEntriesReordered]
  refine simulates_check (fun _ => checkDecimal_simulates h scope htype hsame) ?_
  obtain rfl | ⟨xs, ys, rfl, rfl, -⟩ | ⟨es', fs', rfl, rfl, -⟩ := hsame.eq_or_whole
  · split
    · refine nested_alike h (fun v w hv hw => ?_) scope
        (checkDefault_alike hd fun v w h => isList_eq h) fun s t hst => ⟨t, _, rfl, hst, hattributes⟩
      have hitems := hread "items" v w hv hw
      rwa [Place.under_type htype] at hitems
    · refine nested_alike h (fun v w hv hw => ?_) scope
        (checkDefault_alike hd fun v w h => isMap_eq h) fun s t hst => ⟨t, _, rfl, hst, hattributes⟩
      have hvalues := hread "values" v w hv hw
      rwa [Place.under_type htype] at hvalues
    · refine named_alike h htype (by decide) scope fun name => ?_
      refine (scopeCheck_alike scope fun h' => checkSymbols_alike h htype h').bind fun _ _ _ => ?_
      refine (checkDefault_alike hd fun v w h => isStr_eq h).bind fun _ _ _ => ?_
      refine (required_exact h (by rw [Place.under_type htype]; rfl)).bind fun symbols _ hs => ?_
      exact simulates_pure ⟨_, hs ▸ rfl, hattributes⟩
    · refine named_alike h htype (by decide) scope fun name => ?_
      refine (required_exact h (by rw [Place.under_type htype]; rfl)).bind fun size _ hs => ?_
      refine (checkDefault_alike hd fun v w h => isStr_eq h).bind fun _ _ _ => ?_
      exact simulates_pure ⟨_, hs ▸ rfl, hattributes⟩
    -- records, primitive types given as objects, and unknown kinds
    · rename_i t _ _ _ _
      split
      · rename_i ht
        have ht : t = "record" ∨ t = "error" := by simpa using ht
        obtain ⟨hnamed, hplace⟩ := Place.inType_fields ht
        refine named_alike h htype hnamed scope fun name => ?_
        refine recordFields_alike h (fun v w hv hw => ?_) scope name.1 fun fields fields' hfields => ?_
        · have hread := hread "fields" v w hv hw
          rwa [Place.under_type htype, hplace] at hread
        refine (checkDefault_alike hd fun v w h => isMap_eq h).bind fun _ _ _ => ?_
        exact simulates_pure ⟨fields', _, rfl, hfields, hattributes⟩
      · split
        · rename_i q _
          refine (checkDefault_alike hd fun v w h => acceptsAnnotatedDefault_eq q h).bind
            fun _ _ _ => ?_
          exact simulates_pure ⟨_, rfl, hattributes⟩
        · exact simulates_throw
    · exact simulates_throw
  · exact simulates_throw
  · exact simulates_throw

/-- The defaults of two fields stand for the same, as far as a scope asks for them. -/
theorem default?_rel (h : EntriesReordered (Place.field.under es) es fs) (scope : Scope) :
    Option.Rel (Reordered .data) (scope.default? es) (scope.default? fs) := by
  cases scope with
  | within around => exact h.field?_rel "default"
  | verbatim => exact .none

theorem parseField_alike (h : EntriesReordered (Place.field.under es) es fs)
    (hread : ∀ v w, field? es "type" = some v → field? fs "type" = some w → ReadsAlike .type v w)
    (scope : Scope) :
    Simulates FieldAlike (parseField (.map es) scope) (parseField (.map fs) scope) := by
  have hname : field? es "name" = field? fs "name" := h.field?_eq rfl
  rw [parseField, parseField, ← hname]
  split
  · exact simulates_throw
  · rename_i name hname
    have hrel := find?_parseChildren_rel h "type"
    generalize (parseChildren es).find? _ = e, (parseChildren fs).find? _ = e' at hrel ⊢
    cases hrel with
    | none => exact simulates_throw
    | some hchild =>
      obtain ⟨v, w, hv, hw, hc, hc'⟩ := hchild
      dsimp only
      rw [hc, hc']
      have hdone : Simulates FieldAlike
          (do
            let schema ← parseNode v scope (scope.default? es)
            pure (⟨name, fieldAttributesOf es⟩, schema))
          (do
            let schema ← parseNode w scope (scope.default? fs)
            pure (⟨name, fieldAttributesOf fs⟩, schema)) :=
        (hread v w hv hw scope _ _ (default?_rel h scope)).bind fun s t hst =>
          simulates_pure ⟨fieldAttributesOf_alike h name, hst⟩
      have haliases := h.field?_rel "aliases"
      generalize field? es "aliases" = x, field? fs "aliases" = x' at haliases ⊢
      cases haliases with
      | none => exact hdone
      | some h =>
        dsimp only
        rw [← isList_eq h]
        refine (scopeCheck_alike scope fun h' => ?_).bind fun _ _ _ => hdone
        split at h'
        · cases h'
        · rename_i hlist
          rw [if_neg hlist]
          rfl

theorem parseBranches_alike {xs ys : List Value} (h : List.Forall₂ (ReadsAlike .type) xs ys)
    (scope : Scope) :
    Simulates BranchesAlike (parseBranches xs scope) (parseBranches ys scope) := by
  induction h with
  | nil =>
    rw [parseBranches]
    exact simulates_pure rfl
  | cons hx hxs ih =>
    rw [parseBranches, parseBranches]
    refine (hx scope none none .none).bind fun s t hst => ih.bind fun rest rest' hrest => ?_
    exact simulates_pure ⟨t, rest', rfl, hst, hrest⟩

theorem parseFieldList_alike {xs ys : List Value} (h : List.Forall₂ (ReadsAlike .field) xs ys)
    (scope : Scope) : Simulates FieldsAlike (parseFieldList xs scope) (parseFieldList ys scope) := by
  induction h with
  | nil =>
    rw [parseFieldList]
    exact simulates_pure rfl
  | cons hx hxs ih =>
    rw [parseFieldList, parseFieldList]
    refine (hx scope).bind fun f g hfg => ih.bind fun rest rest' hrest => ?_
    exact simulates_pure ⟨g.1, g.2, rest', rfl, hfg.head, hfg.type, hrest⟩

theorem refuseFields_alike {xs ys : List Value} (h : xs.length = ys.length) :
    Simulates FieldsAlike (refuseFields xs) (refuseFields ys) := by
  cases xs <;> cases ys
  · exact simulates_pure rfl
  · cases h
  · cases h
  · exact simulates_throw

theorem readsAlike_atom (h : v.isAtom = true) (p : Place) : ReadsAlike p v v := by
  cases p with
  | data => exact trivial
  | exact => exact trivial
  | type =>
    intro scope d d' hd
    cases v with
    | str s =>
      rw [parseNode, parseNode]
      split
      · rename_i q _
        refine (checkDefault_alike hd fun v w h => acceptsDefault_eq q h).bind fun _ _ _ => ?_
        exact simulates_pure rfl
      · exact readReference_alike s scope
    | list | map | tuple => cases h
    | _ =>
      simp only [parseNode]
      exact simulates_throw
  | fields =>
    intro scope
    cases v with
    | list | map | tuple => cases h
    | str | set | bytes | bytearray =>
      rw [parseFields]
      exact refuseFields_alike rfl
    | _ =>
      simp only [parseFields]
      exact simulates_throw
  | field =>
    intro scope
    cases v with
    | map => cases h
    | _ =>
      simp only [parseField]
      exact simulates_throw

/-- A list of branches. -/
theorem parseNode_list_alike {xs ys : List Value} (h : List.Forall₂ (ReadsAlike .type) xs ys)
    (scope : Scope) {d d' : Option Value} (hd : Option.Rel (Reordered .data) d d') :
    Simulates Alike (parseNode (.list xs) scope d) (parseNode (.list ys) scope d') := by
  rw [parseNode, parseNode]
  refine (parseBranches_alike h scope).bind fun branches branches' hbranches => ?_
  cases hd with
  | none => exact simulates_pure ⟨branches', rfl, hbranches⟩
  | some hd =>
    dsimp only
    rw [branchAccepts_eq hd hbranches]
    split
    · exact simulates_pure ⟨branches', rfl, hbranches⟩
    · exact simulates_throw

/-- Nodes that stand for the same are read alike. -/
theorem readsAlike (h : Reordered p v w) : ReadsAlike p v w := by
  induction h with
  | exact v => exact trivial
  | atom p v h => exact readsAlike_atom h p
  | @list p xs ys hp hlength h ih =>
    have hall : List.Forall₂ (ReadsAlike p.item) xs ys := List.forall₂_iff_get.mpr ⟨hlength, ih⟩
    cases p with
    | data => exact trivial
    | exact => exact trivial
    | type => exact fun scope d d' hd => parseNode_list_alike hall scope hd
    | fields =>
      intro scope
      rw [parseFields, parseFields]
      exact parseFieldList_alike hall scope
    | field =>
      intro scope
      simp only [parseField]
      exact simulates_throw
  | @map p es fs hp hkeys h ih =>
    have hentries : EntriesReordered (p.under es) es fs := ⟨hkeys, h⟩
    cases p with
    | data => exact trivial
    | exact => exact trivial
    | type => exact fun scope d d' hd => parseNode_map_alike hentries ih scope hd
    | fields =>
      intro scope
      rw [parseFields, parseFields]
      exact refuseFields_alike (by simpa using hkeys.length_eq)
    | field => exact fun scope => parseField_alike hentries (ih "type") scope

end Schema

end Avro
end StreamTable
