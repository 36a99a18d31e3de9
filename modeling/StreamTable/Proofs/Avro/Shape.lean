/-
The shape of a schema: what the check of a value sees of it.  Of the attributes it sees logical
types that fit their types, the scale and the precision of decimals, and the defaults of fields.
Of a branch of a union it also sees what a value can name the branch by.

Two schemas of one shape accept the same values, and have one canonical form.  The converse does
not hold: the canonical form drops what the shape keeps of the attributes.
-/
import StreamTable.Avro.Canonical
import StreamTable.Avro.Validation
import StreamTable.Proofs.Value.Entries

namespace StreamTable
namespace Avro

/-- How many digits a decimal may have, as its attributes say. -/
structure Limits where
  scale : Option Value
  precision : Option Value

def Limits.of (attrs : Attributes) : Limits :=
  ⟨Value.field? attrs "scale", Value.field? attrs "precision"⟩

inductive Shape where
  | scalar (type : Primitive) (logical : Option Logical) (decimal : Option Limits)
  | named (fullName : String)
  | array (items : Shape)
  | map (values : Shape)
  | enum (fullName : String) (symbols : Value)
  | fixed (fullName : String) (size : Value) (decimal : Option Limits)
  | record (fullName : String) (fields : List (Value × Option Value × Shape))
  | union (branches : List (Value × Shape))
  | unchecked

namespace Schema

/-- What a value names a branch of a union by. -/
def branchName : Schema → Value
  | .record false name _ _ => .str name
  | s => s.toValue

mutual

def shape : Schema → Shape
  | .primitive p => .scalar p none none
  | .named name => .named name
  | .annotated p attrs =>
    let logical := Logical.of? p attrs
    .scalar p logical (if logical = some .decimal then some (.of attrs) else none)
  | .array items _ => .array items.shape
  | .map values _ => .map values.shape
  | .enum name symbols _ => .enum name symbols
  | .fixed name size attrs =>
    .fixed name size (if Logical.isFixedDecimal attrs then some (.of attrs) else none)
  | .record _ name fields _ => .record name (fieldShapes fields)
  | .union branches => .union (branchShapes branches)
  | .unchecked _ => .unchecked

def fieldShapes : List (FieldHead × Schema) → List (Value × Option Value × Shape)
  | [] => []
  | (f, s) :: rest => (f.name, f.default?, s.shape) :: fieldShapes rest

def branchShapes : List Schema → List (Value × Shape)
  | [] => []
  | s :: rest => (s.branchName, s.shape) :: branchShapes rest

end

/-! ## Induction -/

/-- Relations of two schemas, of their fields and of their branches that are handed on from parts of
one shape to the whole. -/
structure Congruence (P : Schema → Schema → Prop) (F : List Field → List Field → Prop)
    (B : List Schema → List Schema → Prop) : Prop where
  scalar : ∀ s t p l d, s.shape = .scalar p l d → t.shape = .scalar p l d → P s t
  named : ∀ name, P (.named name) (.named name)
  array : ∀ s t a a', P s t → P (.array s a) (.array t a')
  map : ∀ s t a a', P s t → P (.map s a) (.map t a')
  enum : ∀ name symbols a a', P (.enum name symbols a) (.enum name symbols a')
  fixed : ∀ name size a a',
    (Schema.fixed name size a).shape = (Schema.fixed name size a').shape →
    P (.fixed name size a) (.fixed name size a')
  record : ∀ isError isError' name fs gs a a', fieldShapes fs = fieldShapes gs → F fs gs →
    P (.record isError name fs a) (.record isError' name gs a')
  union : ∀ ss ts, B ss ts → P (.union ss) (.union ts)
  unchecked : ∀ node node', P (.unchecked node) (.unchecked node')
  noField : F [] []
  field : ∀ (f g : FieldHead) s t fs gs, f.name = g.name → f.default? = g.default? → P s t →
    F fs gs → F ((f, s) :: fs) ((g, t) :: gs)
  noBranch : B [] []
  branch : ∀ s t ss ts, s.branchName = t.branchName → P s t → B ss ts → B (s :: ss) (t :: ts)

namespace Congruence

variable {P : Schema → Schema → Prop} {F : List Field → List Field → Prop}
  {B : List Schema → List Schema → Prop}

mutual

theorem of_shape (c : Congruence P F B) : ∀ {s t : Schema}, s.shape = t.shape → P s t
  | .primitive p, t, h => c.scalar _ _ p none none rfl h.symm
  | .annotated _ _, t, h => c.scalar _ _ _ _ _ rfl h.symm
  | .named name, t, h => by
    cases t with
    | named name' =>
      cases h
      exact c.named name
    | _ => cases h
  | .array items a, t, h => by
    cases t with
    | array items' a' => exact c.array items items' a a' (c.of_shape (Shape.array.inj h))
    | _ => cases h
  | .map values a, t, h => by
    cases t with
    | map values' a' => exact c.map values values' a a' (c.of_shape (Shape.map.inj h))
    | _ => cases h
  | .enum name symbols a, t, h => by
    cases t with
    | enum name' symbols' a' =>
      cases h
      exact c.enum name symbols a a'
    | _ => cases h
  | .fixed name size a, t, h => by
    cases t with
    | fixed name' size' a' =>
      obtain ⟨rfl, rfl, -⟩ := Shape.fixed.inj h
      exact c.fixed name size a a' h
    | _ => cases h
  | .record isError name fs a, t, h => by
    cases t with
    | record isError' name' gs a' =>
      obtain ⟨rfl, hfields⟩ := Shape.record.inj h
      exact c.record isError isError' name fs gs a a' hfields (c.of_fieldShapes hfields)
    | _ => cases h
  | .union ss, t, h => by
    cases t with
    | union ts => exact c.union ss ts (c.of_branchShapes (Shape.union.inj h))
    | _ => cases h
  | .unchecked node, t, h => by
    cases t with
    | unchecked node' => exact c.unchecked node node'
    | _ => cases h

theorem of_fieldShapes (c : Congruence P F B) :
    ∀ {fs gs : List Field}, fieldShapes fs = fieldShapes gs → F fs gs
  | [], gs, h => by
    cases gs with
    | nil => exact c.noField
    | cons => cases h
  | (f, s) :: fs, gs, h => by
    cases gs with
    | nil => cases h
    | cons g gs =>
      simp only [fieldShapes, List.cons.injEq, Prod.mk.injEq] at h
      obtain ⟨⟨hname, hdefault, hs⟩, hrest⟩ := h
      exact c.field f g.1 s g.2 fs gs hname hdefault (c.of_shape hs) (c.of_fieldShapes hrest)

theorem of_branchShapes (c : Congruence P F B) :
    ∀ {ss ts : List Schema}, branchShapes ss = branchShapes ts → B ss ts
  | [], ts, h => by
    cases ts with
    | nil => exact c.noBranch
    | cons => cases h
  | s :: ss, ts, h => by
    cases ts with
    | nil => cases h
    | cons t ts =>
      simp only [branchShapes, List.cons.injEq, Prod.mk.injEq] at h
      obtain ⟨⟨hname, hs⟩, hrest⟩ := h
      exact c.branch s t ss ts hname (c.of_shape hs) (c.of_branchShapes hrest)

end

end Congruence

theorem shape_eq_scalar {s : Schema} {p : Primitive} {l : Option Logical} {d : Option Limits}
    (h : s.shape = .scalar p l d) :
    s = .primitive p ∧ l = none ∨
      ∃ attrs, s = .annotated p attrs ∧ l = Logical.of? p attrs ∧
        (l = some .decimal → d = some (.of attrs)) := by
  cases s with
  | primitive q =>
    cases h
    exact .inl ⟨rfl, rfl⟩
  | annotated q attrs =>
    cases h
    exact .inr ⟨attrs, rfl, rfl, fun hl => if_pos hl⟩
  | _ => cases h

/-! ## Definitions -/

theorem definitions_of_scalar {s : Schema} {p : Primitive} {l : Option Logical} {d : Option Limits}
    (h : s.shape = .scalar p l d) : s.definitions = [] := by
  obtain ⟨rfl, -⟩ | ⟨a, rfl, -⟩ := shape_eq_scalar h
  · rfl
  · rfl

theorem definitions_congruence : Congruence
    (fun s t => (s.definitions.map fun e => (e.1, e.2.shape)) =
      t.definitions.map fun e => (e.1, e.2.shape))
    (fun fs gs => ((fieldDefinitions fs).map fun e => (e.1, e.2.shape)) =
      (fieldDefinitions gs).map fun e => (e.1, e.2.shape))
    (fun ss ts => ((branchDefinitions ss).map fun e => (e.1, e.2.shape)) =
      (branchDefinitions ts).map fun e => (e.1, e.2.shape)) where
  scalar s t p l d hs ht := by
    rw [definitions_of_scalar hs, definitions_of_scalar ht]
  named _ := rfl
  array _ _ _ _ hs := hs
  map _ _ _ _ hs := hs
  enum _ _ _ _ := rfl
  fixed name _ _ _ h := congrArg (fun shape => [(name, shape)]) h
  record isError isError' name fs gs a a' hfields hdefinitions := by
    simp only [definitions, List.map_cons, List.cons.injEq, Prod.mk.injEq]
    exact ⟨⟨trivial, congrArg (Shape.record name) hfields⟩, hdefinitions⟩
  union _ _ hbranches := hbranches
  unchecked _ _ := rfl
  noField := rfl
  field f g s t fs gs _ _ hs hrest := by
    simp only [fieldDefinitions, List.map_append]
    rw [hs, hrest]
  noBranch := rfl
  branch s t ss ts _ hs hrest := by
    simp only [branchDefinitions, List.map_append]
    rw [hs, hrest]

end Schema

/-- Schemas of one shape define the same names, with definitions of one shape. -/
theorem Definitions.find?_of_shape {s t : Schema} (h : s.shape = t.shape) (name : String) :
    ((Definitions.of s).find? name).map Schema.shape =
      ((Definitions.of t).find? name).map Schema.shape := by
  have hfind : ∀ u : Schema, ((Definitions.of u).find? name).map Schema.shape =
      ((u.definitions.map fun e => (e.1, e.2.shape)).reverse.find? fun e => e.1 == name).map
        Prod.snd := by
    intro u
    rw [← List.map_reverse, List.find?_map, find?, of, Option.map_map, Option.map_map]
    rfl
  rw [hfind, hfind, Schema.definitions_congruence.of_shape h]

/-! ## Checking -/

namespace Logical

theorem unscaled_of_limits {a a' : Attributes} (h : Limits.of a = Limits.of a') (d : Decimal) :
    unscaled a d = unscaled a' d := by
  obtain ⟨hscale, hprecision⟩ := Limits.mk.inj h
  rw [unscaled, unscaled, scaleOf, scaleOf, precisionOf, precisionOf, hscale, hprecision]

theorem prepare_of_limits {l : Logical} {a a' : Attributes}
    (h : l = .decimal → Limits.of a = Limits.of a') (v : Value) :
    prepare l a v = prepare l a' v := by
  cases l with
  | decimal =>
    cases v with
    | decimal d => rw [prepare, prepare, unscaled_of_limits (h rfl)]
    | _ => rfl
  | _ => cases v <;> rfl

theorem prepareFixed_of_shape {name : String} {size : Value} {a a' : Attributes}
    (h : (Schema.fixed name size a).shape = (Schema.fixed name size a').shape) (v : Value) :
    prepareFixed size a v = prepareFixed size a' v := by
  have hlimits := (Shape.fixed.inj h).2.2
  cases v with
  | decimal d =>
    rw [prepareFixed, prepareFixed]
    by_cases hd : isFixedDecimal a = true
    · by_cases hd' : isFixedDecimal a' = true
      · rw [if_pos hd, if_pos hd'] at hlimits
        rw [if_pos hd, if_pos hd', unscaled_of_limits (Option.some.inj hlimits)]
      · rw [if_pos hd, if_neg hd'] at hlimits
        cases hlimits
    · by_cases hd' : isFixedDecimal a' = true
      · rw [if_neg hd, if_pos hd'] at hlimits
        cases hlimits
      · rw [if_neg hd, if_neg hd']
  | _ => rfl

end Logical

namespace Validation

theorem branchNameIs_eq (s : Schema) (name : Value) :
    branchNameIs s name = s.branchName.same name := by
  cases s with
  | record isError n fs a =>
    cases isError with
    | false => exact name.isText_eq_same n
    | true => rfl
  | _ => rfl

theorem checkWith_congruence (resolve : Resolve) : Schema.Congruence
    (fun s t => ∀ path v, checkWith resolve s path v = checkWith resolve t path v)
    (fun fs gs => ∀ path row, checkFields resolve fs path row = checkFields resolve gs path row)
    (fun ss ts => (∀ path v, checkBranches resolve ss path v = checkBranches resolve ts path v) ∧
      ∀ path name v, checkBranchNamed resolve ss path name v =
        checkBranchNamed resolve ts path name v) where
  scalar s t p l d hs ht path v := by
    obtain ⟨rfl, hl⟩ | ⟨a, rfl, hl, hd⟩ := Schema.shape_eq_scalar hs
    · obtain ⟨rfl, -⟩ | ⟨a', rfl, hl', -⟩ := Schema.shape_eq_scalar ht
      · rfl
      · simp only [checkWith, ← hl', hl]
    · obtain ⟨rfl, hl'⟩ | ⟨a', rfl, hl', hd'⟩ := Schema.shape_eq_scalar ht
      · simp only [checkWith, ← hl, hl']
      · simp only [checkWith, ← hl, ← hl']
        cases l with
        | none => rfl
        | some l =>
          have hlimits : l = .decimal → Limits.of a = Limits.of a' := by
            rintro rfl
            exact Option.some.inj ((hd rfl).symm.trans (hd' rfl))
          simp only [Logical.prepare_of_limits hlimits]
  named _ _ _ := rfl
  array s t a a' hs path v := by
    simp only [checkWith, funext (hs path)]
  map s t a a' hs path v := by
    simp only [checkWith, hs path]
  enum _ _ _ _ _ _ := rfl
  fixed name size a a' h path v := by
    simp only [checkWith, Logical.prepareFixed_of_shape h]
  record isError isError' name fs gs a a' _ hfields path v := by
    simp only [checkWith, hfields]
  union ss ts hbranches path v := by
    simp only [checkWith, hbranches]
  unchecked _ _ _ _ := rfl
  noField _ _ := rfl
  field f g s t fs gs hname hdefault hs hrest path row := by
    simp only [checkFields, fieldValue, hname, hdefault, hs, hrest]
  noBranch := ⟨fun _ _ => rfl, fun _ _ _ => rfl⟩
  branch s t ss ts hname hs hrest := by
    constructor
    · intro path v
      simp only [checkBranches, hs, hrest]
    · intro path name v
      simp only [checkBranchNamed, branchNameIs_eq, hname, hs, hrest]

/-- What fits a schema fits every schema of its shape. -/
theorem check_of_shape {defs defs' : Definitions}
    (hdefs : ∀ name, (defs.find? name).map Schema.shape = (defs'.find? name).map Schema.shape)
    (fuel : Nat) {s t : Schema} (h : s.shape = t.shape) (path : String) (v : Value) :
    check defs fuel s path v = check defs' fuel t path v := by
  induction fuel generalizing s t path v with
  | zero => rfl
  | succ fuel ih =>
    rw [check, check, (checkWith_congruence _).of_shape h]
    congr 1
    funext name path v
    have hname := hdefs name
    cases hs : defs.find? name with
    | none =>
      cases ht : defs'.find? name with
      | none => rfl
      | some t =>
        rw [hs, ht] at hname
        cases hname
    | some s =>
      cases ht : defs'.find? name with
      | none =>
        rw [hs, ht] at hname
        cases hname
      | some t =>
        rw [hs, ht] at hname
        exact ih (Option.some.inj hname) path v

end Validation

namespace Schema

/-- Two schemas stand for schemas of one shape when rows are checked with them. -/
def SameShape (s t : Schema) : Prop :=
  ∃ s' t', s.settle = .ok s' ∧ t.settle = .ok t' ∧ s'.shape = t'.shape

theorem SameShape.fits_eq {s t : Schema} (h : SameShape s t) (v : Value) : s.fits v = t.fits v := by
  obtain ⟨s', t', hs, ht, hshape⟩ := h
  simp only [fits, hs, ht]
  rw [Validation.check_of_shape (Definitions.find?_of_shape hshape) maxNesting hshape]

theorem SameShape.of_settled {s t t' : Schema} (h : SameShape s t) (ht : t.settle = .ok t')
    (ht' : t'.settle = .ok t') : SameShape s t' := by
  obtain ⟨s', u, hs, hu, hshape⟩ := h
  obtain rfl : t' = u := Except.ok.inj (ht.symm.trans hu)
  exact ⟨s', t', hs, ht', hshape⟩

/-! ## The canonical form -/

theorem form_of_scalar {s : Schema} {p : Primitive} {l : Option Logical} {d : Option Limits}
    (h : s.shape = .scalar p l d) : Canonical.form s = Canonical.quote p.name := by
  cases s with
  | primitive q =>
    cases h
    rfl
  | annotated q a =>
    cases h
    rfl
  | _ => cases h

theorem form_congruence : Congruence (fun s t => Canonical.form s = Canonical.form t)
    (fun fs gs => Canonical.fieldForms fs = Canonical.fieldForms gs)
    (fun ss ts => Canonical.branchForms ss = Canonical.branchForms ts) where
  scalar s t p l d hs ht := by
    rw [form_of_scalar hs, form_of_scalar ht]
  named _ := rfl
  array s t a a' hs := by
    simp only [Canonical.form, hs]
  map s t a a' hs := by
    simp only [Canonical.form, hs]
  enum _ _ _ _ := rfl
  fixed _ _ _ _ _ := rfl
  record isError isError' name fs gs a a' _ hfields := by
    simp only [Canonical.form, hfields]
  union ss ts hbranches := by
    simp only [Canonical.form, hbranches]
  unchecked _ _ := rfl
  noField := rfl
  field f g s t fs gs hname _ hs hrest := by
    simp only [Canonical.fieldForms, hname, hs, hrest]
  noBranch := rfl
  branch s t ss ts _ hs hrest := by
    simp only [Canonical.branchForms, hs, hrest]

theorem SameShape.fingerprint_eq {s t : Schema} (h : SameShape s t) :
    s.fingerprint = t.fingerprint := by
  obtain ⟨s', t', hs, ht, hshape⟩ := h
  simp only [fingerprint, canonicalForm, hs, ht, Bind.bind, Except.bind,
    form_congruence.of_shape hshape]

end Schema
end Avro
end StreamTable
