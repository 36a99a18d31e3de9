/-
Tests of a schema and of all that stand inside it.  What passes a test everywhere passes it in each
of the types that it defines.
-/
import StreamTable.Proofs.Avro.Regular

namespace StreamTable
namespace Avro
namespace Schema

variable {p : Schema → Bool}

mutual

/-- Whether a schema and all schemas inside it pass a test. -/
def everywhere (p : Schema → Bool) : Schema → Bool
  | .array items attrs => p (.array items attrs) && items.everywhere p
  | .map values attrs => p (.map values attrs) && values.everywhere p
  | .record isError name fields attrs =>
    p (.record isError name fields attrs) && fieldsEverywhere p fields
  | .union branches => p (.union branches) && branchesEverywhere p branches
  | s => p s

def fieldsEverywhere (p : Schema → Bool) : List (FieldHead × Schema) → Bool
  | [] => true
  | (_, s) :: rest => s.everywhere p && fieldsEverywhere p rest

def branchesEverywhere (p : Schema → Bool) : List Schema → Bool
  | [] => true
  | s :: rest => s.everywhere p && branchesEverywhere p rest

end

/-- A property that is handed on to the parts of a schema. -/
structure Inherited (P : Schema → Prop) (F : List Field → Prop) (B : List Schema → Prop) :
    Prop where
  array : ∀ {items attrs}, P (.array items attrs) → P items
  map : ∀ {values attrs}, P (.map values attrs) → P values
  record : ∀ {isError name fields attrs}, P (.record isError name fields attrs) → F fields
  union : ∀ {branches}, P (.union branches) → B branches
  field : ∀ {f s rest}, F ((f, s) :: rest) → P s ∧ F rest
  branch : ∀ {s rest}, B (s :: rest) → P s ∧ B rest

theorem inherited_everywhere :
    Inherited (fun s => s.everywhere p = true) (fun fs => fieldsEverywhere p fs = true)
      (fun bs => branchesEverywhere p bs = true) where
  array h := (Bool.and_eq_true_iff.mp h).2
  map h := (Bool.and_eq_true_iff.mp h).2
  record h := (Bool.and_eq_true_iff.mp h).2
  union h := (Bool.and_eq_true_iff.mp h).2
  field h := Bool.and_eq_true_iff.mp h
  branch h := Bool.and_eq_true_iff.mp h

theorem inherited_regular : Inherited Regular RegularFields RegularBranches where
  array h := h.2
  map h := h.2
  record h := h.2
  union h := h
  field h := h.2
  branch h := h

namespace Inherited

variable {P : Schema → Prop} {F : List Field → Prop} {B : List Schema → Prop}

mutual

/-- The types that a schema defines are parts of it. -/
theorem definitions (c : Inherited P F B) : ∀ {s : Schema}, P s → ∀ e ∈ s.definitions, P e.2
  | .array items attrs, h => c.definitions (s := items) (c.array h)
  | .map values attrs, h => c.definitions (s := values) (c.map h)
  | .record isError name fields attrs, h => by
    intro e he
    obtain rfl | he := List.mem_cons.mp he
    · exact h
    · exact c.fieldDefinitions (c.record h) e he
  | .union branches, h => c.branchDefinitions (c.union h)
  | .enum name symbols attrs, h => fun e he => by
    rw [List.mem_singleton.mp he]
    exact h
  | .fixed name size attrs, h => fun e he => by
    rw [List.mem_singleton.mp he]
    exact h
  | .primitive _, _ => nofun
  | .named _, _ => nofun
  | .annotated _ _, _ => nofun
  | .unchecked _, _ => nofun

theorem fieldDefinitions (c : Inherited P F B) : ∀ {fields : List Field}, F fields →
    ∀ e ∈ Schema.fieldDefinitions fields, P e.2
  | [], _ => nofun
  | (f, s) :: rest, h => by
    intro e he
    obtain he | he := List.mem_append.mp he
    · exact c.definitions (c.field h).1 e he
    · exact c.fieldDefinitions (c.field h).2 e he

theorem branchDefinitions (c : Inherited P F B) : ∀ {branches : List Schema}, B branches →
    ∀ e ∈ Schema.branchDefinitions branches, P e.2
  | [], _ => nofun
  | s :: rest, h => by
    intro e he
    obtain he | he := List.mem_append.mp he
    · exact c.definitions (c.branch h).1 e he
    · exact c.branchDefinitions (c.branch h).2 e he

end

theorem find? (c : Inherited P F B) {s t : Schema} {name : String} (h : P s)
    (ht : (Definitions.of s).find? name = some t) : P t := by
  obtain ⟨e, he, rfl⟩ := Option.map_eq_some_iff.mp ht
  exact c.definitions h e (List.mem_reverse.mp (List.mem_of_find?_eq_some he))

end Inherited

/-! ## Schemas without unchecked nodes -/

def isRead : Schema → Bool
  | .unchecked _ => false
  | _ => true

/-- Whether no node inside a schema was taken as it is. -/
def isChecked (s : Schema) : Bool := s.everywhere isRead

mutual

/-- What is read from a node is checked. -/
theorem ReadFrom.isChecked : ∀ {s : Schema} {node : Value} {scope : Scope}, s.ReadFrom node scope →
    s.isChecked = true
  | .primitive _, _, _, _ => rfl
  | .named _, _, _, _ => rfl
  | .annotated _ _, _, _, _ => rfl
  | .enum _ _ _, _, _, _ => rfl
  | .fixed _ _ _, _, _, _ => rfl
  | .array items attrs, node, scope, h => by
    obtain ⟨es, v, -, -, -, hitems⟩ := h
    exact hitems.isChecked
  | .map values attrs, node, scope, h => by
    obtain ⟨es, v, -, -, -, hvalues⟩ := h
    exact hvalues.isChecked
  | .record isError name fields attrs, node, scope, h => by
    obtain ⟨es, inner, -, -, -, hfields⟩ := h
    exact hfields.isChecked
  | .union branches, node, scope, h => by
    obtain ⟨xs, -, hbranches⟩ := h
    exact hbranches.isChecked
  | .unchecked node, _, _, h => h.elim

theorem FieldsReadFrom.isChecked : ∀ {fields : List Field} {xs : List Value} {scope : Scope},
    FieldsReadFrom fields xs scope →
    fieldsEverywhere isRead fields = true
  | [], _, _, _ => rfl
  | (f, s) :: rest, xs, scope, h => by
    obtain ⟨es, v, ys, -, -, -, -, hs, hrest⟩ := h
    exact Bool.and_eq_true_iff.mpr ⟨hs.isChecked, hrest.isChecked⟩

theorem BranchesReadFrom.isChecked : ∀ {branches : List Schema} {xs : List Value} {scope : Scope},
    BranchesReadFrom branches xs scope →
    branchesEverywhere isRead branches = true
  | [], _, _, _ => rfl
  | s :: rest, xs, scope, h => by
    obtain ⟨x, ys, -, hs, hrest⟩ := h
    exact Bool.and_eq_true_iff.mpr ⟨hs.isChecked, hrest.isChecked⟩

end

end Schema
end Avro
end StreamTable
