/-
What can be written as JSON.  A value that has a JSON form is written the same whatever stands for
values without one, and a document has no fault that could stand in the way.
-/
import StreamTable.Proofs.Json.RoundTrip

namespace StreamTable
namespace Json

/-! ## Values with a JSON form -/

section Fallback

variable {l : Layout}

mutual

/-- The fallback plays no part in the text of a value that has one without it. -/
theorem printAt?_fallback (fallback : Fallback) (depth : Nat) :
    ∀ (v : Value) {text : String}, printAt? l .none depth v = some text →
      printAt? l fallback depth v = some text
  | .null, _, h | .bool true, _, h | .bool false, _, h | .int _, _, h | .float _, _, h
  | .str _, _, h => h
  | .list xs, _, h => by
    obtain ⟨parts, hparts, rfl⟩ := Option.map_eq_some_iff.mp h
    rw [printAt?, printItems?_fallback fallback (depth + 1) xs hparts]
    rfl
  | .tuple xs, _, h => by
    obtain ⟨parts, hparts, rfl⟩ := Option.map_eq_some_iff.mp h
    rw [printAt?, printItems?_fallback fallback (depth + 1) xs hparts]
    rfl
  | .map es, _, h => by
    obtain ⟨parts, hparts, rfl⟩ := Option.map_eq_some_iff.mp h
    rw [printAt?, printEntries?_fallback fallback (depth + 1) es hparts]
    rfl

theorem printItems?_fallback (fallback : Fallback) (depth : Nat) :
    ∀ (xs : List Value) {texts : List String}, printItems? l .none depth xs = some texts →
      printItems? l fallback depth xs = some texts
  | [], _, h => h
  | x :: xs, _, h => by
    obtain ⟨t, ht, h⟩ := Option.bind_eq_some_iff.mp h
    obtain ⟨ts, hts, h⟩ := Option.bind_eq_some_iff.mp h
    rw [printItems?, printAt?_fallback fallback depth x ht,
      printItems?_fallback fallback depth xs hts]
    exact h

theorem printEntries?_fallback (fallback : Fallback) (depth : Nat) :
    ∀ (es : List (Value × Value)) {texts : List String},
      printEntries? l .none depth es = some texts → printEntries? l fallback depth es = some texts
  | [], _, h => h
  | (k, v) :: es, _, h => by
    obtain ⟨key, hkey, h⟩ := Option.bind_eq_some_iff.mp h
    obtain ⟨t, ht, h⟩ := Option.bind_eq_some_iff.mp h
    obtain ⟨ts, hts, h⟩ := Option.bind_eq_some_iff.mp h
    rw [printEntries?, hkey, printAt?_fallback fallback depth v ht,
      printEntries?_fallback fallback depth es hts]
    exact h

end

end Fallback

/-! ## Values without a fault -/

theorem itemsFault?_eq_none {xs : List Value} :
    itemsFault? xs = none ↔ ∀ x ∈ xs, fault? x = none := by
  induction xs with
  | nil => simp [itemsFault?]
  | cons x xs ih => simp [itemsFault?, ih]

theorem entriesFault?_eq_none {es : List (Value × Value)} :
    entriesFault? es = none ↔ ∀ e ∈ es, keyFault? e.1 = none ∧ fault? e.2 = none := by
  induction es with
  | nil => simp [entriesFault?]
  | cons e es ih => simp [entriesFault?, ih]

theorem fault?_ofFields {fields : List (String × Value)} :
    fault? (Value.ofFields fields) = none ↔ ∀ f ∈ fields, fault? f.2 = none := by
  have hkey (key : String) : keyFault? (.str key) = none := rfl
  rw [Value.ofFields, fault?, entriesFault?_eq_none, List.forall_mem_map]
  simp only [hkey, true_and]

theorem Faithful.fault? {v : Value} (h : Faithful v) : fault? v = none := by
  induction h with
  | null | bool | str => rfl
  | int n hn =>
    have hshort : isTooLong n = false := decide_eq_false (Nat.not_le.mpr hn)
    rw [Json.fault?, hshort]
    rfl
  | list xs _ ih => exact itemsFault?_eq_none.mpr ih
  | fields fields _ _ ih => exact fault?_ofFields.mpr ih

end Json
end StreamTable
