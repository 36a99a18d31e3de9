/-
Regular values: those without a tuple inside and without an object that has two defaults.  Every
value that is read from JSON text is regular, and so is every document.  No object that is read
from JSON text has two entries under one key.
-/
import Mathlib.Data.List.Nodup
import StreamTable.Avro.Descriptor
import StreamTable.Json.Printer
import StreamTable.Json.Reader
import StreamTable.Proofs.Action.Ends
import StreamTable.Proofs.Value.Entries

namespace StreamTable

namespace Value

/-- Whether a value holds no others that a schema describes. -/
def isAtom : Value → Bool
  | .list _ => false
  | .tuple _ => false
  | .map _ => false
  | _ => true

def isDefault (e : Value × Value) : Bool := e.1.isText "default"

inductive Regular : Value → Prop where
  | atom (v : Value) (h : v.isAtom = true) : Regular v
  | list (xs : List Value) (h : ∀ x ∈ xs, x.Regular) : Regular (.list xs)
  | map (es : List (Value × Value)) (hdefault : es.countP isDefault ≤ 1)
      (h : ∀ e ∈ es, e.2.Regular) : Regular (.map es)

/-- What makes the map of entries regular. -/
structure RegularEntries (es : List (Value × Value)) : Prop where
  defaultOnce : es.countP isDefault ≤ 1
  values : ∀ e ∈ es, e.2.Regular

variable {es es' : List (Value × Value)} {k v : Value}

theorem RegularEntries.map (h : RegularEntries es) : (Value.map es).Regular :=
  .map es h.defaultOnce h.values

theorem Regular.entries (h : (Value.map es).Regular) : RegularEntries es := by
  cases h with
  | atom _ h => cases h
  | map _ hdefault h => exact ⟨hdefault, h⟩

theorem Regular.items {xs : List Value} (h : (Value.list xs).Regular) : ∀ x ∈ xs, x.Regular := by
  cases h with
  | atom _ h => cases h
  | list _ h => exact h

theorem Regular.not_tuple {xs : List Value} : ¬(Value.tuple xs).Regular := by
  intro h
  cases h with
  | atom _ h => cases h

theorem Regular.str (s : String) : (Value.str s).Regular := .atom _ rfl

/-- Bytes are regular as a list of numbers. -/
theorem regular_numbers (b : List UInt8) : ∀ x ∈ b.map (fun n => Value.int n.toNat), x.Regular := by
  intro x hx
  obtain ⟨n, -, rfl⟩ := List.mem_map.mp hx
  exact .atom _ rfl

theorem RegularEntries.nil : RegularEntries [] := ⟨Nat.zero_le 1, nofun⟩

theorem RegularEntries.sublist (h : RegularEntries es) (hs : es'.Sublist es) : RegularEntries es' :=
  ⟨Nat.le_trans (hs.countP_le) h.defaultOnce, fun e he => h.values e (hs.subset he)⟩

theorem RegularEntries.field? (h : RegularEntries es) {key : String}
    (hv : Value.field? es key = some v) : v.Regular := by
  obtain ⟨e, he, rfl⟩ := Option.map_eq_some_iff.mp hv
  exact h.values e (List.mem_of_find?_eq_some he)

theorem RegularEntries.put (h : RegularEntries es) (hv : v.Regular) :
    RegularEntries (Value.put es k v) := by
  refine ⟨countP_put_le h.defaultOnce k v, fun e he => ?_⟩
  obtain he | ⟨e₀, he₀, he⟩ := mem_put he
  · rw [he]
    exact hv
  · rw [he]
    exact h.values e₀ he₀

theorem RegularEntries.putAll {added : List (Value × Value)} (h : RegularEntries es)
    (hadded : ∀ e ∈ added, e.2.Regular) : RegularEntries (Value.putAll es added) := by
  induction added generalizing es with
  | nil => exact h
  | cons e added ih =>
    exact ih (h.put (hadded e List.mem_cons_self)) fun e' he' =>
      hadded e' (List.mem_cons_of_mem e he')

/-! ## Objects that have each key once -/

/-- Values without a tuple inside, in which no object has two entries under one key. -/
inductive Keyed : Value → Prop where
  | atom (v : Value) (h : v.isAtom = true) : Keyed v
  | list (xs : List Value) (h : ∀ x ∈ xs, x.Keyed) : Keyed (.list xs)
  | map (es : List (Value × Value))
      (honce : ∀ key, es.countP (fun e => e.1.isText key) ≤ 1) (h : ∀ e ∈ es, e.2.Keyed) :
      Keyed (.map es)

/-- What makes the map of entries one that has each key once. -/
structure KeyedEntries (es : List (Value × Value)) : Prop where
  once : ∀ key, es.countP (fun e => e.1.isText key) ≤ 1
  values : ∀ e ∈ es, e.2.Keyed

theorem KeyedEntries.map (h : KeyedEntries es) : (Value.map es).Keyed := .map es h.once h.values

theorem Keyed.entries (h : (Value.map es).Keyed) : KeyedEntries es := by
  cases h with
  | atom _ h => cases h
  | map _ honce h => exact ⟨honce, h⟩

theorem Keyed.items {xs : List Value} (h : (Value.list xs).Keyed) : ∀ x ∈ xs, x.Keyed := by
  cases h with
  | atom _ h => cases h
  | list _ h => exact h

theorem KeyedEntries.field? (h : KeyedEntries es) {key : String}
    (hv : Value.field? es key = some v) : v.Keyed := by
  obtain ⟨e, he, rfl⟩ := Option.map_eq_some_iff.mp hv
  exact h.values e (List.mem_of_find?_eq_some he)

theorem KeyedEntries.nil : KeyedEntries [] := ⟨fun _ => Nat.zero_le 1, nofun⟩

theorem KeyedEntries.put (h : KeyedEntries es) (hv : v.Keyed) :
    KeyedEntries (Value.put es k v) := by
  refine ⟨fun key => countP_put_le (h.once key) k v, fun e he => ?_⟩
  obtain he | ⟨e₀, he₀, he⟩ := mem_put he
  · rw [he]
    exact hv
  · rw [he]
    exact h.values e₀ he₀

theorem keyed_ofFields {fields : List (String × Value)} (hnodup : (fields.map Prod.fst).Nodup)
    (h : ∀ f ∈ fields, f.2.Keyed) : (ofFields fields).Keyed := by
  refine .map _ (fun key => ?_) fun e he => ?_
  · have hcount : (fields.map fun f => (Value.str f.1, f.2)).countP (fun e => e.1.isText key) =
        (fields.map Prod.fst).count key := by
      rw [List.countP_map, List.count, List.countP_map]
      rfl
    rw [hcount]
    exact List.nodup_iff_count_le_one.mp hnodup key
  · obtain ⟨f, hf, rfl⟩ := List.mem_map.mp he
    exact h f hf

theorem Keyed.regular (h : v.Keyed) : v.Regular := by
  induction h with
  | atom v h => exact .atom v h
  | list xs _ ih => exact .list xs ih
  | map es honce _ ih => exact .map es (honce "default") ih

end Value

namespace Json

open Value

/-! ## Documents -/

mutual

theorem document?_regular : ∀ {v d : Value}, document? v = some d → d.Regular
  | .list xs, d, h => by
    obtain ⟨ds, hds, rfl⟩ := Option.map_eq_some_iff.mp h
    exact .list ds (documents?_regular hds)
  | .tuple xs, d, h => by
    obtain ⟨ds, hds, rfl⟩ := Option.map_eq_some_iff.mp h
    exact .list ds (documents?_regular hds)
  | .map es, d, h => by
    obtain ⟨fields, hfields, rfl⟩ := Option.map_eq_some_iff.mp h
    exact (RegularEntries.nil.putAll (documentEntries?_regular hfields)).map
  | .null, d, h => by cases h; exact .atom _ rfl
  | .bool _, d, h => by cases h; exact .atom _ rfl
  | .int _, d, h => by cases h; exact .atom _ rfl
  | .float _, d, h => by cases h; exact .atom _ rfl
  | .str _, d, h => by cases h; exact .atom _ rfl

theorem documents?_regular : ∀ {xs ds : List Value}, documents? xs = some ds →
    ∀ d ∈ ds, d.Regular
  | [], ds, h => by cases h; nofun
  | x :: xs, ds, h => by
    obtain ⟨d, hd, h⟩ := Option.bind_eq_some_iff.mp h
    obtain ⟨ds', hds, h⟩ := Option.bind_eq_some_iff.mp h
    cases h
    intro d' hd'
    obtain rfl | hd' := List.mem_cons.mp hd'
    · exact document?_regular hd
    · exact documents?_regular hds d' hd'

theorem documentEntries?_regular : ∀ {es fields : List (Value × Value)},
    documentEntries? es = some fields → ∀ e ∈ fields, e.2.Regular
  | [], fields, h => by cases h; nofun
  | (k, v) :: es, fields, h => by
    obtain ⟨key, hkey, h⟩ := Option.bind_eq_some_iff.mp h
    obtain ⟨d, hd, h⟩ := Option.bind_eq_some_iff.mp h
    obtain ⟨ds, hds, h⟩ := Option.bind_eq_some_iff.mp h
    cases h
    intro e he
    obtain rfl | he := List.mem_cons.mp he
    · exact document?_regular hd
    · exact documentEntries?_regular hds e he

end

/-! ## Texts -/

theorem readNumber_keyed {negative : Bool} {cs rest : List Char} {v : Value}
    (h : readNumber negative cs = .ok (v, rest)) : v.Keyed := by
  unfold readNumber at h
  dsimp only at h
  split at h
  · split at h
    · cases h
    · cases h
      exact .atom _ rfl
  · cases h
    exact .atom _ rfl

/-- What the reader reads in so many steps has each key once, if what was read before of the same
array or object has. -/
structure ReadsKeyed (fuel : Nat) : Prop where
  value : ∀ {cs v rest}, readValue fuel cs = .ok (v, rest) → v.Keyed
  items : ∀ {acc cs v rest}, (∀ x ∈ acc, x.Keyed) → readItems fuel acc cs = .ok (v, rest) → v.Keyed
  fields : ∀ {acc cs v rest}, KeyedEntries acc → readFields fuel acc cs = .ok (v, rest) → v.Keyed

theorem ReadsKeyed.value_succ {fuel : Nat} (ih : ReadsKeyed fuel) {cs rest : List Char} {v : Value}
    (h : readValue (fuel + 1) cs = .ok (v, rest)) : v.Keyed := by
  rw [readValue.eq_def] at h
  dsimp only at h
  split at h
  · obtain ⟨⟨text, rest'⟩, htext, h⟩ := Except.of_bind_ok h
    cases h
    exact .atom _ rfl
  · split at h
    · cases h
      exact KeyedEntries.nil.map
    · exact ih.fields KeyedEntries.nil h
  · split at h
    · cases h
      exact .list [] nofun
    · have hnil : ∀ x ∈ ([] : List Value), x.Keyed := nofun
      exact ih.items hnil h
  iterate 6
    · cases h
      exact .atom _ rfl
  iterate 2
    · split at h
      · exact readNumber_keyed h
      · cases h
  · cases h

theorem ReadsKeyed.items_succ {fuel : Nat} (ih : ReadsKeyed fuel) {acc : List Value}
    {cs rest : List Char} {v : Value} (hacc : ∀ x ∈ acc, x.Keyed)
    (h : readItems (fuel + 1) acc cs = .ok (v, rest)) : v.Keyed := by
  rw [readItems] at h
  obtain ⟨⟨x, rest'⟩, hx, h⟩ := Except.of_bind_ok h
  have hacc' : ∀ y ∈ x :: acc, y.Keyed := by
    intro y hy
    obtain rfl | hy := List.mem_cons.mp hy
    · exact ih.value hx
    · exact hacc y hy
  dsimp only at h
  split at h
  · cases h
    exact .list _ fun y hy => hacc' y (List.mem_reverse.mp hy)
  · exact ih.items hacc' h
  · cases h

theorem ReadsKeyed.fields_succ {fuel : Nat} (ih : ReadsKeyed fuel) {acc : List (Value × Value)}
    {cs rest : List Char} {v : Value} (hacc : KeyedEntries acc)
    (h : readFields (fuel + 1) acc cs = .ok (v, rest)) : v.Keyed := by
  rw [readFields.eq_def] at h
  dsimp only at h
  split at h
  · obtain ⟨⟨key, rest'⟩, hkey, h⟩ := Except.of_bind_ok h
    dsimp only at h
    split at h
    · obtain ⟨⟨x, rest''⟩, hx, h⟩ := Except.of_bind_ok h
      have hacc' : KeyedEntries (Value.put acc (.str (String.ofList key)) x) :=
        hacc.put (ih.value hx)
      dsimp only at h
      split at h
      · cases h
        exact hacc'.map
      · exact ih.fields hacc' h
      · cases h
    · cases h
  · cases h

theorem readsKeyed (fuel : Nat) : ReadsKeyed fuel := by
  induction fuel with
  | zero => exact ⟨nofun, nofun, nofun⟩
  | succ fuel ih => exact ⟨ih.value_succ, ih.items_succ, ih.fields_succ⟩

theorem read_keyed {text : String} {v : Value} (h : read text = .ok v) : v.Keyed := by
  unfold read at h
  dsimp only at h
  split at h
  · rename_i hall
    cases h
    unfold readAll at hall
    split at hall
    · cases hall
    · obtain ⟨⟨x, rest⟩, hx, hall⟩ := Except.of_bind_ok hall
      dsimp only at hall
      split at hall
      · cases hall
        exact (readsKeyed _).value hx
      · cases hall
  · cases h
  · cases h

end Json

/-- No object in the node of a descriptor has two entries under one key. -/
theorem Avro.Descriptor.load_keyed {descriptor : Option String} {node : Value}
    (h : Descriptor.load descriptor = .ok node) : node.Keyed := by
  unfold Descriptor.load at h
  split at h
  · cases h
  · dsimp only at h
    split at h
    · cases h
    · split at h
      · rename_i hread
        cases h
        exact Json.read_keyed hread
      · cases h
      · split at h
        · cases h
          exact .atom _ rfl
        · cases h

theorem Avro.Descriptor.load_regular {descriptor : Option String} {node : Value}
    (h : Descriptor.load descriptor = .ok node) : node.Regular :=
  (load_keyed h).regular

end StreamTable
