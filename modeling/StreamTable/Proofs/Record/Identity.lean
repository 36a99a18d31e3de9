/-
Schemas as objects.  Every schema that is parsed is an object of its own, and a writer is bound to
an object: a loop that is handed another one with the same content asks its writer to change.
`Inventory` gives each object a number when it is made, and the main theorem says that bindings tell
objects apart exactly as these numbers do, beside what the answers are.
-/
import Mathlib.Data.List.Nodup
import StreamTable.Proofs.Record.Recomputed

namespace StreamTable

open ActiveSchema (Question)

/-- The active schema with its objects numbered: how many schemas were made so far, the number of
the active one, and those of the records that are kept, in the order in which these are kept. -/
structure Inventory where
  active : ActiveSchema
  made : Nat
  own : Nat
  kept : List Nat

namespace Inventory

def start : Inventory := ⟨.none, 0, 0, []⟩

/-- The number of the record that is kept for a name. -/
def keptFor? (i : Inventory) (fieldName : String) : Option Nat :=
  ((i.active.wrapped.zip i.kept).find? fun e => e.1.1 == fieldName).map Prod.snd

/-- A descriptor that is accepted makes two schemas, the active one and its projection. -/
def observe (i : Inventory) (d : Option String) : Inventory :=
  match i.active.observe d with
  | (.ok true, a) => ⟨a, i.made + 2, i.made + 1, []⟩
  | (_, a) => { i with active := a }

/-- Ask for the record of a name; the answer has its number as well.  Only a record that is not yet
kept is made. -/
def storage (i : Inventory) (fieldName : String) :
    Except Failure (Avro.Schema × Binding × Nat) × Inventory :=
  match i.active.storage fieldName with
  | (.error f, a) => (.error f, { i with active := a })
  | (.ok (s, b), a) =>
    if i.active.isBare then
      match i.keptFor? fieldName with
      | some n => (.ok (s, b, n), { i with active := a })
      | none => (.ok (s, b, i.made + 1), ⟨a, i.made + 1, i.own, (i.made + 1) :: i.kept⟩)
    else (.ok (s, b, i.own), { i with active := a })

def asked (i : Inventory) : Question → Inventory
  | .observe d => i.observe d
  | .storage fieldName => (i.storage fieldName).2

def after (i : Inventory) (qs : List Question) : Inventory := qs.foldl asked i

/-! ## Numbers do not matter to the schemas -/

variable {i : Inventory} {fieldName : String}

theorem observe_active (i : Inventory) (d : Option String) :
    (i.observe d).active = (i.active.observe d).2 := by
  unfold observe
  rcases i.active.observe d with ⟨_ | _ | _, a⟩ <;> rfl

theorem storage_active (i : Inventory) (fieldName : String) :
    (i.storage fieldName).2.active = (i.active.storage fieldName).2 := by
  unfold storage
  rcases i.active.storage fieldName with ⟨f | ⟨s, b⟩, a⟩
  · rfl
  · dsimp only
    split
    · split <;> rfl
    · rfl

theorem asked_active (i : Inventory) (q : Question) : (i.asked q).active = i.active.asked q := by
  cases q with
  | observe d => exact observe_active i d
  | storage fieldName => exact storage_active i fieldName

theorem after_active (i : Inventory) (qs : List Question) :
    (i.after qs).active = i.active.after qs := by
  induction qs generalizing i with
  | nil => rfl
  | cons q qs ih =>
    rw [ActiveSchema.after, List.foldl_cons, ← asked_active]
    exact ih (i.asked q)

/-! ## Numbers are given once -/

/-- Each record that is kept has a number of its own, above that of the active schema. -/
structure Ordered (i : Inventory) : Prop where
  length : i.kept.length = i.active.wrapped.length
  nodup : i.kept.Nodup
  bounds : ∀ n ∈ i.kept, i.own < n ∧ n ≤ i.made
  own : i.own ≤ i.made

theorem start_ordered : start.Ordered := ⟨rfl, .nil, List.forall_mem_nil _, Nat.le_refl 0⟩

theorem keptFor?_mem {n : Nat} (h : i.keptFor? fieldName = some n) : n ∈ i.kept := by
  obtain ⟨e, he, rfl⟩ := Option.map_eq_some_iff.mp h
  exact (List.of_mem_zip (List.mem_of_find?_eq_some he)).2

/-- A number is kept for one name. -/
theorem Ordered.keptFor?_inj (h : i.Ordered) {fieldName' : String} {n : Nat}
    (hn : i.keptFor? fieldName = some n) (hn' : i.keptFor? fieldName' = some n) :
    fieldName = fieldName' := by
  obtain ⟨e, he, rfl⟩ := Option.map_eq_some_iff.mp hn
  obtain ⟨e', he', heq⟩ := Option.map_eq_some_iff.mp hn'
  have hnodup : ((i.active.wrapped.zip i.kept).map Prod.snd).Nodup := by
    rw [List.map_snd_zip (Nat.le_of_eq h.length)]
    exact h.nodup
  have hsame : e' = e := List.inj_on_of_nodup_map hnodup (List.mem_of_find?_eq_some he')
    (List.mem_of_find?_eq_some he) heq
  have hname : e.1.1 = fieldName := by simpa using List.find?_some he
  have hname' : e'.1.1 = fieldName' := by simpa using List.find?_some he'
  rw [← hname, ← hname', hsame]

/-- There is a number for a name just if a record is kept for it. -/
theorem Ordered.keptFor?_eq_none (h : i.Ordered) :
    i.keptFor? fieldName = none ↔ i.active.wrapped.find? (·.1 == fieldName) = none := by
  have hmap : i.active.wrapped = (i.active.wrapped.zip i.kept).map Prod.fst :=
    (List.map_fst_zip (Nat.le_of_eq h.length.symm)).symm
  rw [hmap, List.find?_map, Option.map_eq_none_iff, keptFor?, Option.map_eq_none_iff]
  exact Iff.rfl

/-- The object of a number is the one that a binding is about. -/
structure Names (i : Inventory) (n : Nat) (b : Binding) : Prop where
  version : b.version = i.active.version
  number : match b.wrappedIn with
    | none => n = i.own
    | some fieldName => i.keptFor? fieldName = some n

theorem Names.le_made {n : Nat} {b : Binding} (h : i.Names n b) (ho : i.Ordered) :
    i.own ≤ n ∧ n ≤ i.made := by
  obtain ⟨-, hnumber⟩ := h
  cases hb : b.wrappedIn with
  | none =>
    rw [hb] at hnumber
    rw [hnumber]
    exact ⟨Nat.le_refl _, ho.own⟩
  | some fieldName =>
    rw [hb] at hnumber
    obtain ⟨hown, hmade⟩ := ho.bounds n (keptFor?_mem hnumber)
    exact ⟨Nat.le_of_lt hown, hmade⟩

/-- Objects in use have the same number just if they have the same binding. -/
theorem Names.eq_iff {n n' : Nat} {b b' : Binding} (h : i.Names n b) (h' : i.Names n' b')
    (ho : i.Ordered) : n = n' ↔ b = b' := by
  obtain ⟨version, wrappedIn⟩ := b
  obtain ⟨version', wrappedIn'⟩ := b'
  obtain ⟨rfl, hn⟩ := h
  obtain ⟨rfl, hn'⟩ := h'
  have habove {n : Nat} {fieldName : String} (h : i.keptFor? fieldName = some n) : i.own < n :=
    (ho.bounds n (keptFor?_mem h)).1
  cases wrappedIn with
  | none =>
    cases wrappedIn' with
    | none => exact ⟨fun _ => rfl, fun _ => hn.trans hn'.symm⟩
    | some fieldName' =>
      refine ⟨fun h => ?_, fun h => by cases h⟩
      exact absurd (habove hn') (by rw [← h, hn]; exact Nat.lt_irrefl _)
  | some fieldName =>
    cases wrappedIn' with
    | none =>
      refine ⟨fun h => ?_, fun h => by cases h⟩
      exact absurd (habove hn) (by rw [h, hn']; exact Nat.lt_irrefl _)
    | some fieldName' =>
      dsimp only at hn hn'
      constructor
      · rintro rfl
        rw [ho.keptFor?_inj hn hn']
      · intro h
        cases h
        exact Option.some.inj (hn.symm.trans hn')

/-! ## What is held and what is made -/

/-- A record is made for a name and kept. -/
def keep (i : Inventory) (fieldName : String) (s : Avro.Schema) : Inventory :=
  ⟨{ i.active with wrapped := (fieldName, s) :: i.active.wrapped }, i.made + 1, i.own,
    (i.made + 1) :: i.kept⟩

theorem keptFor?_keep (i : Inventory) (fieldName : String) (s : Avro.Schema) (name : String) :
    (i.keep fieldName s).keptFor? name =
      if fieldName = name then some (i.made + 1) else i.keptFor? name := by
  rw [keptFor?, keep, List.zip_cons_cons, List.find?_cons]
  by_cases h : fieldName = name
  · simp [h]
  · simp [beq_false_of_ne h, h, keptFor?]

theorem Ordered.keep (h : i.Ordered) (fieldName : String) (s : Avro.Schema) :
    (i.keep fieldName s).Ordered where
  length := congrArg Nat.succ h.length
  nodup := List.nodup_cons.mpr
    ⟨fun hmem => Nat.not_succ_le_self _ (h.bounds _ hmem).2, h.nodup⟩
  bounds := by
    refine List.forall_mem_cons.mpr
      ⟨⟨Nat.lt_succ_of_le h.own, Nat.le_refl _⟩, fun n hn => ?_⟩
    obtain ⟨hown, hmade⟩ := h.bounds n hn
    exact ⟨hown, Nat.le_succ_of_le hmade⟩
  own := Nat.le_succ_of_le h.own

/-- The object that a question for a record of a name is answered with, and no schema is made: the
active schema if it is a record, or else the record that is kept. -/
inductive Holds (i : Inventory) (fieldName : String) : Avro.Schema × Binding × Nat → Prop
  | own (s : Avro.Schema) (hs : i.active.schema = some s) (hr : s.isRecord = true) :
    Holds i fieldName (s, i.active.binding, i.own)
  | kept (e : String × Avro.Schema) (n : Nat) (hb : i.active.isBare = true)
      (he : i.active.wrapped.find? (·.1 == fieldName) = some e)
      (hn : i.keptFor? fieldName = some n) :
    Holds i fieldName (e.2, ⟨i.active.version, some fieldName⟩, n)

variable {x : Avro.Schema × Binding × Nat}

theorem Holds.storage (h : i.Holds fieldName x) : i.storage fieldName = (.ok x, i) := by
  unfold Inventory.storage
  cases h with
  | own s hs hr =>
    have hb : i.active.isBare = false := by
      rw [ActiveSchema.isBare, hs, Option.map_some, hr]
      rfl
    rw [ActiveSchema.storage_of_record hs hr]
    dsimp only
    rw [hb]
    rfl
  | kept e n hb he hn =>
    rw [ActiveSchema.storage_of_isBare hb, ActiveSchema.wrap_of_kept he]
    dsimp only
    rw [hb, hn]
    rfl

theorem Holds.names (h : i.Holds fieldName x) : i.Names x.2.2 x.2.1 := by
  cases h with
  | own s hs hr => exact ⟨rfl, rfl⟩
  | kept e n hb he hn => exact ⟨rfl, hn⟩

/-- What a question for a record comes to: it fails and nothing changes, or the object is held, or
it is made and kept. -/
theorem storage_cases (ho : i.Ordered) (fieldName : String) :
    (∃ f, i.storage fieldName = (.error f, i)) ∨ (∃ x, i.Holds fieldName x) ∨
      ∃ s, i.active.isBare = true ∧ i.keptFor? fieldName = none ∧ i.storage fieldName =
        (.ok (s, ⟨i.active.version, some fieldName⟩, i.made + 1), i.keep fieldName s) := by
  cases hb : i.active.isBare with
  | false =>
    obtain ⟨s, hs, hr⟩ : ∃ s, i.active.schema = some s ∧ s.isRecord = true := by
      simpa [ActiveSchema.isBare, Option.getD_eq_iff] using hb
    exact .inr (.inl ⟨_, .own s hs hr⟩)
  | true =>
    cases hf : i.active.wrapped.find? (·.1 == fieldName) with
    | some e =>
      cases hn : i.keptFor? fieldName with
      | none =>
        rw [ho.keptFor?_eq_none.mp hn] at hf
        cases hf
      | some n => exact .inr (.inl ⟨_, .kept e n hb hf hn⟩)
    | none =>
      have hn : i.keptFor? fieldName = none := ho.keptFor?_eq_none.mpr hf
      cases hw : i.active.wrapping fieldName with
      | error f =>
        refine .inl ⟨f, ?_⟩
        rw [storage, ActiveSchema.storage_of_isBare hb, ActiveSchema.wrap_of_failed hf hw]
      | ok s =>
        refine .inr (.inr ⟨s, rfl, hn, ?_⟩)
        rw [storage, ActiveSchema.storage_of_isBare hb, ActiveSchema.wrap_of_found hf hw]
        dsimp only
        rw [hb, hn]
        rfl

/-- What is made is held from then on. -/
theorem keep_holds (hb : i.active.isBare = true) (fieldName : String) (s : Avro.Schema) :
    (i.keep fieldName s).Holds fieldName
      (s, ⟨i.active.version, some fieldName⟩, i.made + 1) := by
  refine .kept (i := i.keep fieldName s) (fieldName, s) _ hb ?_ ?_
  · rw [keep, List.find?_cons, beq_self_eq_true]
  · rw [keptFor?_keep, if_pos rfl]

theorem Holds.keep (h : i.Holds fieldName x) {name : String} (hne : i.keptFor? name = none)
    (hb : i.active.isBare = true) (s : Avro.Schema) : (i.keep name s).Holds fieldName x := by
  cases h with
  | own s' hs hr => exact .own (i := i.keep name s) s' hs hr
  | kept e n _ he hn =>
    have hname : name ≠ fieldName := by
      rintro rfl
      rw [hne] at hn
      cases hn
    refine .kept (i := i.keep name s) e n hb ?_ ?_
    · rw [Inventory.keep, List.find?_cons, beq_false_of_ne hname]
      exact he
    · rw [keptFor?_keep, if_neg hname]
      exact hn

/-! ## Runs -/

theorem observe_of_unchanged {d : Option String} (h : i.active.change? (.observe d) = none) :
    i.observe d = i := by
  have hactive := ActiveSchema.observe_of_unchanged h
  unfold observe
  split
  · next a heq =>
    rw [ActiveSchema.change?, heq] at h
    cases h
  · next r a _ heq =>
    have ha : a = i.active := by rw [← hactive, heq]
    rw [ha]

theorem observe_of_changed {d d' : Option String}
    (h : i.active.change? (.observe d) = some d') :
    i.observe d = ⟨(i.active.observe d).2, i.made + 2, i.made + 1, []⟩ ∧
      (i.observe d).active.version = i.active.version + 1 ∧ (i.observe d).active.wrapped = [] := by
  obtain ⟨rfl, ha⟩ := ActiveSchema.activate_of_change h
  obtain ⟨node, schema, projection, -, heq⟩ := ActiveSchema.activate_ok ha
  rw [observe_active, heq]
  refine ⟨?_, rfl, rfl⟩
  have hobserve : i.active.observe d' = (.ok true, (i.active.observe d').2) :=
    Prod.ext (ActiveSchema.observe_of_change h) rfl
  rw [← heq, observe, hobserve]

theorem asked_ordered (h : i.Ordered) (q : Question) : (i.asked q).Ordered := by
  cases q with
  | observe d =>
    cases hc : i.active.change? (.observe d) with
    | none =>
      rw [asked, observe_of_unchanged hc]
      exact h
    | some d' =>
      obtain ⟨heq, -, hwrapped⟩ := observe_of_changed hc
      rw [heq] at hwrapped
      rw [asked, heq]
      exact ⟨congrArg List.length hwrapped.symm, .nil, List.forall_mem_nil _, Nat.le_succ _⟩
  | storage fieldName =>
    obtain ⟨f, hs⟩ | ⟨x, hx⟩ | ⟨s, -, -, hs⟩ := storage_cases h fieldName
    · rw [asked, hs]
      exact h
    · rw [asked, hx.storage]
      exact h
    · rw [asked, hs]
      exact h.keep fieldName s

theorem after_ordered (h : i.Ordered) (qs : List Question) : (i.after qs).Ordered := by
  induction qs generalizing i with
  | nil => exact h
  | cons q qs ih => exact ih (asked_ordered h q)

/-- An object that was handed out is in use, or another schema became active since. -/
def Knows (i : Inventory) (n : Nat) (b : Binding) : Prop :=
  i.Names n b ∨ b.version < i.active.version ∧ n < i.own

theorem Names.keep {n : Nat} {b : Binding} (h : i.Names n b) {name : String}
    (hne : i.keptFor? name = none) (s : Avro.Schema) : (i.keep name s).Names n b := by
  obtain ⟨version, wrappedIn⟩ := b
  obtain ⟨rfl, hn⟩ := h
  refine ⟨rfl, ?_⟩
  cases wrappedIn with
  | none => exact hn
  | some fieldName =>
    have hname : name ≠ fieldName := by
      rintro rfl
      cases hne.symm.trans hn
    change (i.keep name s).keptFor? fieldName = some n
    rw [keptFor?_keep, if_neg hname]
    exact hn

theorem Knows.asked {n : Nat} {b : Binding} (h : i.Knows n b) (ho : i.Ordered) (q : Question) :
    (i.asked q).Knows n b := by
  cases q with
  | observe d =>
    cases hc : i.active.change? (.observe d) with
    | none =>
      rw [Inventory.asked, observe_of_unchanged hc]
      exact h
    | some d' =>
      obtain ⟨heq, hversion, -⟩ := observe_of_changed hc
      have hown : (i.observe d).own = i.made + 1 := congrArg Inventory.own heq
      refine .inr ?_
      rw [Inventory.asked, hversion, hown]
      obtain hnames | ⟨hlt, hn⟩ := h
      · exact ⟨Nat.lt_succ_of_le (Nat.le_of_eq hnames.version),
          Nat.lt_succ_of_le (hnames.le_made ho).2⟩
      · exact ⟨Nat.lt_succ_of_lt hlt, Nat.lt_succ_of_lt (Nat.lt_of_lt_of_le hn ho.own)⟩
  | storage fieldName =>
    obtain ⟨f, hs⟩ | ⟨x, hx⟩ | ⟨s, -, hne, hs⟩ := storage_cases ho fieldName
    · rw [Inventory.asked, hs]
      exact h
    · rw [Inventory.asked, hx.storage]
      exact h
    · rw [Inventory.asked, hs]
      obtain hnames | hpast := h
      · exact .inl (hnames.keep hne s)
      · exact .inr hpast

theorem Knows.after {n : Nat} {b : Binding} (h : i.Knows n b) (ho : i.Ordered)
    (qs : List Question) : (i.after qs).Knows n b := by
  induction qs generalizing i with
  | nil => exact h
  | cons q qs ih => exact ih (h.asked ho q) (asked_ordered ho q)

/-- What is held is held until another schema becomes active. -/
theorem Holds.asked (h : i.Holds fieldName x) (ho : i.Ordered) {q : Question}
    (hq : i.active.change? q = none) : (i.asked q).Holds fieldName x := by
  cases q with
  | observe d =>
    rw [Inventory.asked, observe_of_unchanged hq]
    exact h
  | storage name =>
    obtain ⟨f, hs⟩ | ⟨y, hy⟩ | ⟨s, hb, hne, hs⟩ := storage_cases ho name
    · rw [Inventory.asked, hs]
      exact h
    · rw [Inventory.asked, hy.storage]
      exact h
    · rw [Inventory.asked, hs]
      exact h.keep hne hb s

theorem Holds.after (h : i.Holds fieldName x) (ho : i.Ordered) {qs : List Question}
    (hqs : i.active.changes qs = []) : (i.after qs).Holds fieldName x := by
  induction qs generalizing i with
  | nil => exact h
  | cons q qs ih =>
    rw [ActiveSchema.changes, List.append_eq_nil_iff, Option.toList_eq_nil_iff,
      ← asked_active] at hqs
    exact ih (h.asked ho hqs.1) (asked_ordered ho q) hqs.2

/-- An object that is handed out is held after that. -/
theorem holds_of_storage (ho : i.Ordered) (h : (i.storage fieldName).1 = .ok x) :
    (i.storage fieldName).2.Holds fieldName x := by
  obtain ⟨f, hs⟩ | ⟨y, hy⟩ | ⟨s, hb, -, hs⟩ := storage_cases ho fieldName
  · rw [hs] at h
    cases h
  · rw [hy.storage] at h ⊢
    cases h
    exact hy
  · rw [hs] at h ⊢
    cases h
    exact keep_holds hb fieldName s

/-- The answers with numbers are those of the active schema. -/
theorem storage_answer (i : Inventory) (fieldName : String) :
    (i.storage fieldName).1.map (fun x => (x.1, x.2.1)) = (i.active.storage fieldName).1 := by
  unfold storage
  rcases i.active.storage fieldName with ⟨f | ⟨s, b⟩, a⟩
  · rfl
  · dsimp only
    split
    · split <;> rfl
    · rfl

end Inventory

namespace ActiveSchema

/-- After any questions, whatever became of them, each record for plain values, or the failure to
find one, is that of a tracker that has seen the last accepted descriptor alone.  The version counts
the accepted descriptors, and the schema and the projection are what the text of the descriptor
says.  Asking for a record again gives the same object unless another descriptor was accepted in
between, and of any two objects that were given, the bindings are equal just if they are the same
object. -/
theorem storage_as_recomputed (qs : List Question) :
    let a := none.after qs
    let ds := none.changes qs
    let i := Inventory.start.after qs
    (∀ fieldName, (a.storage fieldName).1.map Prod.fst =
        ((fresh ds).storage fieldName).1.map Prod.fst) ∧
      (∀ d ∈ ds.getLast?, (none.observe d).1 = .ok true) ∧
      a.version = ds.length ∧ a.descriptor = ds.getLast?.join ∧ a.Derived ∧
      (∀ fieldName, (i.storage fieldName).1.map (fun x => (x.1, x.2.1)) =
        (a.storage fieldName).1) ∧
      ∀ fieldName x, (i.storage fieldName).1 = .ok x → ∀ more,
        let later := i.after (.storage fieldName :: more)
        (a.changes (.storage fieldName :: more) = [] → (later.storage fieldName).1 = .ok x) ∧
        ∀ name y, (later.storage name).1 = .ok y → (y.2.2 = x.2.2 ↔ y.2.1 = x.2.1) := by
  intro a ds i
  have hrecomputed : a.Recomputed ds := after_recomputed none_recomputed qs
  have hactive : i.active = a := Inventory.after_active .start qs
  have hordered : i.Ordered := Inventory.after_ordered Inventory.start_ordered qs
  refine ⟨hrecomputed.storage, hrecomputed.accepted, hrecomputed.version, hrecomputed.last,
    hrecomputed.derived, fun fieldName => ?_, fun fieldName x hx more => ?_⟩
  · rw [← hactive]
    exact i.storage_answer fieldName
  · have hordered' := Inventory.asked_ordered hordered (.storage fieldName)
    have hholds : (i.asked (.storage fieldName)).Holds fieldName x :=
      Inventory.holds_of_storage hordered hx
    refine ⟨fun hmore => ?_, fun name y hy => ?_⟩
    · rw [changes, List.append_eq_nil_iff, ← hactive, ← Inventory.asked_active] at hmore
      have hlater := hholds.after hordered' hmore.2
      exact congrArg Prod.fst hlater.storage
    · have hlater := Inventory.after_ordered hordered' more
      have hnamed := (Inventory.holds_of_storage hlater hy).names
      have hlater' := Inventory.asked_ordered hlater (.storage name)
      have hknown := (Inventory.Knows.after (.inl hholds.names) hordered' more).asked hlater
        (.storage name)
      obtain hnames | ⟨hversion, hnumber⟩ := hknown
      · exact hnamed.eq_iff hnames hlater'
      · -- another schema became active in between, so both differ
        have hown := (hnamed.le_made hlater').1
        refine ⟨fun h => ?_, fun h => ?_⟩
        · exact absurd (h ▸ hnumber) (Nat.not_lt.mpr hown)
        · rw [← h, hnamed.version] at hversion
          exact absurd hversion (Nat.lt_irrefl _)

/-- Texts are stored in the same record as before after a descriptor that is refused and one that is
the same, and in another one after numbers were stored. -/
theorem texts_stored_as_before :
    let i := Inventory.start.after [.observe (some "string")]
    ∃ x, (i.storage "message").1 = .ok x ∧
      ((i.after [.storage "message", .observe (some "[7]"), .observe (some "string")]).storage
        "message").1 = .ok x ∧
      ∃ y, ((i.after [.storage "message", .observe (some "long"), .observe (some "string")]).storage
        "message").1 = .ok y ∧ y.2.2 ≠ x.2.2 := by
  intro i
  have hfirst : Except.passes (fun x => decide (x.2.1.version = 1)) (i.storage "message").1 =
      true := by decide +kernel
  have hlast : Except.passes (fun x => decide (x.2.1.version = 3))
      ((i.after [.storage "message", .observe (some "long"), .observe (some "string")]).storage
        "message").1 = true := by decide +kernel
  obtain ⟨x, hx, hversion⟩ := Except.of_passes hfirst
  obtain ⟨y, hy, hversion'⟩ := Except.of_passes hlast
  obtain ⟨-, -, -, -, -, -, hobjects⟩ := storage_as_recomputed [.observe (some "string")]
  refine ⟨x, hx, (hobjects "message" x hx _).1 (by decide +kernel), y, hy, fun h => ?_⟩
  rw [((hobjects "message" x hx _).2 "message" y hy).mp h, of_decide_eq_true hversion] at hversion'
  cases hversion'

end ActiveSchema
end StreamTable
