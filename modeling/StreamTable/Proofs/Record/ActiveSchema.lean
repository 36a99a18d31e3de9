/-
The active schema is what its descriptor says.  It does not matter which schemas were active before,
nor which records of plain values were asked for: all that was kept is what would be found anew.
-/
import StreamTable.Record.ActiveSchema

namespace StreamTable
namespace ActiveSchema

theorem observe_of_same {a : ActiveSchema} {d : Option String} (h : a.isChanged d = false) :
    a.observe d = (.ok false, a) := by
  rw [observe, h]
  rfl

theorem observe_of_activate {a a' : ActiveSchema} {d : Option String} (h : a.isChanged d = true)
    (ha : a.activate d = .ok a') : a.observe d = (.ok true, a') := by
  rw [observe, if_pos h, ha]

theorem observe_of_refused {a : ActiveSchema} {d : Option String} {f : Failure}
    (h : a.isChanged d = true) (ha : a.activate d = .error f) : a.observe d = (.error f, a) := by
  rw [observe, if_pos h, ha]

/-- A descriptor that is refused leaves the active schema as it is. -/
theorem observe_error {a a' : ActiveSchema} {d : Option String} {f : Failure}
    (h : a.observe d = (.error f, a')) : a' = a := by
  cases hc : a.isChanged d with
  | false =>
    rw [observe_of_same hc] at h
    cases h
  | true =>
    cases ha : a.activate d with
    | ok a₁ =>
      rw [observe_of_activate hc ha] at h
      cases h
    | error g =>
      rw [observe_of_refused hc ha] at h
      exact (congrArg Prod.snd h).symm

/-- Looking at a descriptor answers whether it is another one. -/
theorem observe_ok {a a' : ActiveSchema} {d : Option String} {changed : Bool}
    (h : a.observe d = (.ok changed, a')) : changed = a.isChanged d := by
  cases hc : a.isChanged d with
  | false =>
    rw [observe_of_same hc] at h
    cases h
    rfl
  | true =>
    cases ha : a.activate d with
    | ok a₁ =>
      rw [observe_of_activate hc ha] at h
      cases h
      rfl
    | error g =>
      rw [observe_of_refused hc ha] at h
      cases h

theorem parse_of_schemaOf {node : Value} {d : Option String} {s : Avro.Schema}
    (h : Avro.Descriptor.schemaOf node d = .ok s) : Avro.Schema.parse node = .ok s := by
  unfold Avro.Descriptor.schemaOf at h
  cases hparse : Avro.Schema.parse node with
  | ok s' =>
    rw [hparse] at h
    cases h
    rfl
  | error fault =>
    rw [hparse] at h
    dsimp only at h
    split at h <;> cases h

/-- Of what was active before, only the count of versions is left. -/
theorem activate_eq (a : ActiveSchema) (d : Option String) :
    a.activate d = (none.activate d).map fun a₀ => { a₀ with version := a.version + 1 } := by
  simp only [activate, Bind.bind, Except.bind]
  cases Avro.Descriptor.load d with
  | error f => rfl
  | ok node =>
    dsimp only
    cases Avro.Descriptor.schemaOf node d with
    | error f => rfl
    | ok schema =>
      dsimp only
      cases (Avro.NullFree.strip node).mapError Failure.data with
      | error f => rfl
      | ok stripped =>
        dsimp only
        cases Avro.Descriptor.schemaOf stripped d with
        | error f => rfl
        | ok projection => rfl

/-- What is taken up of the node that a descriptor says. -/
def takeUp (a : ActiveSchema) (node : Value) (d : Option String) :
    Except Failure ActiveSchema := do
  let schema ← Avro.Descriptor.schemaOf node d
  let stripped ← (Avro.NullFree.strip node).mapError Failure.data
  let projection ← Avro.Descriptor.schemaOf stripped d
  pure ⟨d, some schema, some projection, a.version + 1, node, []⟩

theorem activate_of_load {a : ActiveSchema} {node : Value} {d : Option String}
    (h : Avro.Descriptor.load d = .ok node) : a.activate d = a.takeUp node d := by
  rw [activate, h]
  rfl

/-- What is taken up is the schema of the descriptor, with no record of plain values yet. -/
theorem activate_ok {a a' : ActiveSchema} {d : Option String} (h : a.activate d = .ok a') :
    ∃ node schema projection, Avro.Descriptor.load d = .ok node ∧
      a' = ⟨d, some schema, some projection, a.version + 1, node, []⟩ := by
  simp only [activate, Bind.bind, Except.bind] at h
  cases hload : Avro.Descriptor.load d with
  | error f => rw [hload] at h; cases h
  | ok node =>
    rw [hload] at h
    dsimp only at h
    cases hschema : Avro.Descriptor.schemaOf node d with
    | error f => rw [hschema] at h; cases h
    | ok schema =>
      rw [hschema] at h
      dsimp only at h
      cases hstrip : (Avro.NullFree.strip node).mapError Failure.data with
      | error f => rw [hstrip] at h; cases h
      | ok stripped =>
        rw [hstrip] at h
        dsimp only at h
        cases hprojection : Avro.Descriptor.schemaOf stripped d with
        | error f => rw [hprojection] at h; cases h
        | ok projection =>
          rw [hprojection] at h
          exact ⟨node, schema, projection, rfl, (Except.ok.inj h).symm⟩

theorem observe_ok_descriptor {a a' : ActiveSchema} {d : Option String} {changed : Bool}
    (h : a.observe d = (.ok changed, a')) : a'.descriptor = d := by
  cases hc : a.isChanged d with
  | false =>
    rw [observe_of_same hc] at h
    cases h
    rw [isChanged, Bool.or_eq_false_iff] at hc
    simpa using hc.2
  | true =>
    cases ha : a.activate d with
    | ok a₁ =>
      rw [observe_of_activate hc ha] at h
      cases h
      obtain ⟨node, schema, projection, -, rfl⟩ := activate_ok ha
      rfl
    | error g =>
      rw [observe_of_refused hc ha] at h
      cases h

/-- A descriptor that is refused now would be refused at any time. -/
theorem activate_ne_ok_of_refused {a a' : ActiveSchema} {d : Option String} {f : Failure}
    (h : a.observe d = (.error f, a')) (a₀ : ActiveSchema) : none.activate d ≠ .ok a₀ := by
  intro ha₀
  cases hc : a.isChanged d with
  | false =>
    rw [observe_of_same hc] at h
    cases h
  | true =>
    have ha := activate_eq a d
    rw [ha₀] at ha
    rw [observe_of_activate hc ha] at h
    cases h

/-! ## Nothing but what the descriptor says -/

/-- The record of plain values that is found without looking at those kept. -/
def wrapping (a : ActiveSchema) (fieldName : String) : Except Failure Avro.Schema :=
  Avro.Descriptor.schemaOf (PlainValue.wrappingNode a.node fieldName) a.descriptor

/-- Whether the schema is none that plain values are stored with as it is. -/
def isBare (a : ActiveSchema) : Bool := !(a.schema.map Avro.Schema.isRecord).getD false

structure Genuine (a : ActiveSchema) : Prop where
  origin : a.isPresent = true →
    ∃ a₀, none.activate a.descriptor = .ok a₀ ∧ a.schema = a₀.schema ∧ a.node = a₀.node
  wrapped : ∀ e ∈ a.wrapped, a.wrapping e.1 = .ok e.2

theorem none_genuine : none.Genuine :=
  ⟨fun h => (by cases h), List.forall_mem_nil _⟩

/-- A change of the projection does not matter. -/
theorem Genuine.of_eq {a a' : ActiveSchema} (h : a.Genuine)
    (he : { a' with projection := .none } = { a with projection := .none }) : a'.Genuine := by
  obtain ⟨d, schema, projection, version, node, wrapped⟩ := a
  obtain ⟨d', schema', projection', version', node', wrapped'⟩ := a'
  cases he
  exact ⟨h.origin, h.wrapped⟩

theorem observe_genuine {a : ActiveSchema} (h : a.Genuine) (d : Option String) :
    (a.observe d).2.Genuine := by
  cases hc : a.isChanged d with
  | false =>
    rw [observe_of_same hc]
    exact h
  | true =>
    cases ha : a.activate d with
    | error f =>
      rw [observe_of_refused hc ha]
      exact h
    | ok a' =>
      rw [observe_of_activate hc ha]
      obtain ⟨node, schema, projection, -, rfl⟩ := activate_ok ha
      refine ⟨fun _ => ?_, List.forall_mem_nil _⟩
      rw [activate_eq] at ha
      cases h₀ : none.activate d with
      | error f => rw [h₀] at ha; cases ha
      | ok a₀ =>
        rw [h₀] at ha
        have hfields := Except.ok.inj ha
        refine ⟨a₀, rfl, ?_, ?_⟩
        · exact (congrArg ActiveSchema.schema hfields).symm
        · exact (congrArg ActiveSchema.node hfields).symm

theorem storage_of_not_bare {a : ActiveSchema} (fieldName : String) (h : a.isBare = false) :
    (∃ x, (a.storage fieldName).1 = .ok x) ∧ (a.storage fieldName).2 = a := by
  unfold isBare at h
  cases hs : a.schema with
  | none => rw [hs] at h; cases h
  | some s =>
    rw [hs] at h
    have hr : s.isRecord = true := by simpa using h
    simp [storage, hs, hr]

section Bare

variable {a : ActiveSchema} {fieldName : String}

theorem storage_of_isBare (hb : a.isBare = true) : a.storage fieldName = a.wrap fieldName := by
  unfold isBare at hb
  unfold storage
  cases hs : a.schema with
  | none => rfl
  | some s =>
    rw [hs] at hb
    have hr : s.isRecord = false := by simpa using hb
    simp only [hr, Bool.false_eq_true, if_false]

/-- A bare type is stored in the record that was kept for it. -/
theorem wrap_of_kept {e : String × Avro.Schema}
    (hf : a.wrapped.find? (·.1 == fieldName) = some e) :
    a.wrap fieldName = (.ok (e.2, ⟨a.version, some fieldName⟩), a) := by
  rw [wrap, hf]

/-- If none was kept it is stored in a record that is found now and kept. -/
theorem wrap_of_found {s : Avro.Schema} (hf : a.wrapped.find? (·.1 == fieldName) = .none)
    (hw : a.wrapping fieldName = .ok s) :
    a.wrap fieldName = (.ok (s, ⟨a.version, some fieldName⟩),
      { a with wrapped := (fieldName, s) :: a.wrapped }) := by
  rw [wrapping] at hw
  rw [wrap, hf, hw]

theorem wrap_of_failed {f : Failure} (hf : a.wrapped.find? (·.1 == fieldName) = .none)
    (hw : a.wrapping fieldName = .error f) : a.wrap fieldName = (.error f, a) := by
  rw [wrapping] at hw
  rw [wrap, hf, hw]

end Bare

/-- What is kept is what would be found, so it does not matter whether anything is. -/
theorem storage_of_bare {a : ActiveSchema} (h : a.Genuine) (fieldName : String)
    (hb : a.isBare = true) :
    (∀ s, a.wrapping fieldName = .ok s → (∃ x, (a.storage fieldName).1 = .ok x) ∧
      ((a.storage fieldName).2 = a ∨
        (a.storage fieldName).2 = { a with wrapped := (fieldName, s) :: a.wrapped })) ∧
    (∀ f, a.wrapping fieldName = .error f → a.storage fieldName = (.error f, a)) := by
  rw [storage_of_isBare hb]
  cases hf : a.wrapped.find? (·.1 == fieldName) with
  | none =>
    refine ⟨fun s hs => ?_, fun f hs => wrap_of_failed hf hs⟩
    rw [wrap_of_found hf hs]
    exact ⟨⟨_, rfl⟩, .inr rfl⟩
  | some e =>
    refine ⟨fun s _ => ?_, fun f hs => ?_⟩
    · rw [wrap_of_kept hf]
      exact ⟨⟨_, rfl⟩, .inl rfl⟩
    · have hname : e.1 = fieldName := by simpa using List.find?_some hf
      rw [← hname, h.wrapped e (List.mem_of_find?_eq_some hf)] at hs
      cases hs

theorem storage_genuine {a : ActiveSchema} (h : a.Genuine) (fieldName : String) :
    (a.storage fieldName).2.Genuine := by
  cases hb : a.isBare with
  | false =>
    rw [(storage_of_not_bare fieldName hb).2]
    exact h
  | true =>
    obtain ⟨hok, herror⟩ := storage_of_bare h fieldName hb
    cases hw : a.wrapping fieldName with
    | error f =>
      rw [herror f hw]
      exact h
    | ok s =>
      obtain hs | hs := (hok s hw).2
      · rw [hs]
        exact h
      · rw [hs]
        refine ⟨h.origin, fun e he => ?_⟩
        obtain rfl | he := List.mem_cons.mp he
        · exact hw
        · exact h.wrapped e he

/-- There is no record for plain values just when the schema is bare and cannot be wrapped. -/
theorem storage_error_iff {a : ActiveSchema} (h : a.Genuine) (fieldName : String) :
    (∃ f, (a.storage fieldName).1 = .error f) ↔
      a.isBare = true ∧ ∃ f, a.wrapping fieldName = .error f := by
  cases hb : a.isBare with
  | false =>
    obtain ⟨x, hx⟩ := (storage_of_not_bare fieldName hb).1
    simp [hx]
  | true =>
    obtain ⟨hok, herror⟩ := storage_of_bare h fieldName hb
    cases hw : a.wrapping fieldName with
    | error f => simp [herror f hw]
    | ok s =>
      obtain ⟨x, hx⟩ := (hok s hw).1
      simp [hx]

end ActiveSchema
end StreamTable
