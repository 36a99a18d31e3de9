/-
The active schema against plain recomputation.  Whatever descriptors were looked at and whatever
records of plain values were asked for, failures included, the active schema is the one of a tracker
that has seen the last accepted descriptor alone; only the count of versions and the records that
are kept tell of what came before.  `Recomputed` says so, and one step of each kind keeps it.
-/
import StreamTable.Proofs.Action.Ends
import StreamTable.Proofs.Record.ActiveSchema

namespace StreamTable
namespace ActiveSchema

/-- What the active schema is asked. -/
inductive Question where
  /-- To look at a descriptor. -/
  | observe (descriptor : Option String)
  /-- For the record that holds plain values in the field of a name. -/
  | storage (fieldName : String)

/-- The active schema after a question. -/
def asked (a : ActiveSchema) : Question → ActiveSchema
  | .observe d => (a.observe d).2
  | .storage fieldName => (a.storage fieldName).2

def after (a : ActiveSchema) (qs : List Question) : ActiveSchema := qs.foldl asked a

/-- The descriptor that a question makes the active one, if it does. -/
def change? (a : ActiveSchema) : Question → Option (Option String)
  | .observe d =>
    match (a.observe d).1 with
    | .ok true => some d
    | _ => .none
  | .storage _ => .none

/-- The descriptors that were accepted in place of another one, oldest first. -/
def changes (a : ActiveSchema) : List Question → List (Option String)
  | [] => []
  | q :: qs => (a.change? q).toList ++ changes (a.asked q) qs

/-- A tracker that has seen the last of some descriptors and nothing else. -/
def fresh (ds : List (Option String)) : ActiveSchema :=
  match ds.getLast? with
  | some d => (none.observe d).2
  | .none => none

/-- All but the count of versions and the records that are kept is as in a fresh tracker, which
accepts the same descriptor, and each record that is kept is the one that would be found. -/
structure Recomputed (a : ActiveSchema) (ds : List (Option String)) : Prop where
  accepted : ∀ d ∈ ds.getLast?, (none.observe d).1 = .ok true
  last : a.descriptor = ds.getLast?.join
  descriptor : a.descriptor = (fresh ds).descriptor
  schema : a.schema = (fresh ds).schema
  projection : a.projection = (fresh ds).projection
  node : a.node = (fresh ds).node
  version : a.version = ds.length
  wrapped : ∀ e ∈ a.wrapped, a.wrapping e.1 = .ok e.2

theorem none_recomputed : none.Recomputed [] where
  accepted := nofun
  last := rfl
  descriptor := rfl
  schema := rfl
  projection := rfl
  node := rfl
  version := rfl
  wrapped := List.forall_mem_nil _

/-- A fresh tracker has seen nothing that was accepted, or it has seen one descriptor. -/
theorem fresh_cases (ds : List (Option String)) :
    fresh ds = none ∨ ∃ d, none.activate d = .ok (fresh ds) := by
  unfold fresh
  cases ds.getLast? with
  | none => exact .inl rfl
  | some d =>
    dsimp only
    cases ha : none.activate d with
    | error f => exact .inl (congrArg Prod.snd (observe_of_refused rfl ha))
    | ok a₀ =>
      have hobserve : (none.observe d).2 = a₀ := congrArg Prod.snd (observe_of_activate rfl ha)
      exact .inr ⟨d, by rw [hobserve]; exact ha⟩

theorem fresh_wrapped (ds : List (Option String)) : (fresh ds).wrapped = [] := by
  obtain h | ⟨d, h⟩ := fresh_cases ds
  · rw [h]
    rfl
  · obtain ⟨node, schema, projection, -, h⟩ := activate_ok h
    rw [h]

/-! ## Steps -/

/-- A descriptor that is accepted is accepted by a tracker that has seen none, and makes the same of
it but for the count of versions. -/
theorem fresh_of_activate {a a' : ActiveSchema} {d : Option String} (h : a.activate d = .ok a')
    (ds : List (Option String)) : (none.observe d).1 = .ok true ∧
      a' = { fresh (ds ++ [d]) with version := a.version + 1 } := by
  rw [activate_eq] at h
  cases h₀ : none.activate d with
  | error f =>
    rw [h₀] at h
    cases h
  | ok a₀ =>
    rw [h₀] at h
    have hobserve : none.observe d = (.ok true, a₀) := observe_of_activate rfl h₀
    have hfresh : fresh (ds ++ [d]) = a₀ := by
      rw [fresh, List.getLast?_concat]
      exact congrArg Prod.snd hobserve
    rw [hfresh]
    exact ⟨congrArg Prod.fst hobserve, (Except.ok.inj h).symm⟩

theorem observe_of_unchanged {a : ActiveSchema} {d : Option String}
    (h : a.change? (.observe d) = .none) : (a.observe d).2 = a := by
  cases hc : a.isChanged d with
  | false => rw [observe_of_same hc]
  | true =>
    cases ha : a.activate d with
    | error f => rw [observe_of_refused hc ha]
    | ok a' =>
      rw [change?, observe_of_activate hc ha] at h
      cases h

theorem observe_of_change {a : ActiveSchema} {d d' : Option String}
    (h : a.change? (.observe d) = some d') : (a.observe d).1 = .ok true := by
  rw [change?] at h
  split at h
  · next hok => exact hok
  · cases h

theorem activate_of_change {a : ActiveSchema} {d d' : Option String}
    (h : a.change? (.observe d) = some d') : d' = d ∧ a.activate d = .ok (a.observe d).2 := by
  cases hc : a.isChanged d with
  | false =>
    rw [change?, observe_of_same hc] at h
    cases h
  | true =>
    cases ha : a.activate d with
    | error f =>
      rw [change?, observe_of_refused hc ha] at h
      cases h
    | ok a' =>
      rw [change?, observe_of_activate hc ha] at h
      rw [observe_of_activate hc ha]
      exact ⟨(Option.some.inj h).symm, rfl⟩

/-- Asking for a record keeps all there is, and at most adds the record. -/
theorem storage_kept (a : ActiveSchema) (fieldName : String) :
    (a.storage fieldName).2 = a ∨ ∃ s, a.isBare = true ∧
      a.wrapped.find? (·.1 == fieldName) = .none ∧ a.wrapping fieldName = .ok s ∧
      (a.storage fieldName).2 = { a with wrapped := (fieldName, s) :: a.wrapped } := by
  cases hb : a.isBare with
  | false => exact .inl (storage_of_not_bare fieldName hb).2
  | true =>
    rw [storage_of_isBare hb]
    cases hf : a.wrapped.find? (·.1 == fieldName) with
    | some e => exact .inl (by rw [wrap_of_kept hf])
    | none =>
      cases hw : a.wrapping fieldName with
      | error f => exact .inl (by rw [wrap_of_failed hf hw])
      | ok s => exact .inr ⟨s, rfl, rfl, rfl, by rw [wrap_of_found hf hw]⟩

theorem asked_recomputed {a : ActiveSchema} {ds : List (Option String)} (h : a.Recomputed ds)
    (q : Question) : (a.asked q).Recomputed (ds ++ (a.change? q).toList) := by
  cases q with
  | storage fieldName =>
    rw [change?, Option.toList_none, List.append_nil]
    obtain hs | ⟨s, -, -, hw, hs⟩ := storage_kept a fieldName
    · rw [asked, hs]
      exact h
    · rw [asked, hs]
      exact ⟨h.accepted, h.last, h.descriptor, h.schema, h.projection, h.node, h.version,
        List.forall_mem_cons.mpr ⟨hw, h.wrapped⟩⟩
  | observe d =>
    cases hc : a.change? (.observe d) with
    | none =>
      rw [asked, observe_of_unchanged hc, Option.toList_none, List.append_nil]
      exact h
    | some d' =>
      obtain ⟨rfl, ha⟩ := activate_of_change hc
      obtain ⟨haccepted, heq⟩ := fresh_of_activate ha ds
      have hlast : (a.observe d').2.descriptor = d' := by
        obtain ⟨node, schema, projection, -, hactive⟩ := activate_ok ha
        rw [hactive]
      rw [heq] at hlast
      rw [asked, Option.toList_some, heq]
      refine ⟨?_, ?_, rfl, rfl, rfl, rfl, ?_, ?_⟩
      · rw [List.getLast?_concat]
        rintro d ⟨⟩
        exact haccepted
      · rw [List.getLast?_concat]
        exact hlast
      · rw [List.length_append, ← h.version]
        rfl
      · dsimp only
        rw [fresh_wrapped]
        exact List.forall_mem_nil _

/-! ## Runs -/

theorem after_recomputed {a : ActiveSchema} {ds : List (Option String)} (h : a.Recomputed ds)
    (qs : List Question) : (a.after qs).Recomputed (ds ++ a.changes qs) := by
  induction qs generalizing a ds with
  | nil =>
    rw [changes, List.append_nil]
    exact h
  | cons q qs ih =>
    have hqs := ih (asked_recomputed h q)
    rw [List.append_assoc] at hqs
    exact hqs

/-! ## Answers -/

section Answers

variable {a : ActiveSchema} {ds : List (Option String)}

theorem Recomputed.isBare (h : a.Recomputed ds) : a.isBare = (fresh ds).isBare := by
  rw [ActiveSchema.isBare, h.schema, ActiveSchema.isBare]

theorem Recomputed.wrapping (h : a.Recomputed ds) (fieldName : String) :
    a.wrapping fieldName = (fresh ds).wrapping fieldName := by
  rw [ActiveSchema.wrapping, h.node, h.descriptor, ActiveSchema.wrapping]

/-- A record schema is stored in as it is. -/
theorem storage_of_record {s : Avro.Schema} (hs : a.schema = some s) (hr : s.isRecord = true)
    (fieldName : String) : a.storage fieldName = (.ok (s, a.binding), a) := by
  simp only [ActiveSchema.storage, hs, hr, if_true]

/-- The record that is stored in, or why there is none, is that of a fresh tracker: it does not
matter whether it was kept or is found now. -/
theorem Recomputed.storage (h : a.Recomputed ds) (fieldName : String) :
    (a.storage fieldName).1.map Prod.fst = ((fresh ds).storage fieldName).1.map Prod.fst := by
  cases hb : a.isBare with
  | false =>
    obtain ⟨s, hs, hr⟩ : ∃ s, a.schema = some s ∧ s.isRecord = true := by
      simpa [ActiveSchema.isBare, Option.getD_eq_iff] using hb
    rw [storage_of_record hs hr, storage_of_record (h.schema.symm.trans hs) hr]
    rfl
  | true =>
    have hnone : (fresh ds).wrapped.find? (·.1 == fieldName) = .none := by
      rw [fresh_wrapped]
      rfl
    rw [storage_of_isBare hb, storage_of_isBare (h.isBare.symm.trans hb)]
    cases hf : a.wrapped.find? (·.1 == fieldName) with
    | some e =>
      have hname : e.1 = fieldName := by simpa using List.find?_some hf
      have hw := h.wrapped e (List.mem_of_find?_eq_some hf)
      rw [hname, h.wrapping] at hw
      rw [wrap_of_kept hf, wrap_of_found hnone hw]
      rfl
    | none =>
      cases hw : a.wrapping fieldName with
      | error f =>
        rw [wrap_of_failed hf hw, wrap_of_failed hnone ((h.wrapping fieldName).symm.trans hw)]
      | ok s =>
        rw [wrap_of_found hf hw, wrap_of_found hnone ((h.wrapping fieldName).symm.trans hw)]
        rfl

end Answers

/-- The schema and the projection are those of a descriptor: of its node, and of that node without
nulls. -/
structure Derived (a : ActiveSchema) : Prop where
  absent : a.descriptor = .none → a.schema = .none ∧ a.projection = .none
  present : a.descriptor ≠ .none → ∃ node stripped schema projection,
    Avro.Descriptor.load a.descriptor = .ok node ∧
    Avro.Descriptor.schemaOf node a.descriptor = .ok schema ∧
    (Avro.NullFree.strip node).mapError Failure.data = .ok stripped ∧
    Avro.Descriptor.schemaOf stripped a.descriptor = .ok projection ∧
    a.schema = some schema ∧ a.projection = some projection

theorem activate_derived {a a' : ActiveSchema} {d : Option String} (h : a.activate d = .ok a') :
    a'.Derived := by
  obtain ⟨node, hload, h⟩ := Except.of_bind_ok h
  obtain ⟨schema, hschema, h⟩ := Except.of_bind_ok h
  obtain ⟨stripped, hstripped, h⟩ := Except.of_bind_ok h
  obtain ⟨projection, hprojection, h⟩ := Except.of_bind_ok h
  cases h
  refine ⟨fun hd => ?_, fun _ =>
    ⟨node, stripped, schema, projection, hload, hschema, hstripped, hprojection, rfl, rfl⟩⟩
  -- no descriptor at all is never accepted
  have hd : d = .none := hd
  rw [hd] at hload
  cases hload

theorem none_derived : none.Derived := ⟨fun _ => ⟨rfl, rfl⟩, fun h => absurd rfl h⟩

theorem Recomputed.derived {a : ActiveSchema} {ds : List (Option String)} (h : a.Recomputed ds) :
    a.Derived := by
  have hfresh : (fresh ds).Derived := by
    obtain h₀ | ⟨d, h₀⟩ := fresh_cases ds
    · rw [h₀]
      exact none_derived
    · exact activate_derived h₀
  obtain ⟨habsent, hpresent⟩ := hfresh
  rw [← h.descriptor, ← h.schema, ← h.projection] at habsent hpresent
  exact ⟨habsent, hpresent⟩

end ActiveSchema
end StreamTable
