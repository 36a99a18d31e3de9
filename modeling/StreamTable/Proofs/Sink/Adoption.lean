/-
How a record goes on once its schema is active.  The schema that its row is stored with is the
active one, or for a plain value the record that this is wrapped into.  The table writer is told of
it if it is another than before; a writer that makes nothing of it has no part in what follows, so
the record goes on as if nobody had been asked.
-/
import StreamTable.Proofs.Sink.Reception
import StreamTable.Proofs.Sink.Traced

namespace StreamTable

open StreamTable.Action

namespace ActiveSchema

/-! ## The schemas that rows are stored with -/

/-- The schema that rows are stored with, as it is or wrapped. -/
def storedIn (a : ActiveSchema) : Option String → Except Failure Avro.Schema
  | .none => .ok (a.schema.getD default)
  | some fieldName => a.wrapping fieldName

/-- An active schema without what is kept of it for the next time. -/
def core (a : ActiveSchema) : ActiveSchema := { a with projection := .none, wrapped := [] }

variable {a a' : ActiveSchema} {fieldName : String} {r : Record} {schema : Avro.Schema}
  {binding : Binding}

theorem core_version (h : a'.core = a.core) : a'.version = a.version :=
  (congrArg ActiveSchema.version h :)

theorem core_storedIn (h : a'.core = a.core) (x : Option String) :
    a'.storedIn x = a.storedIn x := by
  have hcore (a : ActiveSchema) : a.core.storedIn x = a.storedIn x := by
    cases x with
    | none => rfl
    | some fieldName => rfl
  rw [← hcore a', h, hcore]

theorem storage_core (a : ActiveSchema) (fieldName : String) :
    (a.storage fieldName).2.core = a.core := by
  have hwrap : (a.wrap fieldName).2.core = a.core := by
    unfold wrap
    split
    · rfl
    · split <;> rfl
  unfold storage
  split
  · split
    · rfl
    · exact hwrap
  · exact hwrap

theorem judge_core (a : ActiveSchema) (fieldName : String) (changed : Bool) (r : Record) :
    (a.judge fieldName changed r).active.core = a.core :=
  judge_keeps (I := fun a' => a'.core = a.core) rfl (storage_core a fieldName) changed r

/-- The field that records of an encoding are wrapped in, if they are. -/
def wrapsIn (a : ActiveSchema) (fieldName : String) (e : Encoding) : Option String :=
  if e = .primitive ∧ a.isBare = true then some fieldName else .none

/-- Plain values are stored with the schema itself or with the record that it is wrapped into. -/
theorem storage_eq (h : a.Genuine) (fieldName : String) :
    (a.storage fieldName).1 = (a.storedIn (a.wrapsIn fieldName .primitive)).map
      fun s => (s, ⟨a.version, a.wrapsIn fieldName .primitive⟩) := by
  cases hb : a.isBare with
  | true =>
    have hwraps : a.wrapsIn fieldName .primitive = some fieldName := if_pos ⟨rfl, hb⟩
    rw [storage_of_isBare hb, hwraps, storedIn]
    cases hf : a.wrapped.find? (·.1 == fieldName) with
    | some e =>
      have hname : e.1 = fieldName := by simpa using List.find?_some hf
      have hkept := h.wrapped e (List.mem_of_find?_eq_some hf)
      rw [hname] at hkept
      rw [wrap_of_kept hf, hkept]
      rfl
    | none =>
      cases hw : a.wrapping fieldName with
      | ok s =>
        rw [wrap_of_found hf hw]
        rfl
      | error f =>
        rw [wrap_of_failed hf hw]
        rfl
  | false =>
    have hwraps : a.wrapsIn fieldName .primitive = .none :=
      if_neg fun h => by rw [hb] at h; cases h.2
    rw [hwraps]
    unfold isBare at hb
    unfold storage
    cases hs : a.schema with
    | none =>
      rw [hs] at hb
      cases hb
    | some s =>
      rw [hs] at hb
      have hrecord : s.isRecord = true := by simpa using hb
      simp only [hrecord, if_true, storedIn, hs]
      rfl

/-- A record under the active schema is admitted if there is a schema to store it with. -/
theorem judge_verdict (h : a.Genuine) (fieldName : String) (changed : Bool) (r : Record) :
    (a.judge fieldName changed r).verdict =
      match a.storedIn (a.wrapsIn fieldName r.encoding) with
      | .ok schema => .admitted schema ⟨a.version, a.wrapsIn fieldName r.encoding⟩
      | .error f => .refused f := by
  have hstorage := storage_eq h fieldName
  unfold judge
  cases r.encoding with
  | primitive =>
    cases hs : a.storedIn (a.wrapsIn fieldName .primitive) with
    | error f =>
      rw [hs] at hstorage
      rw [show a.storage fieldName = (.error f, (a.storage fieldName).2) from
        Prod.ext hstorage rfl]
    | ok s =>
      rw [hs] at hstorage
      rw [show a.storage fieldName = (.ok (s, ⟨a.version, a.wrapsIn fieldName .primitive⟩),
        (a.storage fieldName).2) from Prod.ext hstorage rfl]
  | binary => rfl
  | json => rfl

theorem judge_admitted (h : a.Genuine) {changed : Bool}
    (hv : (a.judge fieldName changed r).verdict = .admitted schema binding) :
    binding = ⟨a.version, a.wrapsIn fieldName r.encoding⟩ ∧
      a.storedIn binding.wrappedIn = .ok schema := by
  rw [judge_verdict h] at hv
  cases hs : a.storedIn (a.wrapsIn fieldName r.encoding) with
  | error f =>
    rw [hs] at hv
    cases hv
  | ok s =>
    rw [hs] at hv
    cases hv
    exact ⟨rfl, hs⟩

/-- A record is received under the active schema, or under one of the next version. -/
theorem receive_version (a : ActiveSchema) (fieldName : String) (r : Record) :
    (a.receive fieldName r).active.core = a.core ∨
      a.version < (a.receive fieldName r).active.version := by
  cases hb : r.isBlank with
  | true =>
    rw [receive_of_blank hb]
    exact .inl rfl
  | false =>
    rcases ho : a.observe r.descriptor with ⟨f | changed, a'⟩
    · rw [observe_error ho] at ho
      by_cases hf : ∃ fault text, f = .descriptor fault text
      · obtain ⟨fault, text, rfl⟩ := hf
        rw [receive_of_refused hb ho]
        exact .inl rfl
      · rw [receive_of_failed hb ho fun fault text he => hf ⟨fault, text, he⟩]
        exact .inl rfl
    · have hcore := judge_core a' fieldName changed r
      rw [receive_of_observed hb ho]
      cases hc : a.isChanged r.descriptor with
      | false =>
        rw [observe_of_same hc] at ho
        cases ho
        exact .inl hcore
      | true =>
        right
        cases ha : a.activate r.descriptor with
        | error f =>
          rw [observe_of_refused hc ha] at ho
          cases ho
        | ok a₁ =>
          rw [observe_of_activate hc ha] at ho
          cases ho
          obtain ⟨_, _, _, -, rfl⟩ := activate_ok ha
          rw [core_version hcore]
          exact Nat.lt_succ_self _

theorem receive_admitted (h : a.Genuine)
    (hv : (a.receive fieldName r).verdict = .admitted schema binding) :
    binding.version = (a.receive fieldName r).active.version ∧
      (a.receive fieldName r).active.storedIn binding.wrappedIn = .ok schema := by
  cases hb : r.isBlank with
  | true =>
    rw [receive_of_blank hb] at hv
    cases hv
  | false =>
    rcases ho : a.observe r.descriptor with ⟨f | changed, a'⟩
    · by_cases hf : ∃ fault text, f = .descriptor fault text
      · obtain ⟨fault, text, rfl⟩ := hf
        rw [receive_of_refused hb ho] at hv
        cases hv
      · rw [receive_of_failed hb ho fun fault text he => hf ⟨fault, text, he⟩] at hv
        cases hv
    · have hgenuine := observe_genuine h r.descriptor
      have hcore := judge_core a' fieldName changed r
      rw [ho] at hgenuine
      rw [receive_of_observed hb ho] at hv ⊢
      obtain ⟨hbinding, hstored⟩ := judge_admitted hgenuine hv
      rw [core_version hcore, core_storedIn hcore]
      exact ⟨congrArg Binding.version hbinding, hstored⟩

end ActiveSchema

namespace Loop

/-! ## Handling a record, step by step -/

section Steps

variable {W S : Type} {p : Plan} {b : Backend W S} {clock : Readings} {l : Loop W S} {r : Record}
  {schema : Avro.Schema} {binding : Binding}

/-- What is left of handling a record once the table writer was told of its schema. -/
def conclude (p : Plan) (b : Backend W S) (clock : Readings) (r : Record) (schema : Avro.Schema) :
    Action (Loop W S) Unit := do
  let row ← decode p r schema
  if row.isNull then count fun t => { t with dropped := t.dropped + 1 }
  else
    store b r schema row
    commitIfDue p b clock

theorem deliver_eq : deliver p b clock r schema binding =
    bind p b clock schema binding >>= fun _ => conclude p b clock r schema := rfl

theorem storage_run {a : ActiveSchema} {changed : Bool}
    (h : l.active.judge p.fieldName changed r = ⟨.admitted schema binding, changed, a⟩) :
    (storage p r).run l = ⟨.ok (schema, binding), { l with active := a }, []⟩ := by
  rw [storage, run_bind_of_quiet (run_get l)]
  unfold ActiveSchema.judge at h
  cases he : r.encoding with
  | primitive =>
    rw [he] at h
    dsimp only at h ⊢
    rcases hs : l.active.storage p.fieldName with ⟨f | x, a'⟩
    · rw [hs] at h
      cases h
    · rw [hs] at h
      cases h
      rfl
  | binary =>
    rw [he] at h
    cases h
    rfl
  | json =>
    rw [he] at h
    cases h
    rfl

/-- A record that is received with a schema is delivered with it. -/
theorem handle_run {a : ActiveSchema} {changed : Bool}
    (h : l.active.receive p.fieldName r = ⟨.admitted schema binding, changed, a⟩) :
    (handle p b clock r).run l =
      (deliver p b clock r schema binding).run (l.following changed a) := by
  cases hb : r.isBlank with
  | true =>
    rw [ActiveSchema.receive_of_blank hb] at h
    cases h
  | false =>
    rcases ho : l.active.observe r.descriptor with ⟨f | changed', a'⟩
    · by_cases hf : ∃ fault text, f = .descriptor fault text
      · obtain ⟨fault, text, rfl⟩ := hf
        rw [ActiveSchema.receive_of_refused hb ho] at h
        cases h
      · rw [ActiveSchema.receive_of_failed hb ho fun fault text he => hf ⟨fault, text, he⟩] at h
        cases h
    · have hfollow : (follow r).run l = ⟨.ok true, l.following changed' a', []⟩ := by
        rw [follow, run_bind_of_quiet (run_get l), hb, if_neg Bool.false_ne_true]
        cases hc : l.active.isChanged r.descriptor with
        | false =>
          rw [ActiveSchema.observe_of_same hc] at ho
          cases ho
          rfl
        | true =>
          have hchanged := (ActiveSchema.observe_ok ho).trans hc
          subst hchanged
          rw [if_pos rfl, ho]
          rfl
      rw [ActiveSchema.receive_of_observed hb ho] at h
      have hchanged : changed' = changed := by
        rw [← ActiveSchema.judge_changed a' p.fieldName changed' r, h]
      subst hchanged
      have hstorage : (storage p r).run (l.following changed' a') =
          ⟨.ok (schema, binding), l.following changed' a, []⟩ :=
        storage_run (l := l.following changed' a') h
      rw [handle, run_bind_of_quiet hfollow, if_pos rfl, run_bind_of_quiet hstorage]

theorem bind_run_same (h : l.bound = some binding) :
    (bind p b clock schema binding).run l = ⟨.ok (), l, []⟩ := by
  rw [bind, run_bind_of_quiet (run_get l), if_neg (not_not_intro h)]
  rfl

/-- A writer that asks for nothing is kept, and so is everything else. -/
theorem bind_run_kept {w : W} {s : S} (h : l.bound ≠ some binding)
    (hw : l.coordinator.writer = some w)
    (hkept : (b.updateSchema schema).run (w, l.coordinator.world) = ⟨.ok false, (w, s), []⟩) :
    (bind p b clock schema binding).run l =
      ⟨.ok (), { l with bound := some binding, coordinator := { l.coordinator with world := s } },
        []⟩ := by
  have hupdate : (onCoordinator (Coordinator.updateSchema b p.limit schema l.window.records)).run
      l = ⟨.ok false, { l with coordinator := { l.coordinator with world := s } }, []⟩ := by
    have hwriter : (Coordinator.onWriter w (b.updateSchema schema)).run l.coordinator =
        ⟨.ok false, { l.coordinator with world := s }, []⟩ := by
      rw [Coordinator.onWriter, run_focus, hkept, ← hw]
    rw [onCoordinator, run_focus, Coordinator.updateSchema, run_bind_of_quiet (run_get _), hw]
    dsimp only
    rw [run_bind_of_quiet hwriter]
    rfl
  rw [bind, run_bind_of_quiet (run_get l), if_pos h, run_bind_of_quiet hupdate,
    run_bind_of_quiet (run_modify _ _)]
  rfl

end Steps

section Kept

variable {W S : Type} {p : Plan} {b : Backend W S} {clock : Readings}
  {l : Loop (Nat × W) (Trace × S)} {r : Record} {schema : Avro.Schema} {binding : Binding}
  {number : Nat} {w : W}

/-- The loop with another active schema that its writer was told of, if it is a new one, and made
nothing of.  Nothing but the schema, its count and the trace is another than before. -/
def adopting (changed : Bool) (active : ActiveSchema) (number : Nat) (schema : Avro.Schema)
    (binding : Binding) (l : Loop (Nat × W) (Trace × S)) : Loop (Nat × W) (Trace × S) :=
  { l with
    active := active
    bound := some binding
    coordinator := { l.coordinator with
      world := (l.trace ++ if changed then [.updateSchema number schema (.ok false)] else [],
        l.coordinator.world.2)
      totals := { l.coordinator.totals with
        schemaChanges := l.coordinator.totals.schemaChanges + if changed then 1 else 0 } } }

/-- A writer that makes nothing of a schema has no part in how the record goes on. -/
theorem deliver_kept (changed : Bool) (active : ActiveSchema)
    (hw : l.coordinator.writer = some (number, w))
    (hkept : (b.updateSchema schema).run (w, l.coordinator.world.2) =
      ⟨.ok false, (w, l.coordinator.world.2), []⟩)
    (hbound : l.bound = some binding ↔ changed = false) :
    (deliver p b.tracing clock r schema binding).run (l.following changed active) =
      (conclude p b.tracing clock r schema).run
        (l.adopting changed active number schema binding) := by
  rw [deliver_eq]
  cases changed with
  | false =>
    have hsame : (l.following false active).bound = some binding := hbound.mpr rfl
    have hadopting : l.following false active = l.adopting false active number schema binding := by
      have hbound : l.bound = some binding := hsame
      have htrace : l.trace ++ [] = l.coordinator.world.1 := List.append_nil _
      rw [adopting, ← hbound, if_neg Bool.false_ne_true, htrace]
      rfl
    rw [run_bind_of_quiet (bind_run_same hsame), hadopting]
  | true =>
    have hother : (l.following true active).bound ≠ some binding :=
      fun h => Bool.noConfusion (hbound.mp h)
    have htold : (b.tracing.updateSchema schema).run ((number, w), l.coordinator.world) =
        ⟨.ok false, ((number, w), (l.trace ++ [.updateSchema number schema (.ok false)],
          l.coordinator.world.2)), []⟩ := by
      have hrun : (b.tracing.updateSchema schema).run ((number, w), l.coordinator.world) =
          let e := (b.updateSchema schema).run (w, l.coordinator.world.2)
          ⟨e.result, ((number, e.state.1),
            (l.trace ++ [.updateSchema number schema e.result], e.state.2)), e.log⟩ := rfl
      rw [hrun, hkept]
    rw [run_bind_of_quiet (bind_run_kept hother hw htold)]
    rfl

end Kept

/-- The table writer was last told of the schema that a record is stored with, provided that the
record brings no other. -/
def BoundFor {W S : Type} (p : Plan) (r : Record) (l : Loop W S) : Prop :=
  ∃ schema binding, ((storage p r).run l).result = .ok (schema, binding) ∧ l.bound = some binding

theorem storage_result {W S : Type} {p : Plan} {l : Loop W S} (h : l.active.Genuine) (r : Record) :
    ((storage p r).run l).result =
      (l.active.storedIn (l.active.wrapsIn p.fieldName r.encoding)).map
        fun s => (s, ⟨l.active.version, l.active.wrapsIn p.fieldName r.encoding⟩) := by
  rw [storage, run_bind_of_quiet (run_get l)]
  cases r.encoding with
  | primitive => exact ActiveSchema.storage_eq h p.fieldName
  | binary => rfl
  | json => rfl

end Loop

end StreamTable
