/-
The schema that the open writer was last told of.  A loop tells its writer of each schema that rows
are to be stored with, and keeps the writer only if it has the schema's fingerprint.  So as long as
that schema is active, or wraps the one that is, the open writer has its fingerprint; and since the
versions of active schemas only grow, it is never taken for the schema of a later version.
-/
import StreamTable.Proofs.Sink.Adoption
import StreamTable.Proofs.Sink.History
import StreamTable.Proofs.Sink.Shutdown
import StreamTable.Proofs.Store.SchemaChange

namespace StreamTable

open StreamTable.Action

namespace Store

/-! ## Fingerprints of open writers -/

/-- The fingerprint of the open writer, if there is one. -/
def fingerprint (c : Coordinator Writer Disk) : Option String := c.writer.map Writer.fingerprint

/-- The open writer has the fingerprint of a schema. -/
def Fits (c : Coordinator Writer Disk) (schema : Avro.Schema) : Prop :=
  ∃ f, Writer.fingerprintOf schema = .ok f ∧ fingerprint c = some f

section Coordinator

variable {storage : List (Value × Value)} {c : Coordinator Writer Disk} {w : Writer}
  {schema : Avro.Schema}

theorem onWriter_fingerprint {α : Type} {call : Action (Writer × Disk) α}
    (hcall : call.Preserves fun x => x.1.fingerprint) (hw : c.writer = some w) :
    (Coordinator.onWriter w call).Ends c (fun _ c' => fingerprint c' = fingerprint c)
      (fun _ c' => fingerprint c' = fingerprint c) := by
  have hfingerprint : fingerprint c = some w.fingerprint := by rw [fingerprint, hw]; rfl
  rw [Coordinator.onWriter, ends_focus, hfingerprint]
  exact (hcall.ends (w, c.world)).mono (fun _ _ h => congrArg some h) fun _ _ h => congrArg some h

theorem commitDone_fingerprint : Coordinator.commitDone.Preserves fingerprint :=
  Preserves.bind preserves_get fun _ => preserves_ite
    (Preserves.bind (preserves_log _) fun _ => preserves_modify fun _ => rfl)
    (preserves_modify fun _ => rfl)

theorem commitFailed_fingerprint (limit : Value) :
    (Coordinator.commitFailed limit).Preserves fingerprint :=
  Preserves.bind (preserves_modify fun _ => rfl) fun _ => Preserves.bind preserves_get fun _ =>
    Preserves.bind (preserves_log _) fun _ => Preserves.bind (preserves_lift _) fun _ =>
      preserves_ite (Preserves.bind (preserves_log _) fun _ => preserves_fail _)
        (preserves_pure ())

theorem flush_fingerprint (limit : Value) :
    (Coordinator.flush (backend storage) limit).Preserves fingerprint := by
  intro c
  refine Ends.state (R := fun c' => fingerprint c' = fingerprint c) ?_
  simp only [Coordinator.flush, ends_bind, ends_get]
  cases hw : c.writer with
  | none => exact rfl
  | some w =>
    simp only [ends_bind]
    have hflush : (backend storage).flush.Preserves fun x : Writer × Disk => x.1.fingerprint :=
      Writer.flush_opening.comp Prod.snd
    have hcounts (done : Bool) : (do
        if done then Coordinator.commitDone else Coordinator.commitFailed limit
        Pure.pure done).Preserves fingerprint :=
      preserves_ite (Preserves.bind commitDone_fingerprint fun _ => preserves_pure done)
        (Preserves.bind (commitFailed_fingerprint limit) fun _ => preserves_pure done)
    refine (onWriter_fingerprint hflush hw).mono (fun done c' hc' => ?_) fun _ _ h => h
    exact ((hcounts done).ends c').mono (fun _ _ h => h.trans hc') fun _ _ h => h.trans hc'

theorem write_fingerprint (row : Value) :
    (Coordinator.write (backend storage) row).Preserves fingerprint := by
  intro c
  refine Ends.state (R := fun c' => fingerprint c' = fingerprint c) ?_
  simp only [Coordinator.write, ends_bind, ends_get]
  cases hw : c.writer with
  | none => exact rfl
  | some w => exact onWriter_fingerprint ((Writer.write_opening row).comp Prod.snd) hw

theorem create_fits {d d' : Disk} {log : List Log.Entry}
    (h : (createBySettings storage schema).run d = ⟨.ok w, d', log⟩) :
    Writer.fingerprintOf schema = .ok w.fingerprint := by
  have hends : (createBySettings storage schema).Ends d
      (fun w _ => Writer.fingerprintOf schema = .ok w.fingerprint) (fun _ _ => True) := by
    simp only [createBySettings]
    rw [ends_ite]
    refine ⟨fun _ => ?_, fun _ => trivial⟩
    rw [ends_bind, ends_lift]
    refine ⟨fun t _ => ?_, fun _ _ => trivial⟩
    unfold Ends
    cases hcreate : ((Writer.create t (settingOr storage "codec" "null") schema).run d).result with
    | error f => trivial
    | ok w =>
      obtain ⟨hsettle, hfingerprint⟩ := Writer.create_ok hcreate
      rw [Writer.fingerprintOf, hsettle]
      show Except.mapError Failure.schema w.schema.fingerprint = _
      rw [hfingerprint]
      rfl
  rw [Ends, h] at hends
  exact hends

/-- A writer that is opened for a schema fits it. -/
theorem getOrCreate_fits (schema : Avro.Schema) :
    (Coordinator.getOrCreate (backend storage) schema).Ends c
      (fun _ c' => (c.writer = none → Fits c' schema) ∧ (c.writer ≠ none → c' = c))
      (fun _ _ => True) := by
  simp only [Coordinator.getOrCreate, ends_bind, ends_get]
  cases hw : c.writer with
  | some w => exact ⟨fun hnone => absurd hnone (Option.some_ne_none w), fun _ => rfl⟩
  | none =>
    simp only [ends_bind, ends_attempt, ends_focus]
    unfold Ends
    rcases hcreate : ((backend storage).create schema).run c.world with ⟨f | w, d, log⟩
    · exact trivial
    · exact ⟨fun _ => ⟨w.fingerprint, create_fits hcreate, rfl⟩, fun hne => absurd rfl hne⟩

theorem reopen_fits (schema : Avro.Schema) :
    (Coordinator.replace (backend storage) schema).Ends c (fun _ c' => Fits c' schema)
      (fun _ _ => True) := by
  simp only [Coordinator.replace, ends_bind]
  have hreleased : (Coordinator.close (backend storage)).Ends c (fun _ c' => c'.writer = none)
      (fun _ c' => c'.writer = none) := ends_of_state Coordinator.close_writer
  refine hreleased.mono (fun _ c' hc' => ?_) fun _ _ _ => trivial
  exact (getOrCreate_fits schema).mono (fun _ _ h => h.1 hc') fun _ _ h => h

/-- A writer that asks for nothing fits the schema that it was told of. -/
theorem onWriter_updateSchema_fits (schema : Avro.Schema) (w : Writer) :
    (Coordinator.onWriter w ((backend storage).updateSchema schema)).Ends c
      (fun replace c' => replace = false → Fits c' schema) (fun _ _ => True) := by
  have hends : (Writer.updateSchema schema).Ends (w, c.world)
      (fun replace x => x = (w, c.world) ∧
        (replace = false → Writer.fingerprintOf schema = .ok w.fingerprint))
      (fun _ _ => True) := by
    unfold Ends
    cases hresult : ((Writer.updateSchema schema).run (w, c.world)).result with
    | error f => trivial
    | ok replace =>
      refine ⟨Writer.updateSchema_state schema _, ?_⟩
      rintro rfl
      exact (Writer.updateSchema_kept schema _).mp hresult
  rw [Coordinator.onWriter, ends_focus]
  refine hends.mono ?_ fun _ _ _ => trivial
  rintro replace _ ⟨rfl, hkept⟩ hfalse
  exact ⟨w.fingerprint, hkept hfalse, rfl⟩

/-- Whether it is kept, replaced or the first, a writer that was told of a schema fits it. -/
theorem updateSchema_fits (limit : Value) (schema : Avro.Schema) (pending : Int) :
    (Coordinator.updateSchema (backend storage) limit schema pending).Ends c
      (fun _ c' => Fits c' schema) (fun _ _ => True) := by
  simp only [Coordinator.updateSchema, ends_bind, ends_get]
  cases hw : c.writer with
  | none =>
    simp only [ends_bind]
    exact (getOrCreate_fits schema).mono (fun _ _ h => h.1 hw) fun _ _ h => h
  | some w =>
    simp only [ends_bind]
    refine (onWriter_updateSchema_fits schema w).mono (fun replace c' hc' => ?_) fun _ _ h => h
    cases replace with
    | false => exact hc' rfl
    | true =>
      have hreopen (c : Coordinator Writer Disk) :
          (Coordinator.replace (backend storage) schema).Ends c (fun _ c' => Fits c' schema)
            (fun _ _ => True) := reopen_fits schema
      simp only [Coordinator.replace, ends_bind] at hreopen
      simp only [Coordinator.say, Bool.not_true, Bool.false_eq_true, if_false, ends_bind, ends_log]
      rw [ends_ite]
      refine ⟨fun _ => ?_, fun _ => ?_⟩
      · simp only [ends_bind, ends_pure]
        exact Ends.of_forall (fun _ c' => hreopen c') fun _ _ => trivial
      · simp only [ends_bind, ends_pure]
        exact hreopen c'

end Coordinator

/-! ## Loops -/

/-- The open writer fits the schema that it was last told of, as long as that is active. -/
structure Attuned (l : Loop Writer Disk) : Prop where
  genuine : l.active.Genuine
  past : ∀ x, l.bound = some x → x.version ≤ l.active.version
  fits : ∀ x, l.bound = some x → x.version = l.active.version →
    ∃ schema, l.active.storedIn x.wrappedIn = .ok schema ∧ Fits l.coordinator schema

/-- The parts of a loop by which its writer is attuned. -/
def view (l : Loop Writer Disk) : Option Binding × ActiveSchema × Option String :=
  (l.bound, { l.active with projection := none }, fingerprint l.coordinator)

section Loops

variable {storage : List (Value × Value)} {p : Plan} {clock : Readings} {l l' : Loop Writer Disk}
  {r : Record} {schema : Avro.Schema} {binding : Binding}

theorem start_attuned (d : Disk) (now : Double) : Attuned (Loop.start d now) :=
  ⟨ActiveSchema.none_genuine, nofun, nofun⟩

theorem Attuned.of_view (hl : Attuned l) (h : view l' = view l) : Attuned l' := by
  have hbound : l'.bound = l.bound := congrArg Prod.fst h
  have hactive : { l'.active with projection := none } = { l.active with projection := none } :=
    congrArg (fun v => v.2.1) h
  have hfingerprint : fingerprint l'.coordinator = fingerprint l.coordinator :=
    congrArg (fun v => v.2.2) h
  have hcore : l'.active.core = l.active.core :=
    congrArg (fun a : ActiveSchema => { a with wrapped := [] }) hactive
  refine ⟨hl.genuine.of_eq hactive, fun x hx => ?_, fun x hx hversion => ?_⟩
  · rw [ActiveSchema.core_version hcore]
    exact hl.past x (hbound ▸ hx)
  · rw [ActiveSchema.core_version hcore] at hversion
    obtain ⟨schema, hstored, f, hf, hw⟩ := hl.fits x (hbound ▸ hx) hversion
    exact ⟨schema, (ActiveSchema.core_storedIn hcore _).trans hstored, f, hf,
      hfingerprint.trans hw⟩

/-- The writer is attuned once it fits the schema that the loop is bound to. -/
theorem Attuned.of_fits (hgenuine : l.active.Genuine) (hbound : l.bound = some binding)
    (hversion : binding.version = l.active.version)
    (hstored : l.active.storedIn binding.wrappedIn = .ok schema) (hfits : Fits l.coordinator schema) :
    Attuned l := by
  refine ⟨hgenuine, fun x hx => ?_, fun x hx _ => ?_⟩
  · obtain rfl := Option.some.inj (hbound.symm.trans hx)
    exact Nat.le_of_eq hversion
  · obtain rfl := Option.some.inj (hbound.symm.trans hx)
    exact ⟨schema, hstored, hfits⟩

/-- Taking up the schema of a record leaves the writer attuned to what was active before. -/
theorem Attuned.following (hl : Attuned l) (changed : Bool) (fieldName : String) (r : Record) :
    Attuned (l.following changed (l.active.receive fieldName r).active) := by
  have hgenuine := ActiveSchema.receive_genuine hl.genuine fieldName r
  obtain hcore | hlater := l.active.receive_version fieldName r
  · refine ⟨hgenuine, fun x hx => ?_, fun x hx hversion => ?_⟩
    · exact Nat.le_trans (hl.past x hx) (Nat.le_of_eq (ActiveSchema.core_version hcore).symm)
    · obtain ⟨schema, hstored, hfits⟩ :=
        hl.fits x hx (hversion.trans (ActiveSchema.core_version hcore))
      exact ⟨schema, (ActiveSchema.core_storedIn hcore _).trans hstored, hfits⟩
  · refine ⟨hgenuine, fun x hx => Nat.le_of_lt (Nat.lt_of_le_of_lt (hl.past x hx) hlater),
      fun x hx hversion => ?_⟩
    have hpast := hl.past x hx
    replace hversion : x.version = (l.active.receive fieldName r).active.version := hversion
    omega

theorem onCoordinator_view {α : Type} {a : Action (Coordinator Writer Disk) α}
    (ha : a.Preserves fingerprint) : (Loop.onCoordinator a).Preserves view :=
  fun l => congrArg (fun f => (l.bound, { l.active with projection := none }, f)) (ha l.coordinator)

theorem reset_view (now : Double) : (Loop.reset (backend storage) now).Preserves view := by
  have hlast : (Loop.acknowledgeLast (backend storage)).Preserves view := by
    refine Preserves.bind preserves_get fun l => ?_
    cases l.last with
    | none => exact preserves_pure ()
    | some d =>
      refine preserves_ite (preserves_pure ()) (Preserves.bind (preserves_modify fun _ => rfl) ?_)
      exact fun _ => onCoordinator_view (preserves_focus _ fun _ _ => rfl)
  exact Preserves.bind hlast fun _ => preserves_modify fun _ => rfl

theorem commitIfDue_view : (Loop.commitIfDue p (backend storage) clock).Preserves view := by
  refine Preserves.bind preserves_get fun l => preserves_ite ?_ (preserves_pure ())
  refine Preserves.bind (preserves_lift _) fun due => preserves_ite ?_ (preserves_pure ())
  exact Preserves.bind (onCoordinator_view (flush_fingerprint p.limit)) fun done =>
    preserves_ite (reset_view _) (preserves_pure ())

/-- The writer that a loop binds to a schema is there, and attuned. -/
theorem bind_attuned (hl : Attuned l) (hversion : binding.version = l.active.version)
    (hstored : l.active.storedIn binding.wrappedIn = .ok schema) :
    (Loop.bind p (backend storage) clock schema binding).Ends l
      (fun _ l' => Attuned l' ∧ l'.coordinator.writer ≠ none) (fun _ _ => True) := by
  have hopen {l : Loop Writer Disk} (hfits : Fits l.coordinator schema) :
      l.coordinator.writer ≠ none := by
    obtain ⟨f, -, hw⟩ := hfits
    intro hnone
    rw [fingerprint, hnone] at hw
    cases hw
  simp only [Loop.bind, ends_bind, ends_get]
  by_cases hbound : l.bound = some binding
  · rw [if_neg (not_not_intro hbound)]
    obtain ⟨schema', hstored', hfits⟩ := hl.fits binding hbound hversion
    obtain rfl := Except.ok.inj (hstored'.symm.trans hstored)
    exact ⟨hl, hopen hfits⟩
  · rw [if_pos hbound]
    simp only [ends_bind, Loop.ends_onCoordinator, ends_modify]
    refine (updateSchema_fits p.limit schema _).mono (fun replaced c hc => ?_) fun _ _ h => h
    have hbound : Attuned { l with coordinator := c, bound := some binding } :=
      .of_fits hl.genuine rfl hversion hstored hc
    rw [ends_ite]
    refine ⟨fun _ => ?_, fun _ => ⟨hbound, hopen hc⟩⟩
    refine ((reset_view clock.replaced).ends _).mono (fun _ l' hl' => ?_) fun _ _ _ => trivial
    refine ⟨hbound.of_view hl', fun hnone => hopen (l := { l with coordinator := c }) hc ?_⟩
    have hfingerprint : fingerprint l'.coordinator = fingerprint c := congrArg (fun v => v.2.2) hl'
    rw [fingerprint, hnone] at hfingerprint
    exact Option.map_eq_none_iff.mp hfingerprint.symm

theorem store_view (row : Value) (hw : l.coordinator.writer ≠ none) :
    (Loop.store (backend storage) r schema row).Ends l (fun _ l' => view l' = view l)
      (fun _ _ => True) := by
  simp only [Loop.store, ends_bind, Loop.ends_onCoordinator]
  refine (getOrCreate_fits schema).mono (fun _ c hc => ?_) fun _ _ h => h
  obtain rfl := hc.2 hw
  refine ((write_fingerprint row).ends _).mono (fun _ c hc => ?_) fun _ _ _ => trivial
  have hview : view { l with coordinator := c } = view l :=
    congrArg (fun f => (l.bound, { l.active with projection := none }, f)) hc
  exact hview

theorem deliver_attuned (hl : Attuned l) (hversion : binding.version = l.active.version)
    (hstored : l.active.storedIn binding.wrappedIn = .ok schema) :
    (Loop.deliver p (backend storage) clock r schema binding).Ends l (fun _ l' => Attuned l')
      (fun _ _ => True) := by
  simp only [Loop.deliver, ends_bind]
  refine (bind_attuned hl hversion hstored).mono (fun _ l₁ h₁ => ?_) fun _ _ h => h
  rw [Loop.ends_decode]
  have hdecoding : Attuned (l₁.decoding p r schema) := h₁.1.of_view rfl
  show (if (l₁.decoded p r schema).row.isNull then _ else _ : Action (Loop Writer Disk) Unit).Ends
    (l₁.decoding p r schema) _ _
  rw [ends_ite]
  refine ⟨fun _ => hdecoding.of_view rfl, fun _ => ?_⟩
  rw [ends_bind]
  refine (store_view (l := l₁.decoding p r schema) _ h₁.2).mono (fun _ l₂ h₂ => ?_) fun _ _ h => h
  exact (commitIfDue_view.ends l₂).mono (fun _ _ h₃ => hdecoding.of_view (h₃.trans h₂))
    fun _ _ _ => trivial

theorem handle_attuned (hl : Attuned l) :
    (Loop.handle p (backend storage) clock r).Ends l (fun _ l' => Attuned l')
      (fun _ _ => True) := by
  refine Loop.handle_ends rfl (fun _ => hl.of_view rfl) (fun _ _ => trivial)
    fun schema binding hv => ?_
  obtain ⟨hversion, hstored⟩ := ActiveSchema.receive_admitted hl.genuine hv
  exact deliver_attuned (hl.following _ p.fieldName r) hversion hstored

theorem iterate_attuned (timeout : Double) (hl : Attuned l) :
    (Loop.iterate p (backend storage) clock timeout).Ends l (fun _ l' => Attuned l')
      (fun _ _ => True) := by
  simp only [Loop.iterate, ends_bind, ends_get]
  cases Loop.waitFault? timeout l.queue.isEmpty with
  | some fault => exact trivial
  | none =>
    cases l.queue with
    | nil =>
      simp only [ends_bind, ends_pure]
      exact (commitIfDue_view.ends l).mono (fun _ _ h => hl.of_view h) fun _ _ _ => trivial
    | cons r rest =>
      simp only [ends_bind, ends_modify, ends_pure]
      exact handle_attuned (hl.of_view rfl)

theorem apply_attuned (e : Loop.Event) (hl : l.running = true → Attuned l) :
    (l.apply p (backend storage) e).running = true → Attuned (l.apply p (backend storage) e) := by
  cases e with
  | put r => exact fun hrunning => (hl hrunning).of_view rfl
  | iterate clock timeout =>
    refine Loop.advance_cases (R := fun l' => l'.running = true → Attuned l')
      (fun hstopped hrunning => ?_) fun hrunning => ?_
    · rw [hstopped] at hrunning
      cases hrunning
    · exact (iterate_attuned timeout (hl hrunning)).mono (fun _ _ h _ => h) fun _ _ _ => nofun

/-- The open writer of a run is attuned for as long as the loop goes on. -/
theorem after_attuned (events : List Loop.Event) (hl : l.running = true → Attuned l)
    (hrunning : (Loop.after p (backend storage) events l).running = true) :
    Attuned (Loop.after p (backend storage) events l) := by
  induction events generalizing l with
  | nil => exact hl hrunning
  | cons e events ih => exact ih (apply_attuned e hl) hrunning

end Loops

end Store
end StreamTable
