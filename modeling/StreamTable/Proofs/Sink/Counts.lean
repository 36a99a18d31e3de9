/-
What counts a record.  Nothing but the handling of a record changes how many records were written,
dropped and skipped: commits, replaced writers and closing do not.  A record that is handled is
counted once; if its handling fails it is not counted, or it is counted as written, because what
failed was the commit after it.
-/
import StreamTable.Proofs.Action.Preserve
import StreamTable.Proofs.Sink.Reliable

namespace StreamTable

open StreamTable.Action

variable {W S : Type} {b : Backend W S}

namespace Coordinator

/-! ## The coordinator -/

theorem onWriter_tally {α : Type} (w : W) (call : Action (W × S) α) :
    (onWriter w call).Preserves (tally : Coordinator W S → _) := preserves_focus call fun _ _ => rfl

theorem getOrCreate_tally (schema : Avro.Schema) : (getOrCreate b schema).Preserves tally := by
  refine Preserves.bind preserves_get fun c => ?_
  cases c.writer with
  | some w => exact preserves_pure w
  | none =>
    refine Preserves.bind (Preserves.attempt (preserves_focus _ fun _ _ => rfl)) fun created => ?_
    cases created with
    | error cause => exact preserves_fail _
    | ok w =>
      exact Preserves.bind (preserves_modify fun _ => rfl) fun _ =>
        Preserves.bind (preserves_log _) fun _ => preserves_pure w

theorem write_tally (row : Value) : (write b row).Preserves tally := by
  refine Preserves.bind preserves_get fun c => ?_
  cases c.writer with
  | none => exact preserves_fail _
  | some w => exact onWriter_tally w _

theorem commitDone_tally : (commitDone : Action (Coordinator W S) Unit).Preserves tally := by
  have hdone : (modify fun c : Coordinator W S => { c with
      window := c.window.clearFailures
      totals := { c.totals with commits := c.totals.commits + 1 } }).Preserves tally :=
    preserves_modify fun _ => rfl
  refine Preserves.bind preserves_get fun c => preserves_ite ?_ hdone
  exact Preserves.bind (preserves_log _) fun _ => hdone

theorem commitFailed_tally (limit : Value) :
    (commitFailed limit : Action (Coordinator W S) Unit).Preserves tally := by
  refine Preserves.bind (preserves_modify fun _ => rfl) fun _ => Preserves.bind preserves_get
    fun c => Preserves.bind (preserves_log _) fun _ => Preserves.bind (preserves_lift _)
      fun tooMany => preserves_ite ?_ (preserves_pure ())
  exact Preserves.bind (preserves_log _) fun _ => preserves_fail _

theorem flush_tally (limit : Value) : (flush b limit).Preserves tally := by
  refine Preserves.bind preserves_get fun c => ?_
  cases c.writer with
  | none => exact preserves_fail _
  | some w =>
    refine Preserves.bind (onWriter_tally w _) fun done => preserves_ite ?_ ?_
    · exact Preserves.bind commitDone_tally fun _ => preserves_pure done
    · exact Preserves.bind (commitFailed_tally limit) fun _ => preserves_pure done

theorem flushUntilDone_tally (limit : Value) (tries : Nat) :
    (flushUntilDone b limit tries).Preserves tally := by
  induction tries with
  | zero => exact Preserves.bind preserves_get fun c => preserves_fail _
  | succ tries ih =>
    exact Preserves.bind (flush_tally limit) fun done => preserves_ite (preserves_pure ()) ih

/-- Closing the writer changes no count at all. -/
theorem close_totals : (close b).Preserves (totals : Coordinator W S → _) := by
  refine Preserves.bind preserves_get fun c => ?_
  cases c.writer with
  | none => exact preserves_pure ()
  | some w =>
    exact Preserves.bind (preserves_modify fun _ => rfl) fun _ =>
      Preserves.bind (preserves_log _) fun _ => preserves_focus _ fun _ _ => rfl

theorem close_tally : (close b).Preserves tally :=
  close_totals.comp fun t => (t.written, t.dropped, t.skipped, t.schemaChanges)

theorem updateSchema_tally (limit : Value) (schema : Avro.Schema) (pending : Int) :
    (updateSchema b limit schema pending).Preserves tally := by
  have hreplace : (close b >>= fun _ => getOrCreate b schema >>= fun _ =>
      (Pure.pure true : Action (Coordinator W S) Bool)).Preserves tally :=
    Preserves.bind close_tally fun _ => Preserves.bind (getOrCreate_tally schema)
      fun _ => preserves_pure true
  refine Preserves.bind preserves_get fun c => ?_
  cases c.writer with
  | none => exact Preserves.bind (getOrCreate_tally schema) fun _ => preserves_pure false
  | some w =>
    refine Preserves.bind (onWriter_tally w _) fun replace => preserves_ite (preserves_pure false) ?_
    refine Preserves.bind (preserves_log _) fun _ => preserves_ite ?_ hreplace
    exact Preserves.bind (flushUntilDone_tally limit _) fun _ => hreplace

end Coordinator

namespace Loop

variable {p : Plan} {clock : Readings} {l : Loop W S}

/-! ## The loop -/

theorem onCoordinator_outcomes {α : Type} {a : Action (Coordinator W S) α}
    (ha : a.Preserves Coordinator.tally) : (onCoordinator a).Preserves outcomes :=
  fun l => outcomes_of_tally (ha l.coordinator)

theorem acknowledgeLast_totals :
    (acknowledgeLast b).Preserves fun l : Loop W S => l.coordinator.totals := by
  refine Preserves.bind preserves_get fun l => ?_
  cases l.last with
  | none => exact preserves_pure ()
  | some d =>
    exact preserves_ite (preserves_pure ()) (Preserves.bind (preserves_modify fun _ => rfl)
      fun _ _ => rfl)

theorem reset_outcomes (now : Double) : (reset b now).Preserves outcomes :=
  Preserves.bind (acknowledgeLast_totals.comp fun t => (t.written, t.dropped, t.skipped))
    fun _ => preserves_modify fun _ => rfl

theorem commitIfDue_outcomes : (commitIfDue p b clock).Preserves outcomes := by
  refine Preserves.bind preserves_get fun l => preserves_ite ?_ (preserves_pure ())
  refine Preserves.bind (preserves_lift _) fun due => preserves_ite ?_ (preserves_pure ())
  exact Preserves.bind (onCoordinator_outcomes (Coordinator.flush_tally _)) fun done =>
    preserves_ite (reset_outcomes _) (preserves_pure ())

theorem bind_outcomes (schema : Avro.Schema) (binding : Binding) :
    (bind p b clock schema binding).Preserves outcomes := by
  refine Preserves.bind preserves_get fun l => preserves_ite ?_ (preserves_pure ())
  refine Preserves.bind (onCoordinator_outcomes (Coordinator.updateSchema_tally _ _ _))
    fun replaced => Preserves.bind (preserves_modify fun _ => rfl) fun _ =>
      preserves_ite (reset_outcomes _) (preserves_pure ())

/-- Closing a loop changes no count. -/
theorem close_totals (b : Backend W S) :
    (close b).Preserves fun l : Loop W S => l.coordinator.totals := by
  have hclose : (onCoordinator (Coordinator.close b)).Preserves
      fun l : Loop W S => l.coordinator.totals := fun l => Coordinator.close_totals l.coordinator
  refine Preserves.bind (preserves_modify fun _ => rfl) fun _ => Preserves.bind preserves_get
    fun l => preserves_ite (preserves_pure ()) ?_
  exact Preserves.bind (preserves_modify fun _ => rfl) fun _ => Preserves.bind hclose.attempt
    fun result => Preserves.bind acknowledgeLast_totals fun _ => preserves_lift result

/-- No record, or one that counts as written, is counted on the way from one loop to another. -/
def Falters (l l' : Loop W S) : Prop :=
  l'.outcomes = l.outcomes ∨ l'.outcomes = (l.outcomes.1 + 1, l.outcomes.2.1, l.outcomes.2.2)

theorem Falters.of_eq {l₁ l' : Loop W S} (h : Falters l₁ l') (ho : l₁.outcomes = l.outcomes) :
    Falters l l' := by
  rw [Falters, ho] at h
  exact h

theorem store_counts (r : Record) (schema : Avro.Schema) (row : Value) :
    (store b r schema row).Ends l
      (fun _ l' => l'.outcomes = (l.outcomes.1 + 1, l.outcomes.2.1, l.outcomes.2.2))
      (fun _ l' => l'.outcomes = l.outcomes) := by
  simp only [store, ends_bind, ends_onCoordinator, ends_modify, ends_count]
  refine ((Coordinator.getOrCreate_tally schema).ends l.coordinator).mono (fun _ c hc => ?_)
    fun _ c hc => outcomes_of_tally hc
  refine ((Coordinator.write_tally row).ends c).mono (fun _ c' hc' => ?_)
    fun _ c' hc' => outcomes_of_tally (hc'.trans hc)
  exact congrArg (fun t : Nat × Nat × Nat × Nat => (t.1 + 1, t.2.1, t.2.2.1)) (hc'.trans hc)

theorem deliver_counts (r : Record) (schema : Avro.Schema) (binding : Binding) :
    (deliver p b clock r schema binding).Ends l (fun _ l' => Settles l l')
      (fun _ l' => Falters l l') := by
  simp only [deliver, ends_bind]
  refine ((bind_outcomes schema binding).ends l).mono (fun _ l₁ h₁ => ?_) fun _ _ h => .inl h
  rw [ends_decode, ends_ite]
  refine ⟨fun _ => Settles.of_eq (.inr (.inl rfl)) h₁, fun _ => ?_⟩
  rw [ends_bind]
  refine (store_counts r schema _).mono (fun _ l₂ h₂ => ?_) fun _ l₂ h₂ => .inl (h₂.trans h₁)
  refine (commitIfDue_outcomes.ends l₂).mono (fun _ l₃ h₃ => ?_) fun _ l₃ h₃ => ?_
  · exact Settles.of_eq (.inl (h₃.trans h₂)) h₁
  · exact Falters.of_eq (.inr (h₃.trans h₂)) h₁

/-- A record that is handled without a failure is counted once. -/
theorem handle_counts (r : Record) :
    (handle p b clock r).Ends l (fun _ l' => Settles l l') (fun _ l' => Falters l l') := by
  refine handle_ends rfl (fun _ => .inr (.inr rfl))
    (fun f _ => .inl (outcomes_following _ _)) fun schema binding _ => ?_
  exact (deliver_counts r schema binding).mono
    (fun _ _ h => h.of_eq (outcomes_following _ _)) fun _ _ h => h.of_eq (outcomes_following _ _)

end Loop
end StreamTable
