/-
Loops over reliable storage, whose table writers never fail and commit whenever they are asked to.
There no operation of the coordinator fails, and a record that the loop does not refuse is written,
dropped or skipped.
-/
import StreamTable.Proofs.Sink.Loop

namespace StreamTable

open StreamTable.Action

variable {W S : Type}

/-- Table writers that never fail, and that commit whenever they are asked to. -/
structure Backend.Reliable (b : Backend W S) : Prop where
  create : ∀ schema, (b.create schema).Succeeds
  updateSchema : ∀ schema, (b.updateSchema schema).Succeeds
  write : ∀ row, (b.write row).Succeeds
  flush : ∀ x, b.flush.Ends x (fun done _ => done = true) fun _ _ => False
  close : b.close.Succeeds
  acknowledge : ∀ r, (b.acknowledge r).Succeeds

variable {b : Backend W S}

/-! ## The coordinator -/

namespace Coordinator

variable {c : Coordinator W S}

theorem getOrCreate_succeeds (hb : b.Reliable) (schema : Avro.Schema) :
    (getOrCreate b schema).Ends c
      (fun _ c' => c'.writer.isSome = true ∧ c'.tally = c.tally) (fun _ _ => False) := by
  simp only [getOrCreate, ends_bind, ends_get]
  cases hw : c.writer with
  | some w => exact ⟨congrArg Option.isSome hw, rfl⟩
  | none =>
    simp only [ends_bind, ends_attempt, ends_focus]
    exact (hb.create schema c.world).mono (fun _ _ _ => ⟨rfl, rfl⟩) fun _ _ h => h.elim

theorem onWriter_succeeds {α : Type} {w : W} {call : Action (W × S) α} (h : call.Succeeds) :
    (onWriter w call).Ends c
      (fun _ c' => c'.writer.isSome = true ∧ c'.tally = c.tally) (fun _ _ => False) := by
  rw [onWriter, ends_focus]
  exact (h (w, c.world)).mono (fun _ _ _ => ⟨rfl, rfl⟩) fun _ _ h => h.elim

theorem write_succeeds (hb : b.Reliable) (row : Value) (hw : c.writer.isSome = true) :
    (write b row).Ends c
      (fun _ c' => c'.writer.isSome = true ∧ c'.tally = c.tally) (fun _ _ => False) := by
  obtain ⟨w, hw⟩ := Option.isSome_iff_exists.mp hw
  simp only [write, ends_bind, ends_get, hw]
  exact onWriter_succeeds (hb.write row)

theorem flush_succeeds (hb : b.Reliable) (limit : Value) (hw : c.writer.isSome = true) :
    (flush b limit).Ends c
      (fun done c' => done = true ∧ c'.tally = c.tally) (fun _ _ => False) := by
  obtain ⟨w, hw⟩ := Option.isSome_iff_exists.mp hw
  simp only [flush, ends_bind, ends_get, hw, onWriter, ends_focus]
  refine (hb.flush (w, c.world)).mono (fun done x hdone => ?_) fun _ _ h => h.elim
  rw [hdone, if_pos rfl, ends_bind]
  simp only [commitDone, say, ends_bind, ends_get]
  by_cases hf : c.window.failures ≠ 0
  · rw [if_pos hf]
    exact ⟨rfl, rfl⟩
  · rw [if_neg hf]
    exact ⟨rfl, rfl⟩

theorem patience_pos (limit : Value) (failures : Nat) : 0 < patience limit failures := by
  unfold patience
  split
  · split
    · exact Nat.succ_pos _
    · exact Nat.pow_pos (by decide)
  · exact Nat.succ_pos _
  · split
    · exact Nat.succ_pos _
    · exact Nat.pow_pos (by decide)

theorem updateSchema_succeeds (hb : b.Reliable) (limit : Value) (schema : Avro.Schema)
    (pending : Int) :
    (updateSchema b limit schema pending).Ends c
      (fun _ c' => c'.tally = c.tally) (fun _ _ => False) := by
  have hrest : ∀ c' : Coordinator W S, c'.tally = c.tally →
      (do
        close b
        let _ ← getOrCreate b schema
        Pure.pure true : Action (Coordinator W S) Bool).Ends c'
        (fun _ c' => c'.tally = c.tally) (fun _ _ => False) := by
    intro c' ht
    have hclose : (close b).Ends c' (fun _ c'' => c''.tally = c'.tally) (fun _ _ => False) := by
      simp only [close, ends_bind, ends_get]
      cases c'.writer with
      | none => rfl
      | some w =>
        simp only [say, ends_bind, ends_modify, ends_log, ends_focus]
        exact (hb.close (w, c'.world)).mono (fun _ _ _ => rfl) fun _ _ h => h
    rw [ends_bind]
    refine hclose.mono (fun _ c₁ h₁ => ?_) fun _ _ h => h
    rw [ends_bind]
    exact (getOrCreate_succeeds hb schema).mono (fun _ c₂ h₂ => h₂.2.trans (h₁.trans ht))
      fun _ _ h => h
  simp only [updateSchema, ends_bind, ends_get]
  cases hw : c.writer with
  | none =>
    simp only [ends_bind]
    exact (getOrCreate_succeeds hb schema).mono (fun _ _ h => h.2) fun _ _ h => h
  | some w =>
    simp only [ends_bind]
    refine (onWriter_succeeds (hb.updateSchema schema)).mono (fun replace c₁ h₁ => ?_)
      fun _ _ h => h
    cases replace with
    | false => exact h₁.2
    | true =>
      simp only [say, Bool.not_true, Bool.false_eq_true, if_false, ends_bind, ends_log]
      rw [ends_ite]
      refine ⟨fun _ => ?_, fun _ => hrest c₁ h₁.2⟩
      obtain ⟨tries, htries⟩ := Nat.exists_eq_succ_of_ne_zero
        (Nat.ne_of_gt (patience_pos limit c.window.failures))
      rw [htries, ends_bind, flushUntilDone, ends_bind]
      refine (flush_succeeds hb limit h₁.1).mono (fun done c₂ h₂ => ?_) fun _ _ h => h
      rw [h₂.1, if_pos rfl, ends_pure]
      exact hrest c₂ (h₂.2.trans h₁.2)

end Coordinator

/-! ## The loop -/

/-- It can always be said whether a commit is due. -/
def Thresholds.Comparable (t : Thresholds) : Prop := ∀ now w, ∃ due, t.isDue now w = .ok due

/-- What can be compared with one integer can be compared with any. -/
theorem Value.compared_int {f g : Ordering → Bool} {v : Value} {m : Int} {x : Bool}
    (h : compared f v (.int m) = .ok x) (n : Int) : ∃ y, compared g (.int n) v = .ok y := by
  have hint : (Value.int m).isNumber = true := rfl
  have hdefined : ∀ k, (Value.int k).isUndefinedDecimal = false := fun _ => rfl
  unfold compared at h ⊢
  rw [hint, hdefined] at h
  rw [show (Value.int n).isNumber = true from rfl, hdefined]
  cases hnumber : v.isNumber with
  | false => simp [hnumber] at h
  | true =>
    cases hundefined : v.isUndefinedDecimal with
    | true => simp [hnumber, hundefined] at h
    | false => exact ⟨_, rfl⟩

theorem Settings.requirePositive_ok {name : String} {v : Value}
    (h : Settings.requirePositive name v = .ok ()) : Value.atMost v (.int 0) = .ok false := by
  unfold requirePositive at h
  cases hv : Value.atMost v (.int 0) with
  | error f => rw [hv] at h; cases h
  | ok x =>
    rw [hv] at h
    cases x with
    | false => rfl
    | true => cases h

theorem Settings.requireNatural_ok {name : String} {v : Value}
    (h : Settings.requireNatural name v = .ok ()) : Value.fallsShortOf v (.int 0) = .ok false := by
  unfold requireNatural at h
  cases hv : Value.fallsShortOf v (.int 0) with
  | error f => rw [hv] at h; cases h
  | ok x =>
    rw [hv] at h
    cases x with
    | false => rfl
    | true => cases h

/-- What is known of the numbers that decide on commits once they were checked. -/
theorem Settings.validate_ok {s : Settings} (hs : s.validate = .ok ()) :
    Value.atMost s.maxRecordsPerCommit (.int 0) = .ok false ∧
      Value.fallsShortOf s.maxCommitFailedTimes (.int 0) = .ok false := by
  simp only [validate, Bind.bind, Except.bind] at hs
  cases hinterval : requirePositive "max_commit_interval" s.maxCommitInterval with
  | error f => rw [hinterval] at hs; cases hs
  | ok _ =>
    rw [hinterval] at hs
    dsimp only at hs
    cases hmax : requirePositive "max_records_per_commit" s.maxRecordsPerCommit with
    | error f => rw [hmax] at hs; cases hs
    | ok _ =>
      rw [hmax] at hs
      dsimp only at hs
      cases hlimit : requireNatural "max_commit_failed_times" s.maxCommitFailedTimes with
      | error f => rw [hlimit] at hs; cases hs
      | ok _ => exact ⟨requirePositive_ok hmax, requireNatural_ok hlimit⟩

/-- What a plan takes over from the settings. -/
theorem Plan.ofSettings_ok {s : Settings} {p : Plan} (hp : Plan.ofSettings s = .ok p) :
    FieldName.resolve s.overrideFieldName = .ok p.fieldName ∧
      p.thresholds.maxRecords = s.maxRecordsPerCommit ∧ p.limit = s.maxCommitFailedTimes := by
  simp only [Plan.ofSettings, Bind.bind, Except.bind] at hp
  cases hname : FieldName.resolve s.overrideFieldName with
  | error f => rw [hname] at hp; cases hp
  | ok fieldName =>
    rw [hname] at hp
    dsimp only at hp
    cases hinterval : s.commitIntervalSeconds.mapError Failure.data with
    | error f => rw [hinterval] at hp; cases hp
    | ok interval =>
      rw [hinterval] at hp
      cases hp
      exact ⟨rfl, rfl, rfl⟩

/-- Numbers that were checked can be compared with any count. -/
theorem Settings.comparable {s : Settings} (hs : s.validate = .ok ()) {p : Plan}
    (hp : Plan.ofSettings s = .ok p) : p.thresholds.Comparable := by
  intro now w
  rw [Thresholds.isDue, Thresholds.reached]
  by_cases hreached : p.thresholds.timeReached now w.lastCommit = true
  · exact ⟨true, if_pos hreached⟩
  · rw [if_neg hreached, (Plan.ofSettings_ok hp).2.1]
    exact Value.compared_int (Settings.validate_ok hs).1 _

namespace Loop

variable {p : Plan} {clock : Readings} {l : Loop W S}

/-- How many records were written, dropped and skipped. -/
def outcomes (l : Loop W S) : Nat × Nat × Nat :=
  (l.coordinator.totals.written, l.coordinator.totals.dropped, l.coordinator.totals.skipped)

theorem outcomes_of_tally {l' : Loop W S} (h : l'.coordinator.tally = l.coordinator.tally) :
    l'.outcomes = l.outcomes :=
  congrArg (fun t : Nat × Nat × Nat × Nat => (t.1, t.2.1, t.2.2.1)) h

theorem reset_succeeds (hb : b.Reliable) (now : Double) :
    (reset b now).Ends l (fun _ l' => l'.coordinator.tally = l.coordinator.tally)
      (fun _ _ => False) := by
  simp only [reset, acknowledgeLast, ends_bind, ends_get, ends_modify]
  cases l.last with
  | none => rfl
  | some d =>
    dsimp only
    by_cases hd : d.acknowledged = true
    · rw [if_pos hd]
      rfl
    · rw [if_neg hd]
      simp only [acknowledge, ends_bind, ends_modify, ends_onCoordinator, ends_focus]
      exact (hb.acknowledge d.record _).mono (fun _ _ _ => rfl) fun _ _ h => h

theorem commitIfDue_succeeds (hb : b.Reliable) (ht : p.thresholds.Comparable)
    (hw : l.coordinator.writer.isSome = true) :
    (commitIfDue p b clock).Ends l (fun _ l' => l'.coordinator.tally = l.coordinator.tally)
      (fun _ _ => False) := by
  simp only [commitIfDue, ends_bind, ends_get]
  rw [ends_ite]
  refine ⟨fun _ => ?_, fun _ => rfl⟩
  obtain ⟨due, hdue⟩ := ht clock.asked l.window
  have hlift : (Except.ok due).mapError Failure.data = .ok due := rfl
  rw [hdue, hlift, ends_bind, ends_lift_ok, ends_ite]
  refine ⟨fun _ => ?_, fun _ => rfl⟩
  rw [ends_bind, ends_onCoordinator]
  refine (Coordinator.flush_succeeds hb p.limit hw).mono (fun done c hc => ?_) fun _ _ h => h
  rw [hc.1, if_pos rfl]
  exact (reset_succeeds hb clock.committed).mono (fun _ l' h => h.trans hc.2) fun _ _ h => h

theorem bind_succeeds (hb : b.Reliable) (schema : Avro.Schema) (binding : Binding) :
    (bind p b clock schema binding).Ends l
      (fun _ l' => l'.coordinator.tally = l.coordinator.tally) (fun _ _ => False) := by
  simp only [bind, ends_bind, ends_get]
  rw [ends_ite]
  refine ⟨fun _ => ?_, fun _ => rfl⟩
  simp only [ends_bind, ends_onCoordinator, ends_modify]
  refine (Coordinator.updateSchema_succeeds hb p.limit schema _).mono (fun replaced c hc => ?_)
    fun _ _ h => h
  rw [ends_ite]
  refine ⟨fun _ => ?_, fun _ => hc⟩
  exact (reset_succeeds hb clock.replaced).mono (fun _ l' h => h.trans hc) fun _ _ h => h

theorem store_succeeds (hb : b.Reliable) (r : Record) (schema : Avro.Schema) (row : Value) :
    (store b r schema row).Ends l
      (fun _ l' => l'.coordinator.writer.isSome = true ∧
        l'.outcomes = (l.outcomes.1 + 1, l.outcomes.2.1, l.outcomes.2.2))
      (fun _ _ => False) := by
  simp only [store, ends_bind, ends_onCoordinator, ends_modify, ends_count]
  refine (Coordinator.getOrCreate_succeeds hb schema).mono (fun _ c hc => ?_) fun _ _ h => h
  refine (Coordinator.write_succeeds hb row hc.1).mono (fun _ c' hc' => ?_) fun _ _ h => h
  refine ⟨hc'.1, ?_⟩
  have htally : c'.tally = l.coordinator.tally := hc'.2.trans hc.2
  have houtcomes := congrArg (fun t : Nat × Nat × Nat × Nat => (t.1 + 1, t.2.1, t.2.2.1)) htally
  exact houtcomes

/-- One more record was written, dropped or skipped than before. -/
def Settles (l l' : Loop W S) : Prop :=
  l'.outcomes = (l.outcomes.1 + 1, l.outcomes.2.1, l.outcomes.2.2) ∨
    l'.outcomes = (l.outcomes.1, l.outcomes.2.1 + 1, l.outcomes.2.2) ∨
    l'.outcomes = (l.outcomes.1, l.outcomes.2.1, l.outcomes.2.2 + 1)

theorem Settles.of_eq {l₁ l' : Loop W S} (h : Settles l₁ l') (ho : l₁.outcomes = l.outcomes) :
    Settles l l' := by
  rw [Settles, ho] at h
  exact h

/-- A record that is admitted is written or dropped. -/
theorem deliver_succeeds (hb : b.Reliable) (ht : p.thresholds.Comparable) (r : Record)
    (schema : Avro.Schema) (binding : Binding) :
    (deliver p b clock r schema binding).Ends l (fun _ l' => Settles l l') (fun _ _ => False) := by
  simp only [deliver, ends_bind]
  refine (bind_succeeds hb schema binding).mono (fun _ l₁ h₁ => ?_) fun _ _ h => h
  have hsettles : ∀ l', Settles l₁ l' → Settles l l' := fun l' h =>
    h.of_eq (outcomes_of_tally h₁)
  rw [ends_decode, ends_ite]
  refine ⟨fun _ => hsettles _ (.inr (.inl rfl)), fun _ => ?_⟩
  rw [ends_bind]
  refine (store_succeeds hb r schema _).mono (fun _ l₂ h₂ => ?_) fun _ _ h => h
  refine (commitIfDue_succeeds hb ht h₂.1).mono (fun _ l₃ h₃ => ?_) fun _ _ h => h
  exact hsettles l₃ (.inl ((outcomes_of_tally h₃).trans h₂.2))

theorem outcomes_following (changed : Bool) (a : ActiveSchema) :
    (l.following changed a).outcomes = l.outcomes := by
  cases changed <;> rfl

theorem handle_succeeds (hb : b.Reliable) (ht : p.thresholds.Comparable) {r : Record}
    (h : ¬∃ f, (l.active.receive p.fieldName r).verdict = .refused f) :
    (handle p b clock r).Ends l (fun _ l' => Settles l l') (fun _ _ => False) := by
  refine handle_ends rfl (fun _ => .inr (.inr rfl)) (fun f hv => h ⟨f, hv⟩)
    fun schema binding _ => ?_
  exact (deliver_succeeds hb ht r schema binding).mono
    (fun _ _ hl' => hl'.of_eq (outcomes_following _ _)) fun _ _ h => h

theorem handle_fails {r : Record}
    (h : ∃ f, (l.active.receive p.fieldName r).verdict = .refused f) :
    (handle p b clock r).Ends l (fun _ _ => False) (fun _ _ => True) := by
  obtain ⟨f, hf⟩ := h
  refine handle_ends rfl (fun hv => ?_) (fun _ _ => trivial) fun schema binding hv => ?_
  · rw [hf] at hv
    cases hv
  · rw [hf] at hv
    cases hv

end Loop
end StreamTable
