/-
What the threads of a sink make of the records.  However their moves fall, the worker takes the
records in the order in which they were put into the queue, each once, and is done with them in that
order.  Every record that it is done with is counted once, but for at most one: that on which the
loop stopped.

`Shift` says all that a move can do.  What the threads keep true is proved from it, one kind of move
at a time, and then holds after all moves.  Moves that no other thread comes in between do what the
calls of a session do.
-/
import StreamTable.Proofs.Sink.Counts
import StreamTable.Proofs.Sink.Survival
import StreamTable.Proofs.Sink.Traced
import StreamTable.Sink.Threads

namespace StreamTable

open StreamTable.Action

variable {W S : Type} {b : Backend W S}

/-! ## The loop at the end of an iteration -/

/-- What becomes of the loop of an action, by how the action ends. -/
theorem Effect.halting_iff_ends {α : Type} {R : Loop W S → Prop} {a : Action (Loop W S) α}
    {l : Loop W S} : R (a.run l).halting ↔ a.Ends l (fun _ l' => R l')
      fun f l' => R { l' with running := false, lastError := some f } := by
  unfold Ends Effect.halting
  cases (a.run l).result with
  | ok x => exact Iff.rfl
  | error f => exact Iff.rfl

namespace Loop

variable {p : Plan} {clock : Readings} {l l' : Loop W S}

/-- What the end of an iteration does to a loop, if all goes well and if it does not. -/
def EndsIteration (Well Ill : Loop W S → Loop W S → Prop) (l l' : Loop W S) : Prop :=
  l'.queue = l.queue ∧
    ((l'.running = l.running ∧ l'.lastError = l.lastError ∧ Well l l') ∨
      (l'.running = false ∧ l'.lastError.isSome = true ∧ Ill l l'))

/-- A record that was handled is counted once, or the loop is stopped. -/
theorem handle_halting (p : Plan) (b : Backend W S) (clock : Readings) (r : Record)
    (l : Loop W S) :
    EndsIteration Settles Falters l ((handle p b clock r).run l).halting := by
  refine Effect.halting_iff_ends.mpr ?_
  refine ((handle_handled clock r l).and (handle_counts r)).mono (fun _ l' h => ?_)
    fun f l' h => ?_
  · exact ⟨h.1.queue, .inl ⟨h.1.running, h.1.lastError, h.2⟩⟩
  · exact ⟨h.1.queue, .inr ⟨rfl, rfl, h.2⟩⟩

/-- Nothing is counted if there was no record, whether a commit stops the loop or not. -/
theorem commitIfDue_halting (p : Plan) (b : Backend W S) (clock : Readings) (l : Loop W S) :
    EndsIteration (fun l l' => l'.outcomes = l.outcomes) (fun l l' => l'.outcomes = l.outcomes) l
      ((commitIfDue p b clock).run l).halting := by
  refine Effect.halting_iff_ends.mpr ?_
  refine (((commitIfDue_frame clock).ends l).and (commitIfDue_outcomes.ends l)).mono
    (fun _ l' h => ?_) fun f l' h => ?_
  · exact ⟨congrArg Frame.queue h.1, .inl ⟨congrArg Frame.running h.1,
      congrArg Frame.lastError h.1, h.2⟩⟩
  · exact ⟨congrArg Frame.queue h.1, .inr ⟨rfl, rfl, h.2⟩⟩

/-- A loop that is closed does not run, and has the queue that it had. -/
theorem close_stands (b : Backend W S) (l : Loop W S) :
    let l' := ((close b).run l).state
    l'.queue = l.queue ∧ l'.running = false ∧ l'.lastError = l.lastError := by
  let R := fun l' : Loop W S =>
    l'.queue = l.queue ∧ l'.running = false ∧ l'.lastError = l.lastError
  have hkeeps {α : Type} {a : Action (Loop W S) α} (ha : a.Preserves frame) : a.Maintains R := by
    intro l' h
    have hframe := ha l'
    exact ⟨(congrArg Frame.queue hframe).trans h.1, (congrArg Frame.running hframe).trans h.2.1,
      (congrArg Frame.lastError hframe).trans h.2.2⟩
  refine Ends.state (R := R) ?_
  rw [close, ends_bind, ends_modify]
  refine Maintains.ends (R := R) ?_ ⟨rfl, rfl, rfl⟩
  refine Maintains.bind maintains_get fun _ => maintains_ite (maintains_pure ()) ?_
  refine Maintains.bind (maintains_modify fun _ h => h) fun _ => ?_
  exact hkeeps (Preserves.bind (onCoordinator_frame _).attempt fun _ =>
    Preserves.bind acknowledgeLast_frame fun _ => preserves_lift _)

/-- An iteration of a loop that runs, and what it comes to. -/
theorem advance_state (p : Plan) (b : Backend W S) (clock : Readings) (timeout : Double)
    (hrunning : l.running = true) :
    ((advance p b clock timeout).run l).state = ((iterate p b clock timeout).run l).halting :=
  advance_cases (R := (· = ((iterate p b clock timeout).run l).halting))
    (fun hstopped => absurd hrunning (Bool.eq_false_iff.mp hstopped))
    fun _ => Effect.halting_iff_ends.mp rfl

theorem iterate_halting (p : Plan) (b : Backend W S) (clock : Readings) (timeout : Double)
    (l : Loop W S) :
    ((iterate p b clock timeout).run l).halting =
      match waitFault? timeout l.queue.isEmpty, l.queue with
      | some fault, _ => { l with running := false, lastError := some (.data fault) }
      | none, [] => ((commitIfDue p b clock).run l).halting
      | none, r :: rest => ((handle p b clock r).run { l with queue := rest }).halting := by
  refine Effect.halting_iff_ends (R := (· = _)).mpr ?_
  rw [iterate, ends_bind, ends_get]
  cases waitFault? timeout l.queue.isEmpty with
  | some fault => exact rfl
  | none =>
    cases l.queue with
    | nil =>
      simp only [ends_bind, ends_pure]
      exact Effect.halting_iff_ends.mp rfl
    | cons r rest =>
      simp only [ends_bind, ends_modify, ends_pure]
      exact Effect.halting_iff_ends.mp rfl

end Loop

/-! ## What became of a record -/

namespace Fate

variable {l l' : Loop W S}

/-- The counts with one more for a fate. -/
def count (f : Fate) (counts : Nat × Nat × Nat) : Nat × Nat × Nat :=
  match f with
  | written => (counts.1 + 1, counts.2.1, counts.2.2)
  | dropped => (counts.1, counts.2.1 + 1, counts.2.2)
  | skipped => (counts.1, counts.2.1, counts.2.2 + 1)
  | fatal => counts

theorem of_outcomes (l l' : Loop W S) :
    of l.coordinator.totals l'.coordinator.totals =
      if l.outcomes.1 < l'.outcomes.1 then written
      else if l.outcomes.2.1 < l'.outcomes.2.1 then dropped
      else if l.outcomes.2.2 < l'.outcomes.2.2 then skipped
      else fatal := rfl

/-- A record that was handled well has a fate, and is counted by it. -/
theorem of_settles (h : Loop.Settles l l') :
    let f := of l.coordinator.totals l'.coordinator.totals
    f ≠ fatal ∧ l'.outcomes = f.count l.outcomes := by
  rw [of_outcomes]
  obtain h | h | h := h
  · simp [h, count]
  · simp [h, count]
  · simp [h, count]

theorem of_falters (h : Loop.Falters l l') :
    l'.outcomes = (of l.coordinator.totals l'.coordinator.totals).count l.outcomes := by
  rw [of_outcomes]
  obtain h | h := h
  · simp [h, count]
  · simp [h, count]

end Fate

namespace Threads

variable {t t' : Threads W S}

/-! ## What a move can do -/

/-- How a move changes the state. -/
inductive Shift (b : Backend W S) (t : Threads W S) : Threads W S → Prop where
  /-- A thread goes on with what it is about, or is done with it. -/
  | errand (i : Nat) (e : Errand) (hclosing : e ≠ .closing)
      (hdraining : ∀ n looked, e = .draining n looked →
        n = t.accepted.length ∨ ∃ looked', t.errands i = .draining n looked') :
      Shift b t (t.withErrand i e)
  | stop (i : Nat) : Shift b t ((t.withLoop t.loop.stop).withErrand i .closing)
  | accept (i : Nat) (r : Record) : Shift b t ((t.accept r).withErrand i .nothing)
  | drained (i n : Nat) (herrand : t.errands i = .draining n true) (hqueue : t.loop.queue = []) :
      Shift b t ({ t with drained := t.drained ++ [n] }.withErrand i .nothing)
  | release (i : Nat) (herrand : t.errands i = .closing) (hiteration : t.iteration = none) :
      Shift b t ((t.release b).withErrand i .nothing)
  | enter (timeout : Double) (hiteration : t.iteration = none) (hrunning : t.loop.running = true) :
      Shift b t { t with iteration := some (.waiting timeout) }
  | take (timeout : Double) (r : Record) (rest : List Record)
      (hiteration : t.iteration = some (.waiting timeout)) (hqueue : t.loop.queue = r :: rest)
      (hwait : Loop.waitFault? timeout false = none) : Shift b t (t.take r rest)
  | vain (timeout : Double) (hiteration : t.iteration = some (.waiting timeout))
      (hqueue : t.loop.queue = []) (hwait : Loop.waitFault? timeout true = none) :
      Shift b t { t with iteration := some .busy }
  | fault (timeout : Double) (fault : DataFault) (hiteration : t.iteration = some (.waiting timeout))
      (hwait : Loop.waitFault? timeout t.loop.queue.isEmpty = some fault) :
      Shift b t (t.leave { t.loop with running := false, lastError := some (.data fault) })
  | settle (clock : Readings) (r : Record) (hiteration : t.iteration = some .busy)
      (hprocess : t.session.inProcess = some r) : Shift b t (t.settle b clock r)
  | commit (clock : Readings) (hiteration : t.iteration = some .busy)
      (hprocess : t.session.inProcess = none) :
      Shift b t (t.leave ((Loop.commitIfDue t.session.plan b clock).run t.loop).halting)

/-- A move does one of these. -/
theorem shift_of_step {m : Move} (h : t.step b m = some t') : Shift b t t' := by
  cases m with
  | write i r =>
    simp only [step] at h
    split at h <;> cases h
    exact .errand i _ nofun nofun
  | drain i =>
    simp only [step] at h
    split at h <;> cases h
    exact .errand i _ nofun fun n looked he => by cases he; exact .inl rfl
  | close i =>
    simp only [step] at h
    split at h <;> cases h
    exact .stop i
  | look i =>
    simp only [step] at h
    split at h <;> cases h
    · exact .errand i _ (by split <;> nofun) (by split <;> nofun)
    · rename_i n herrand
      refine .errand i _ (by split <;> nofun) fun n' looked he => .inr ⟨false, ?_⟩
      split at he <;> cases he
      exact herrand
  | reach i =>
    simp only [step] at h
    split at h
    · split at h <;> cases h
      exact .accept i _
    · split at h <;> cases h
      exact .drained i _ ‹_› (List.isEmpty_iff.mp ‹_›)
    · cases h
  | retry i =>
    simp only [step] at h
    split at h
    · split at h <;> cases h
      exact .errand i _ nofun nofun
    · split at h <;> cases h
      exact .errand i _ nofun fun n' looked he => by cases he; exact .inr ⟨true, ‹_›⟩
    · cases h
  | giveUp i =>
    simp only [step] at h
    split at h <;> cases h
    · exact .errand i _ nofun nofun
    · exact .errand i _ nofun nofun
  | release i =>
    simp only [step] at h
    split at h <;> cases h
    exact .release i ‹_› ‹_›
  | enter timeout =>
    simp only [step] at h
    split at h
    · split at h <;> cases h
      exact .enter timeout ‹_› ‹_›
    · cases h
  | take =>
    simp only [step] at h
    split at h
    · split at h <;> cases h
      exact .take _ _ _ ‹_› ‹_› (Option.isNone_iff_eq_none.mp ‹_›)
    · cases h
  | expire =>
    simp only [step] at h
    split at h
    · split at h
      · cases h
        exact .fault _ _ ‹_› ‹_›
      · rename_i hwait
        split at h <;> cases h
        rename_i hqueue
        rw [hqueue] at hwait
        exact .vain _ ‹_› (List.isEmpty_iff.mp hqueue) hwait
    · cases h
  | finish clock =>
    simp only [step] at h
    split at h <;> cases h
    · exact .settle clock _ ‹_› ‹_›
    · exact .commit clock ‹_› ‹_›

/-! ## What the threads keep true -/

/-- Who can still do something: the worker of a loop that runs, or one that is in an iteration. -/
structure Governed (t : Threads W S) : Prop where
  busy : t.iteration ≠ some .busy → t.session.inProcess = none
  failed : t.loop.lastError.isSome = true → t.loop.running = false ∧ t.iteration = none
  closed : t.closed = true → t.loop.running = false ∧ t.iteration = none
  closing : ∀ i, t.errands i = .closing → t.loop.running = false

/-- Where the records are. -/
structure Ordered (t : Threads W S) : Prop where
  queued : t.accepted = t.taken ++ t.loop.queue
  held : t.taken = t.settled.map Prod.fst ++ t.session.inProcess.toList

/-- How many of the records that the worker is done with had a fate. -/
def ended (t : Threads W S) (f : Fate) : Nat := (t.settled.map Prod.snd).count f

/-- Every record that the worker is done with had one fate. -/
theorem settled_length (t : Threads W S) :
    t.ended .written + t.ended .dropped + t.ended .skipped + t.ended .fatal = t.settled.length := by
  unfold ended
  induction t.settled with
  | nil => rfl
  | cons x settled ih =>
    simp only [List.map_cons, List.count_cons, List.length_cons, ← ih]
    cases x.2 <;> simp <;> omega

/-- How the records are counted. -/
structure Counted (t : Threads W S) : Prop where
  outcomes : t.loop.outcomes = (t.ended .written, t.ended .dropped, t.ended .skipped)
  fatal : t.ended .fatal ≤ if t.loop.lastError.isSome then 1 else 0

/-- What the threads that wait for the sink to drain know. -/
structure Awaited (t : Threads W S) : Prop where
  draining : ∀ i n looked, t.errands i = .draining n looked → n ≤ t.accepted.length
  drained : ∀ n ∈ t.drained, n ≤ t.taken.length

theorem withErrand_cases {i j : Nat} {e e' : Errand} (h : (t.withErrand i e).errands j = e') :
    e = e' ∨ t.errands j = e' := by
  by_cases hij : j = i
  · exact .inl ((if_pos hij).symm.trans h)
  · exact .inr ((if_neg hij).symm.trans h)

namespace Governed

variable (h : t.Governed)
include h

/-- No thread can come to wait for the lock unless it stops the loop. -/
theorem withErrand (i : Nat) {e : Errand} (he : e ≠ .closing ∨ t.loop.running = false) :
    (t.withErrand i e).Governed := by
  refine ⟨h.busy, h.failed, h.closed, fun j hj => ?_⟩
  obtain hc | hc := withErrand_cases hj
  · exact he.resolve_left fun hne => hne hc
  · exact h.closing j hc

theorem stop : (t.withLoop t.loop.stop).Governed :=
  ⟨h.busy, fun hf => ⟨rfl, (h.failed hf).2⟩, fun hc => ⟨rfl, (h.closed hc).2⟩, fun _ _ => rfl⟩

theorem release (hiteration : t.iteration = none) : (t.release b).Governed := by
  obtain ⟨-, hrunning, -⟩ := Loop.close_stands b t.loop
  exact ⟨h.busy, fun _ => ⟨hrunning, hiteration⟩, fun _ => ⟨hrunning, hiteration⟩, fun _ _ => hrunning⟩

theorem enter (timeout : Double) (hiteration : t.iteration = none)
    (hrunning : t.loop.running = true) :
    ({ t with iteration := some (.waiting timeout) } : Threads W S).Governed := by
  refine ⟨fun _ => h.busy (by rw [hiteration]; nofun), fun hf => ?_, fun hc => ?_, h.closing⟩
  · exact absurd hrunning (Bool.eq_false_iff.mp (h.failed hf).1)
  · exact absurd hrunning (Bool.eq_false_iff.mp (h.closed hc).1)

/-- While the worker is in an iteration, no iteration has failed and the sink is not closed. -/
theorem not_failed {stage : Stage} (hiteration : t.iteration = some stage) :
    t.loop.lastError = none := by
  cases hf : t.loop.lastError with
  | none => rfl
  | some f =>
    have hnone := (h.failed (by rw [hf]; rfl)).2
    rw [hiteration] at hnone
    cases hnone

theorem not_closed {stage : Stage} (hiteration : t.iteration = some stage) : ¬t.closed = true := by
  intro hc
  have hnone := (h.closed hc).2
  rw [hiteration] at hnone
  cases hnone

theorem leave {stage : Stage} (hiteration : t.iteration = some stage)
    {Well Ill : Loop W S → Loop W S → Prop} {l : Loop W S}
    (hends : Loop.EndsIteration Well Ill t.loop l) : (t.leave l).Governed := by
  refine ⟨fun _ => rfl, fun hf => ?_, fun hc => absurd hc (h.not_closed hiteration), fun i hi => ?_⟩
  · obtain ⟨-, ⟨-, herror, -⟩ | ⟨hrunning, -, -⟩⟩ := hends
    · have hsome : l.lastError.isSome = true := hf
      rw [herror, h.not_failed hiteration] at hsome
      cases hsome
    · exact ⟨hrunning, rfl⟩
  · obtain ⟨-, ⟨hrunning, -, -⟩ | ⟨hrunning, -, -⟩⟩ := hends
    · exact hrunning.trans (h.closing i hi)
    · exact hrunning

/-- The worker is done with waiting. -/
theorem busied {stage : Stage} (hiteration : t.iteration = some stage) {s : Session W S}
    {taken : List Record} (hloop : s.loop.running = t.loop.running ∧ s.loop.lastError = none) :
    ({ t with session := s, iteration := some .busy, taken := taken } : Threads W S).Governed := by
  refine ⟨fun hne => absurd rfl hne, fun hf => ?_, fun hc => absurd hc (h.not_closed hiteration),
    fun i hi => hloop.1.trans (h.closing i hi)⟩
  have hsome : s.loop.lastError.isSome = true := hf
  rw [hloop.2] at hsome
  cases hsome

theorem shift (hs : t.Shift b t') : t'.Governed := by
  cases hs with
  | errand i e hclosing _ => exact h.withErrand i (.inl hclosing)
  | stop i => exact h.stop.withErrand i (.inr rfl)
  | accept i r =>
    have haccept : (t.accept r).Governed := ⟨h.busy, h.failed, h.closed, h.closing⟩
    exact haccept.withErrand i (.inl nofun)
  | drained i n _ _ =>
    have hdrained : ({ t with drained := t.drained ++ [n] } : Threads W S).Governed :=
      ⟨h.busy, h.failed, h.closed, h.closing⟩
    exact hdrained.withErrand i (.inl nofun)
  | release i _ hiteration => exact (h.release hiteration).withErrand i (.inl nofun)
  | enter timeout hiteration hrunning => exact h.enter timeout hiteration hrunning
  | take timeout r rest hiteration _ _ => exact h.busied hiteration ⟨rfl, h.not_failed hiteration⟩
  | vain timeout hiteration _ _ => exact h.busied hiteration ⟨rfl, h.not_failed hiteration⟩
  | fault timeout fault hiteration _ =>
    have hends : Loop.EndsIteration (fun _ _ => False) (fun _ _ => True) t.loop
        { t.loop with running := false, lastError := some (.data fault) } :=
      ⟨rfl, .inr ⟨rfl, rfl, trivial⟩⟩
    exact h.leave hiteration hends
  | settle clock r hiteration _ =>
    have hleave := h.leave hiteration (Loop.handle_halting t.session.plan b clock r t.loop)
    exact ⟨hleave.busy, hleave.failed, hleave.closed, hleave.closing⟩
  | commit clock hiteration _ =>
    exact h.leave hiteration (Loop.commitIfDue_halting t.session.plan b clock t.loop)

end Governed

/-- What is accepted is taken in order, and what is taken is settled in order. -/
theorem Ordered.shift (h : t.Ordered) (hg : t.Governed) (hs : t.Shift b t') : t'.Ordered := by
  cases hs with
  | accept i r =>
    refine ⟨?_, h.held⟩
    show t.accepted ++ [r] = t.taken ++ (t.loop.queue ++ [r])
    rw [h.queued, List.append_assoc]
  | release i _ _ =>
    refine ⟨?_, h.held⟩
    show t.accepted = t.taken ++ ((Loop.close b).run t.loop).state.queue
    rw [(Loop.close_stands b t.loop).1]
    exact h.queued
  | take timeout r rest hiteration hqueue _ =>
    have hfree := hg.busy (by rw [hiteration]; nofun)
    constructor
    · show t.accepted = (t.taken ++ [r]) ++ rest
      rw [h.queued, hqueue, List.append_assoc]
      rfl
    · show t.taken ++ [r] = t.settled.map Prod.fst ++ [r]
      rw [h.held, hfree, Option.toList_none, List.append_nil]
  | fault timeout fault hiteration _ =>
    have hfree := hg.busy (by rw [hiteration]; nofun)
    have hheld := h.held
    rw [hfree] at hheld
    exact ⟨h.queued, hheld⟩
  | settle clock r _ hprocess =>
    obtain ⟨hqueue, -⟩ := Loop.handle_halting t.session.plan b clock r t.loop
    constructor
    · show t.accepted = t.taken ++ ((Loop.handle t.session.plan b clock r).run t.loop).halting.queue
      rw [hqueue]
      exact h.queued
    · show t.taken = (t.settled ++ [(r, _)]).map Prod.fst ++ []
      rw [h.held, hprocess, List.map_append, List.append_nil]
      rfl
  | commit clock _ hprocess =>
    obtain ⟨hqueue, -⟩ := Loop.commitIfDue_halting t.session.plan b clock t.loop
    have hheld := h.held
    rw [hprocess] at hheld
    refine ⟨?_, hheld⟩
    show t.accepted = t.taken ++ ((Loop.commitIfDue t.session.plan b clock).run t.loop).halting.queue
    rw [hqueue]
    exact h.queued
  | errand | stop | drained | enter | vain => exact ⟨h.queued, h.held⟩

theorem ended_append (t t' : Threads W S) {r : Record} {f : Fate}
    (hsettled : t'.settled = t.settled ++ [(r, f)]) :
    (t'.ended .written, t'.ended .dropped, t'.ended .skipped) =
        f.count (t.ended .written, t.ended .dropped, t.ended .skipped) ∧
      t'.ended .fatal = t.ended .fatal + if f = .fatal then 1 else 0 := by
  unfold ended
  rw [hsettled]
  simp only [List.map_append, List.map_cons, List.map_nil, List.count_append]
  cases f <;> exact ⟨rfl, rfl⟩

/-- A record that the worker is done with is counted by its fate. -/
theorem Counted.settle (h : t.Counted) (hfailed : t.loop.lastError = none) (clock : Readings)
    (r : Record) : (t.settle b clock r).Counted := by
  obtain ⟨-, hends⟩ := Loop.handle_halting t.session.plan b clock r t.loop
  obtain ⟨hcounts, hfatal⟩ := ended_append t (t.settle b clock r) rfl
  have hnone := h.fatal
  rw [hfailed] at hnone
  rw [Nat.le_zero.mp hnone] at hfatal
  obtain ⟨-, -, hwell⟩ | ⟨-, herror, hill⟩ := hends
  · obtain ⟨hne, houtcomes⟩ := Fate.of_settles hwell
    constructor
    · rw [hcounts, ← h.outcomes]
      exact houtcomes
    · rw [hfatal, if_neg hne]
      exact Nat.zero_le _
  · constructor
    · rw [hcounts, ← h.outcomes]
      exact Fate.of_falters hill
    · have hstopped : (t.settle b clock r).loop.lastError.isSome = true := herror
      rw [hfatal, if_pos hstopped]
      split <;> decide

/-- A record that is not counted is the one on which the loop stops. -/
theorem settle_fatal (clock : Readings) (r : Record)
    (h : Fate.of t.loop.coordinator.totals (t.settle b clock r).loop.coordinator.totals = .fatal) :
    ∃ f, ((Loop.handle t.session.plan b clock r).run t.loop).result = .error f ∧
      (t.settle b clock r).loop.lastError = some f := by
  have hends : (Loop.handle t.session.plan b clock r).Ends t.loop _ _ := Loop.handle_counts r
  change Fate.of _ ((Loop.handle t.session.plan b clock r).run t.loop).halting.coordinator.totals = _
    at h
  show ∃ f, _ ∧ ((Loop.handle t.session.plan b clock r).run t.loop).halting.lastError = some f
  unfold Ends at hends
  unfold Effect.halting at h ⊢
  cases hr : ((Loop.handle t.session.plan b clock r).run t.loop).result with
  | ok _ =>
    rw [hr] at hends h
    exact absurd h (Fate.of_settles hends).1
  | error f => exact ⟨f, rfl, rfl⟩

theorem Counted.shift (h : t.Counted) (hg : t.Governed) (hs : t.Shift b t') : t'.Counted := by
  cases hs with
  | release i _ _ =>
    have htotals := Loop.close_totals b t.loop
    refine ⟨(congrArg (fun c : Totals => (c.written, c.dropped, c.skipped)) htotals).trans
      h.outcomes, ?_⟩
    show t.ended .fatal ≤ if ((Loop.close b).run t.loop).state.lastError.isSome then 1 else 0
    rw [(Loop.close_stands b t.loop).2.2]
    exact h.fatal
  | fault timeout fault hiteration _ =>
    have hfatal := h.fatal
    rw [hg.not_failed hiteration] at hfatal
    exact ⟨h.outcomes, Nat.le_succ_of_le hfatal⟩
  | settle clock r hiteration _ => exact h.settle (hg.not_failed hiteration) clock r
  | commit clock hiteration _ =>
    have hfatal := h.fatal
    rw [hg.not_failed hiteration] at hfatal
    have hends := (Loop.commitIfDue_halting t.session.plan b clock t.loop).2
    refine ⟨?_, Nat.le_trans hfatal (Nat.zero_le _)⟩
    obtain ⟨-, -, houtcomes⟩ | ⟨-, -, houtcomes⟩ := hends
    · exact houtcomes.trans h.outcomes
    · exact houtcomes.trans h.outcomes
  | errand | stop | accept | drained | enter | take | vain => exact ⟨h.outcomes, h.fatal⟩

namespace Awaited

variable (h : t.Awaited)
include h

theorem withErrand (i : Nat) {e : Errand}
    (he : ∀ n looked, e = .draining n looked → n ≤ t.accepted.length) :
    (t.withErrand i e).Awaited := by
  refine ⟨fun j n looked hj => ?_, h.drained⟩
  obtain hc | hc := withErrand_cases hj
  · exact he n looked hc
  · exact h.draining j n looked hc

theorem shift (ho : t.Ordered) (hs : t.Shift b t') : t'.Awaited := by
  cases hs with
  | errand i e _ hdraining =>
    refine h.withErrand i fun n looked he => ?_
    obtain rfl | ⟨looked', herrand⟩ := hdraining n looked he
    · exact Nat.le_refl _
    · exact h.draining i n looked' herrand
  | stop i =>
    have hstop : (t.withLoop t.loop.stop).Awaited := ⟨h.draining, h.drained⟩
    exact hstop.withErrand i nofun
  | accept i r =>
    have haccept : (t.accept r).Awaited := by
      refine ⟨fun j n looked hj => ?_, h.drained⟩
      show n ≤ (t.accepted ++ [r]).length
      rw [List.length_append]
      exact Nat.le_add_right_of_le (h.draining j n looked hj)
    exact haccept.withErrand i nofun
  | drained i n herrand hqueue =>
    have hall : t.accepted = t.taken := by rw [ho.queued, hqueue, List.append_nil]
    have hdrained : ({ t with drained := t.drained ++ [n] } : Threads W S).Awaited := by
      refine ⟨h.draining, fun m hm => ?_⟩
      obtain hm | hm := List.mem_append.mp hm
      · exact h.drained m hm
      · rw [List.mem_singleton.mp hm]
        exact hall ▸ h.draining i n true herrand
    exact hdrained.withErrand i nofun
  | release i _ _ =>
    have hrelease : (t.release b).Awaited := ⟨h.draining, h.drained⟩
    exact hrelease.withErrand i nofun
  | take timeout r rest _ _ _ =>
    refine ⟨h.draining, fun n hn => ?_⟩
    show n ≤ (t.taken ++ [r]).length
    rw [List.length_append]
    exact Nat.le_add_right_of_le (h.drained n hn)
  | enter | vain | fault | settle | commit => exact ⟨h.draining, h.drained⟩

end Awaited

/-- All that the threads keep true. -/
structure Accounted (t : Threads W S) : Prop where
  governed : t.Governed
  ordered : t.Ordered
  counted : t.Counted
  awaited : t.Awaited

theorem Accounted.step {m : Move} (h : t.Accounted) (hm : t.step b m = some t') : t'.Accounted := by
  have hs := shift_of_step hm
  exact ⟨h.governed.shift hs, h.ordered.shift h.governed hs, h.counted.shift h.governed hs,
    h.awaited.shift h.ordered hs⟩

theorem Accounted.play {moves : List Move} (h : t.Accounted)
    (hplay : Threads.play b moves t = some t') : t'.Accounted := by
  induction moves generalizing t with
  | nil =>
    cases hplay
    exact h
  | cons m moves ih =>
    obtain ⟨t₁, hm, hmoves⟩ := Option.bind_eq_some_iff.mp hplay
    exact ih (h.step hm) hmoves

theorem start_accounted {settings : Settings} {world : S} {now : Double} {s : Session W S}
    (h : Session.start settings world now = .ok s) : (start s).Accounted := by
  obtain ⟨plan, -, hs⟩ := Except.of_bind_ok h
  cases hs
  exact ⟨⟨fun _ => rfl, nofun, nofun, nofun⟩, ⟨rfl, rfl⟩, ⟨rfl, Nat.le_refl 0⟩, ⟨nofun, nofun⟩⟩

/-! ## When nothing more is taken -/

/-- The worker is in no iteration, and none can begin. -/
structure Over (t : Threads W S) : Prop where
  iteration : t.iteration = none
  running : t.loop.running = false

theorem Governed.over (h : t.Governed) (hend : t.closed = true ∨ t.loop.lastError.isSome = true) :
    t.Over := by
  obtain hc | hf := hend
  · exact ⟨(h.closed hc).2, (h.closed hc).1⟩
  · exact ⟨(h.failed hf).2, (h.failed hf).1⟩

theorem Over.step {m : Move} (h : t.Over) (hm : t.step b m = some t') :
    t'.Over ∧ t'.taken = t.taken := by
  cases shift_of_step hm with
  | errand | accept | drained => exact ⟨⟨h.iteration, h.running⟩, rfl⟩
  | stop i => exact ⟨⟨h.iteration, rfl⟩, rfl⟩
  | release i _ _ => exact ⟨⟨h.iteration, (Loop.close_stands b t.loop).2.1⟩, rfl⟩
  | enter timeout _ hrunning => exact absurd hrunning (Bool.eq_false_iff.mp h.running)
  | take timeout r rest hiteration _ _ => exact nomatch h.iteration.symm.trans hiteration
  | vain timeout hiteration _ _ => exact nomatch h.iteration.symm.trans hiteration
  | fault timeout fault hiteration _ => exact nomatch h.iteration.symm.trans hiteration
  | settle clock r hiteration _ => exact nomatch h.iteration.symm.trans hiteration
  | commit clock hiteration _ => exact nomatch h.iteration.symm.trans hiteration

theorem Over.play {moves : List Move} (h : t.Over) (hplay : Threads.play b moves t = some t') :
    t'.taken = t.taken := by
  induction moves generalizing t with
  | nil =>
    cases hplay
    rfl
  | cons m moves ih =>
    obtain ⟨t₁, hm, hmoves⟩ := Option.bind_eq_some_iff.mp hplay
    obtain ⟨hover, htaken⟩ := h.step hm
    exact (ih hover hmoves).trans htaken

/-! ## Moves that no other thread comes in between

They do what the calls of a session do. -/

section Alone

variable {i : Nat} {r : Record} {s : Session W S}

@[simp]
theorem withErrand_self (i : Nat) (e : Errand) : (t.withErrand i e).errands i = e := if_pos rfl

@[simp]
theorem withErrand_loop (i : Nat) (e : Errand) : (t.withErrand i e).loop = t.loop := rfl

@[simp]
theorem withErrand_session (i : Nat) (e : Errand) : (t.withErrand i e).session = t.session := rfl

theorem play_cons {m : Move} {moves : List Move} (t' : Threads W S) (h : t.step b m = some t') :
    play b (m :: moves) t = play b moves t' := by
  rw [play, h, Option.bind_some]

theorem writer_alone (hidle : t.errands i = .nothing) (hoffer : t.session.offer r = .ok s) :
    ∃ t', play b [.write i r, .look i, .reach i] t = some t' ∧ t'.session = s ∧
      t'.accepted = t.accepted ++ [r] := by
  obtain ⟨hrunning, hfull, rfl⟩ : t.loop.running = true ∧ t.session.isFull = false ∧
      (t.accept r).session = s := by
    unfold Session.offer at hoffer
    split at hoffer
    · cases hoffer
    · rename_i hrunning
      split at hoffer
      · cases hoffer
      · rename_i hfull
        rw [Bool.not_eq_true, Bool.not_eq_false'] at hrunning
        exact ⟨hrunning, Bool.eq_false_iff.mpr hfull, Except.ok.inj hoffer⟩
  let t₁ := t.withErrand i (.writing r false)
  let t₂ := t₁.withErrand i (.writing r true)
  refine ⟨(t₂.accept r).withErrand i .nothing, ?_, rfl, rfl⟩
  rw [play_cons t₁ (by simp [step, hidle, t₁]),
    play_cons t₂ (by simp [step, hrunning, t₁, t₂]),
    play_cons ((t₂.accept r).withErrand i .nothing) (by simp [step, hfull, t₁, t₂])]
  rfl

theorem drainer_alone (hidle : t.errands i = .nothing) (hdrained : t.session.isDrained = true) :
    ∃ t', play b [.drain i, .look i, .reach i] t = some t' ∧ t'.session = t.session ∧
      t'.drained = t.drained ++ [t.accepted.length] := by
  obtain ⟨hrunning, hqueue⟩ : t.loop.running = true ∧ t.loop.queue.isEmpty = true :=
    Bool.and_eq_true_iff.mp hdrained
  let t₁ := t.withErrand i (.draining t.accepted.length false)
  let t₂ := t₁.withErrand i (.draining t.accepted.length true)
  let t₃ := { t₂ with drained := t.drained ++ [t.accepted.length] }.withErrand i .nothing
  have hempty : t₂.loop.queue.isEmpty = true := hqueue
  have hreach : t₂.step b (.reach i) = some t₃ := by
    rw [step, show t₂.errands i = .draining t.accepted.length true from withErrand_self i _]
    exact if_pos hempty
  refine ⟨t₃, ?_, rfl, rfl⟩
  rw [play_cons t₁ (by simp [step, hidle, t₁]),
    play_cons t₂ (by simp [step, hrunning, t₁, t₂]), play_cons t₃ hreach]
  rfl

theorem closer_alone (hidle : t.errands i = .nothing) (hiteration : t.iteration = none) :
    ∃ t', play b [.close i, .release i] t = some t' ∧
      t'.session = ((Session.close b).run t.session).state ∧ t'.closed = true := by
  let t₁ := (t.withLoop t.loop.stop).withErrand i .closing
  have hfree : t₁.iteration = none := hiteration
  refine ⟨(t₁.release b).withErrand i .nothing, ?_, rfl, rfl⟩
  rw [play_cons t₁ (by simp [step, hidle, t₁]),
    play_cons ((t₁.release b).withErrand i .nothing) (by simp [step, hfree, t₁])]
  rfl

/-- The worker takes one iteration of the loop, as far as the loop goes. -/
theorem worker_alone (hiteration : t.iteration = none) (hfree : t.session.inProcess = none)
    (hrunning : t.loop.running = true) (clock : Readings) (timeout : Double) :
    ∃ moves t', play b moves t = some t' ∧ t'.iteration = none ∧ t'.session = { t.session with
      inProcess := none
      loop := ((Loop.advance t.session.plan b clock timeout).run t.loop).state } := by
  have hqueue₁ : ∀ stage, ({ t with iteration := some stage } : Threads W S).loop.queue =
      t.loop.queue := fun _ => rfl
  let t₁ := { t with iteration := some (.waiting timeout) }
  have henter : t.step b (.enter timeout) = some t₁ := by simp [step, hiteration, hrunning, t₁]
  generalize hl : ((Loop.advance t.session.plan b clock timeout).run t.loop).state = l
  rw [Loop.advance_state _ b clock timeout hrunning, Loop.iterate_halting] at hl
  split at hl
  · rename_i fault hfault
    refine ⟨[.enter timeout, .expire], t₁.leave l, ?_, rfl, rfl⟩
    rw [play_cons t₁ henter]
    simp only [play, step, hqueue₁, hfault, t₁, ← hl]
    rfl
  · rename_i hfault hqueue
    refine ⟨[.enter timeout, .expire, .finish clock], t₁.leave l, ?_, rfl, rfl⟩
    rw [hqueue] at hfault
    rw [play_cons t₁ henter]
    simp only [play, step, hqueue₁, hqueue, hfault, t₁]
    simp [hfree, ← hl, leave, loop]
  · rename_i r rest hfault hqueue
    rw [hqueue] at hfault
    have hnone : Loop.waitFault? timeout false = none := hfault
    refine ⟨[.enter timeout, .take, .finish clock], (t₁.take r rest).settle b clock r, ?_, rfl, ?_⟩
    · rw [play_cons t₁ henter]
      simp only [play, step, hqueue₁, hqueue, hnone, t₁]
      rfl
    · rw [← hl]
      rfl

end Alone

/-! ## The records of a sink -/

/-- However the threads of a sink that was opened move, its worker takes the records that were put
into the queue in their order, and none any more once the sink is closed or an iteration has failed.
Each record that it took is counted once, unless it is in process or is the one record on which the
loop stopped.  Once the sink is closed, the worker is done with every record that was accepted before
a thread began to wait that found the sink drained. -/
theorem records_handed_over {settings : Settings} {world : S} {now : Double} {s : Session W S}
    (hopen : Session.start settings world now = .ok s) {moves : List Move} {t : Threads W S}
    (hplay : play b moves (start s) = some t) :
    let totals := t.loop.coordinator.totals
    t.accepted = t.taken ++ t.loop.queue ∧
    (t.closed = true ∨ t.loop.lastError.isSome = true →
      ∀ more t', play b more t = some t' → t'.taken = t.taken) ∧
    (totals.written = t.ended .written ∧ totals.dropped = t.ended .dropped ∧
      totals.skipped = t.ended .skipped) ∧
    t.taken.length = totals.written + totals.dropped + totals.skipped + t.ended .fatal +
      t.session.inProcess.toList.length ∧
    t.ended .fatal ≤ (if t.loop.lastError.isSome then 1 else 0) ∧
    (t.closed = true → ∀ n ∈ t.drained, t.accepted.take n <+: t.settled.map Prod.fst) := by
  have h := (start_accounted hopen).play hplay
  obtain ⟨hwritten, hrest⟩ := Prod.mk.inj h.counted.outcomes
  obtain ⟨hdropped, hskipped⟩ := Prod.mk.inj hrest
  refine ⟨h.ordered.queued, fun hend more t' hmore => (h.governed.over hend).play hmore,
    ⟨hwritten, hdropped, hskipped⟩, ?_, h.counted.fatal, fun hclosed n hn => ?_⟩
  · rw [hwritten, hdropped, hskipped, h.ordered.held, List.length_append, List.length_map,
      ← t.settled_length]
  · have hfree := h.governed.busy (by rw [(h.governed.closed hclosed).2]; nofun)
    have hsettled : t.settled.map Prod.fst = t.taken := by
      rw [h.ordered.held, hfree, Option.toList_none, List.append_nil]
    rw [hsettled, h.ordered.queued, List.take_append_of_le_length (h.awaited.drained n hn)]
    exact List.take_prefix n t.taken

/-- One record is in process when a thread finds the sink drained and another one closes it; a third
one puts a record into the queue after that. -/
def closingMidway : List Move :=
  [.write 0 Loop.ordinary, .look 0, .reach 0, .enter .zero, .take, .drain 1, .look 1, .reach 1,
    .write 0 Loop.ordinary, .look 0, .close 2, .reach 0, .finish (.still .zero), .release 2]

theorem handed_over_midway : ∃ s t, Session.start Settings.default () .zero = .ok s ∧
    play .inMemory closingMidway (start s) = some t ∧ t.closed = true ∧ t.drained = [1] ∧
    t.accepted.length = 2 ∧ t.taken.length = 1 ∧ t.loop.coordinator.totals.written = 1 ∧
    t.accepted.take 1 <+: t.settled.map Prod.fst ∧
    ∀ more t', play .inMemory more t = some t' → t'.taken.length = 1 := by
  have hrun : Except.passes (fun s =>
      ((play .inMemory closingMidway (start s)).map fun t =>
        decide (t.closed = true ∧ t.drained = [1] ∧ t.accepted.length = 2 ∧ t.taken.length = 1 ∧
          t.loop.coordinator.totals.written = 1)) = some true)
      (Session.start Settings.default () .zero) = true := by
    decide +kernel
  obtain ⟨s, hopen, hs⟩ := Except.of_passes hrun
  obtain ⟨t, hplay, ht⟩ := Option.map_eq_some_iff.mp (of_decide_eq_true hs)
  obtain ⟨hclosed, hdrained, haccepted, htaken, hwritten⟩ := of_decide_eq_true ht
  obtain ⟨-, hover, -, -, -, hsettled⟩ := records_handed_over hopen hplay
  refine ⟨s, t, hopen, hplay, hclosed, hdrained, haccepted, htaken, hwritten, ?_, ?_⟩
  · exact hsettled hclosed 1 (by rw [hdrained]; exact List.mem_singleton.mpr rfl)
  · intro more t' hmore
    rw [hover (.inl hclosed) more t' hmore, htaken]

end Threads
end StreamTable
