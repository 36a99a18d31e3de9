/-
The threads of a sink and the history of its loop.  However the moves of the threads fall, until the
sink is closed its loop has come to what a history of records and whole iterations leads to: each
record is put into the queue where it was accepted, and an iteration stands where the worker found
what there was to do.  What other threads do while the worker is busy comes after its iteration in
the history, for neither the records that are put into the queue meanwhile nor a stop has any bearing
on what is left of it.
-/
import StreamTable.Proofs.Sink.Handover

namespace StreamTable

open StreamTable.Action

variable {W S : Type} {p : Plan} {b : Backend W S}

theorem Backend.mirrors_self (b : Backend W S) : b.Mirrors id id b := by
  have hself {σ α : Type} (a : Action σ α) : a.Mirrors id id a := by
    intro s
    rw [Except.map_id]
    rfl
  have hpair {α : Type} (a : Action (W × S) α) : a.Mirrors (Prod.map id id) id a := by
    rw [Prod.map_id]
    exact hself a
  exact ⟨fun _ => hself _, fun _ => rfl, fun _ => hpair _, fun _ => hpair _, hpair _, hpair _,
    fun _ => hself _⟩

/-! ## What goes on beside an iteration -/

namespace Loop

variable {l : Loop W S} {queue : List Record} {running : Bool}

/-- A loop with other records in its queue, running or not. -/
def amid (queue : List Record) (running : Bool) (l : Loop W S) : Loop W S :=
  { l with queue := queue, running := running }

theorem queue_of_eq_amid {l' : Loop W S} (h : l' = l.amid queue running) : l'.queue = queue :=
  congrArg Loop.queue h

theorem recast_eq_amid (queue : List Record) (running : Bool) (l : Loop W S) :
    l.recast id id (fun _ => queue) (fun _ => running) = l.amid queue running := by
  obtain ⟨q, ⟨writer, world, opened, window, totals⟩, active, bound, last, acknowledged, running',
    lastError, closed⟩ := l
  cases writer <;> rfl

/-- An action that neither the queue nor a stop has a bearing on ends in the same way beside them;
if it leaves a loop running that others have not stopped, it would leave it running alone. -/
theorem halting_amid {a : Action (Loop W S) Unit} (queue : List Record) (running : Bool)
    (hrunning : l.running = true)
    (ha : a.Mirrors (recast id id (fun _ => queue) fun _ => running) id a)
    (hkeeps : a.Preserves standing) :
    ∃ running', (a.run (l.amid queue running)).halting = (a.run l).halting.amid queue running' ∧
      (running' = true → (a.run l).halting.running = true) := by
  have hrun := ha l
  have hstate := congrArg Prod.fst (hkeeps l)
  rw [recast_eq_amid, recast_eq_amid] at hrun
  unfold Effect.halting
  rw [hrun]
  cases (a.run l).result with
  | ok u => exact ⟨running, rfl, fun _ => hstate.trans hrunning⟩
  | error f => exact ⟨false, rfl, fun h => Bool.noConfusion h⟩

theorem handle_standing (clock : Readings) (r : Record) :
    (handle p b clock r).Preserves (standing : Loop W S → _) := by
  intro l
  refine Ends.state (R := fun l' : Loop W S => l'.standing = l.standing) ?_
  exact (handle_handled clock r l).mono
    (fun _ l' h => Prod.ext h.running (Prod.ext h.lastError h.closed))
    fun _ l' h => Prod.ext h.running (Prod.ext h.lastError h.closed)

theorem commitIfDue_standing (clock : Readings) :
    (commitIfDue p b clock).Preserves (standing : Loop W S → _) :=
  (commitIfDue_frame clock).comp fun f => (f.running, f.lastError, f.closed)

/-- Closing a loop begins with stopping it. -/
theorem close_amid (l : Loop W S) (running : Bool) :
    (close b).run (l.amid l.queue running) = (close b).run l := rfl

end Loop

namespace Threads

/-- How the threads stand to a history that leads to a loop.  The iteration that the worker is busy
with is not part of it yet, and neither are the records that are put into the queue while the worker
tries a commit. -/
inductive HasHistory (p : Plan) (b : Backend W S) (l₀ : Loop W S) (t : Threads W S) : Prop where
  | free (l : Loop W S) (hleads : Loop.Leads p b t.accepted l₀ l) (hiteration : t.iteration = none)
      (hrunning : t.loop.running = true → l.running = true)
      (hloop : t.loop = l.amid l.queue t.loop.running)
  | waiting (l : Loop W S) (timeout : Double) (hleads : Loop.Leads p b t.accepted l₀ l)
      (hiteration : t.iteration = some (.waiting timeout)) (hrunning : l.running = true)
      (hloop : t.loop = l.amid l.queue t.loop.running)
  | handling (l : Loop W S) (timeout : Double) (r : Record)
      (hleads : Loop.Leads p b t.accepted l₀ l) (hiteration : t.iteration = some .busy)
      (hprocess : t.session.inProcess = some r) (hqueue : l.queue = r :: t.loop.queue)
      (hwait : Loop.waitFault? timeout false = none) (hrunning : l.running = true)
      (hloop : t.loop = l.amid t.loop.queue t.loop.running)
  | committing (l : Loop W S) (timeout : Double) (rs : List Record)
      (hleads : Loop.Leads p b rs l₀ l) (haccepted : t.accepted = rs ++ t.loop.queue)
      (hiteration : t.iteration = some .busy) (hprocess : t.session.inProcess = none)
      (hqueue : l.queue = []) (hwait : Loop.waitFault? timeout true = none)
      (hrunning : l.running = true) (hloop : t.loop = l.amid t.loop.queue t.loop.running)

namespace HasHistory

variable {l₀ : Loop W S} {t t' : Threads W S}

theorem start (s : Session W S) : HasHistory p b s.loop (Threads.start s) :=
  .free s.loop (Loop.Leads.refl s.loop) rfl id rfl

/-- What the threads are about has no bearing on the history, and neither has a stop. -/
theorem congr (h : HasHistory p b l₀ t) (haccepted : t'.accepted = t.accepted)
    (hiteration : t'.iteration = t.iteration)
    (hprocess : t'.session.inProcess = t.session.inProcess)
    (hrunning : t'.loop.running = true → t.loop.running = true)
    (hloop : t'.loop = t.loop.amid t.loop.queue t'.loop.running) : HasHistory p b l₀ t' := by
  have hqueue : t'.loop.queue = t.loop.queue := by rw [hloop]; rfl
  have hwith {l : Loop W S} {queue : List Record} (h : t.loop = l.amid queue t.loop.running) :
      t'.loop = l.amid queue t'.loop.running := by
    rw [hloop, h]
    rfl
  cases h with
  | free l hl hi hr ho =>
    exact .free l (haccepted ▸ hl) (hiteration.trans hi) (fun h => hr (hrunning h)) (hwith ho)
  | waiting l timeout hl hi hr ho =>
    exact .waiting l timeout (haccepted ▸ hl) (hiteration.trans hi) hr (hwith ho)
  | handling l timeout r hl hi hp hq hw hr ho =>
    refine .handling l timeout r (haccepted ▸ hl) (hiteration.trans hi) (hprocess.trans hp) ?_ hw hr
      (hqueue ▸ hwith ho)
    rw [hqueue, hq]
  | committing l timeout rs hl ha hi hp hq hw hr ho =>
    refine .committing l timeout rs hl ?_ (hiteration.trans hi) (hprocess.trans hp) hq hw hr
      (hqueue ▸ hwith ho)
    rw [haccepted, ha, hqueue]

theorem accept (h : HasHistory p b l₀ t) (r : Record) : HasHistory p b l₀ (t.accept r) := by
  have hput {l : Loop W S} {queue : List Record} (h : t.loop = l.amid queue t.loop.running) :
      (t.accept r).loop = l.amid (queue ++ [r]) t.loop.running :=
    congrArg (fun l : Loop W S => { l with queue := l.queue ++ [r] }) h
  cases h with
  | free l hl hi hr ho => exact .free _ (hl.trans (Loop.leads_put l r)) hi hr (hput ho)
  | waiting l timeout hl hi hr ho =>
    exact .waiting _ timeout (hl.trans (Loop.leads_put l r)) hi hr (hput ho)
  | handling l timeout r' hl hi hp hq hw hr ho =>
    refine .handling _ timeout r' (hl.trans (Loop.leads_put l r)) hi hp ?_ hw hr (hput ho)
    show l.queue ++ [r] = r' :: (t.loop.queue ++ [r])
    rw [hq, List.cons_append]
  | committing l timeout rs hl ha hi hp hq hw hr ho =>
    refine .committing l timeout rs hl ?_ hi hp hq hw hr (hput ho)
    show t.accepted ++ [r] = rs ++ (t.loop.queue ++ [r])
    rw [ha, List.append_assoc]

section Worker

variable (h : HasHistory p b l₀ t) {timeout : Double} {clock : Readings}
include h

/-- The history of a worker that is in no iteration. -/
theorem of_free (hiteration : t.iteration = none) : ∃ l, Loop.Leads p b t.accepted l₀ l ∧
    (t.loop.running = true → l.running = true) ∧ t.loop = l.amid l.queue t.loop.running := by
  cases h with
  | free l hl hi hr ho => exact ⟨l, hl, hr, ho⟩
  | waiting l timeout hl hi hr ho => cases hiteration.symm.trans hi
  | handling l timeout r hl hi hp hq hw hr ho => cases hiteration.symm.trans hi
  | committing l timeout rs hl ha hi hp hq hw hr ho => cases hiteration.symm.trans hi

theorem of_waiting (hiteration : t.iteration = some (.waiting timeout)) :
    ∃ l, Loop.Leads p b t.accepted l₀ l ∧ l.running = true ∧
      t.loop = l.amid l.queue t.loop.running := by
  cases h with
  | free l hl hi hr ho => cases hiteration.symm.trans hi
  | waiting l timeout hl hi hr ho => exact ⟨l, hl, hr, ho⟩
  | handling l timeout r hl hi hp hq hw hr ho => cases hiteration.symm.trans hi
  | committing l timeout rs hl ha hi hp hq hw hr ho => cases hiteration.symm.trans hi

theorem enter (hiteration : t.iteration = none) (hrunning : t.loop.running = true) :
    HasHistory p b l₀ { t with iteration := some (.waiting timeout) } := by
  obtain ⟨l, hl, hr, ho⟩ := h.of_free hiteration
  exact .waiting l timeout hl rfl (hr hrunning) ho

theorem take {r : Record} {rest : List Record} (hiteration : t.iteration = some (.waiting timeout))
    (hqueue : t.loop.queue = r :: rest) (hwait : Loop.waitFault? timeout false = none) :
    HasHistory p b l₀ (t.take r rest) := by
  obtain ⟨l, hl, hr, ho⟩ := h.of_waiting hiteration
  refine .handling l timeout r hl rfl rfl ?_ hwait hr ?_
  · exact (Loop.queue_of_eq_amid ho).symm.trans hqueue
  · exact congrArg (fun l : Loop W S => { l with queue := rest }) ho

theorem vain (hprocess : t.session.inProcess = none)
    (hiteration : t.iteration = some (.waiting timeout)) (hqueue : t.loop.queue = [])
    (hwait : Loop.waitFault? timeout true = none) :
    HasHistory p b l₀ { t with iteration := some .busy } := by
  obtain ⟨l, hl, hr, ho⟩ := h.of_waiting hiteration
  have hempty : l.queue = [] := (Loop.queue_of_eq_amid ho).symm.trans hqueue
  refine .committing l timeout t.accepted hl ?_ rfl hprocess hempty hwait hr ?_
  · show t.accepted = t.accepted ++ t.loop.queue
    rw [hqueue, List.append_nil]
  · show t.loop = l.amid t.loop.queue t.loop.running
    rw [hqueue, ← hempty]
    exact ho

/-- A wait that fails is an iteration that fails. -/
theorem fault {fault : DataFault} (hiteration : t.iteration = some (.waiting timeout))
    (hwait : Loop.waitFault? timeout t.loop.queue.isEmpty = some fault) :
    HasHistory p b l₀
      (t.leave { t.loop with running := false, lastError := some (.data fault) }) := by
  obtain ⟨l, hl, hr, ho⟩ := h.of_waiting hiteration
  have hqueue : t.loop.queue = l.queue := Loop.queue_of_eq_amid ho
  have hadvance := hl.trans (Loop.leads_advance l (.still .zero) timeout)
  rw [hqueue] at hwait
  rw [List.append_nil, Loop.advance_state p b _ timeout hr, Loop.iterate_halting, hwait] at hadvance
  refine .free _ hadvance rfl nofun ?_
  show { t.loop with running := false, lastError := some (.data fault) } = _
  rw [ho]
  rfl

/-- An iteration stands in the history where the worker took the record. -/
theorem settle (hplan : t.session.plan = p) {r : Record} (hiteration : t.iteration = some .busy)
    (hprocess : t.session.inProcess = some r) : HasHistory p b l₀ (t.settle b clock r) := by
  cases h with
  | free l hl hi hr ho => cases hiteration.symm.trans hi
  | waiting l timeout hl hi hr ho => cases hiteration.symm.trans hi
  | committing l timeout rs hl ha hi hp hq hw hr ho => cases hprocess.symm.trans hp
  | handling l timeout r' hl hi hp hq hw hr ho =>
    obtain rfl : r' = r := Option.some.inj (hp.symm.trans hprocess)
    let l₁ : Loop W S := { l with queue := t.loop.queue }
    have hadvance := hl.trans (Loop.leads_advance l clock timeout)
    rw [List.append_nil, Loop.advance_state p b clock timeout hr, Loop.iterate_halting, hq,
      List.isEmpty_cons, hw] at hadvance
    obtain ⟨running, hhalting, hruns⟩ := Loop.halting_amid (l := l₁) t.loop.queue t.loop.running hr
      (Loop.handle_mirrors b.mirrors_self r') (Loop.handle_standing (p := p) clock r')
    have hstays := (Loop.handle_halting p b clock r' l₁).1
    have hloop : (t.settle b clock r').loop =
        ((Loop.handle p b clock r').run (l₁.amid t.loop.queue t.loop.running)).halting := by
      show ((Loop.handle t.session.plan b clock r').run t.loop).halting = _
      rw [hplan]
      exact congrArg (fun l => ((Loop.handle p b clock r').run l).halting) ho
    rw [hhalting] at hloop
    refine .free _ hadvance rfl (fun hr' => hruns ?_) ?_
    · rw [hloop] at hr'
      exact hr'
    · rw [hloop, show (((Loop.handle p b clock r').run l₁).halting).queue = t.loop.queue from hstays]
      rfl

/-- A commit that was tried without a record stands in the history before the records that were put
into the queue since the worker found it empty. -/
theorem commit (hplan : t.session.plan = p) (hiteration : t.iteration = some .busy)
    (hprocess : t.session.inProcess = none) : HasHistory p b l₀
      (t.leave ((Loop.commitIfDue t.session.plan b clock).run t.loop).halting) := by
  cases h with
  | free l hl hi hr ho => cases hiteration.symm.trans hi
  | waiting l timeout hl hi hr ho => cases hiteration.symm.trans hi
  | handling l timeout r hl hi hp hq hw hr ho => cases hprocess.symm.trans hp
  | committing l timeout rs hl ha hi hp hq hw hr ho =>
    have hadvance := (hl.trans (Loop.leads_advance l clock timeout))
    rw [List.append_nil, Loop.advance_state p b clock timeout hr, Loop.iterate_halting, hq,
      List.isEmpty_nil, hw] at hadvance
    obtain ⟨running, hhalting, hruns⟩ := Loop.halting_amid t.loop.queue t.loop.running hr
      (Loop.commitIfDue_mirrors b.mirrors_self)
      (Loop.commitIfDue_standing (p := p) (b := b) clock)
    have hstays : ((Loop.commitIfDue p b clock).run l).halting.queue = [] :=
      (Loop.commitIfDue_halting p b clock l).1.trans hq
    have hall := hadvance.trans (Loop.leads_puts _ t.loop.queue)
    rw [← ha] at hall
    have hloop : ((Loop.commitIfDue t.session.plan b clock).run t.loop).halting =
        ((Loop.commitIfDue p b clock).run l).halting.amid t.loop.queue running := by
      rw [hplan, ← hhalting]
      exact congrArg (fun l => ((Loop.commitIfDue p b clock).run l).halting) ho
    refine .free _ hall rfl (fun hr' => hruns ?_) ?_
    · have hr'' : ((Loop.commitIfDue t.session.plan b clock).run t.loop).halting.running = true := hr'
      rw [hloop] at hr''
      exact hr''
    · show ((Loop.commitIfDue t.session.plan b clock).run t.loop).halting = Loop.amid _
        ((Loop.commitIfDue t.session.plan b clock).run t.loop).halting.running _
      rw [hloop]
      show _ = Loop.amid (((Loop.commitIfDue p b clock).run l).halting.queue ++ t.loop.queue) _ _
      rw [hstays]
      rfl

end Worker

theorem shift (h : HasHistory p b l₀ t) (hplan : t.session.plan = p) (hg : t.Governed)
    (hs : t.Shift b t') (hopen : t'.closed = false) : HasHistory p b l₀ t' := by
  cases hs with
  | errand i e _ _ => exact h.congr rfl rfl rfl id rfl
  | stop i => exact h.congr rfl rfl rfl nofun rfl
  | accept i r => exact (h.accept r).congr rfl rfl rfl id rfl
  | drained i n _ _ => exact h.congr rfl rfl rfl id rfl
  | release i _ _ => cases hopen
  | enter timeout hiteration hrunning => exact h.enter hiteration hrunning
  | take timeout r rest hiteration hqueue hwait => exact h.take hiteration hqueue hwait
  | vain timeout hiteration hqueue hwait =>
    exact h.vain (hg.busy (by rw [hiteration]; nofun)) hiteration hqueue hwait
  | fault timeout fault hiteration hwait => exact h.fault hiteration hwait
  | settle clock r hiteration hprocess => exact h.settle hplan hiteration hprocess
  | commit clock hiteration hprocess => exact h.commit hplan hiteration hprocess

end HasHistory

/-- What all moves keep: as long as the sink is not closed, the threads have a history. -/
structure Recorded (p : Plan) (b : Backend W S) (l₀ : Loop W S) (t : Threads W S) : Prop where
  plan : t.session.plan = p
  governed : t.Governed
  history : t.closed = false → HasHistory p b l₀ t

variable {l₀ : Loop W S} {t t' : Threads W S}

theorem Recorded.start {s : Session W S} (hfree : s.inProcess = none)
    (hfailed : s.loop.lastError = none) : Recorded s.plan b s.loop (Threads.start s) := by
  refine ⟨rfl, ⟨fun _ => hfree, fun hf => ?_, nofun, nofun⟩, fun _ => HasHistory.start s⟩
  rw [show (Threads.start s).loop.lastError = none from hfailed] at hf
  cases hf

theorem Recorded.step {m : Move} (h : Recorded p b l₀ t) (hm : t.step b m = some t') :
    Recorded p b l₀ t' := by
  have hs := shift_of_step hm
  refine ⟨?_, h.governed.shift hs, fun hopen => ?_⟩
  · rw [← h.plan]
    cases hs <;> rfl
  · have hbefore : t.closed = false := by
      cases hs with
      | release i _ _ => cases hopen
      | _ => exact hopen
    exact (h.history hbefore).shift h.plan h.governed hs hopen

end Threads
end StreamTable
