/-
What the program does beside the worker.  Each of its steps is a move of its thread, and in the
pauses the worker makes moves of its own, so whatever the turns are, the loop that the program closes
in the end is one that a history leads to, in which the records of the feed were put into the queue.
-/
import StreamTable.CommandLine.Delivery
import StreamTable.Proofs.Sink.Interleaving

namespace StreamTable
namespace CommandLine
namespace Program

open StreamTable.Action

/-! ## Steps that end well -/

section Does

variable {α β : Type} {d d' : Delivery} {log : List Log.Entry} {x : α}

/-- A step of the program comes to a result, with a state and a log. -/
def Does (a : Program α) (d : Delivery) (x : α) (d' : Delivery) (log : List Log.Entry) : Prop :=
  a.run.run d = ⟨.ok (some x), d', log⟩

theorem does_bind {a : Program β} {f : β → Program α} (h : Does (a >>= f) d x d' log) :
    ∃ y d₁ log₁ log₂, Does a d y d₁ log₁ ∧ Does (f y) d₁ x d' log₂ ∧ log = log₁ ++ log₂ := by
  have hrun : (a >>= f).run = a.run >>= fun o => o.elim (Pure.pure none) fun y => (f y).run :=
    OptionT.run_bind f
  unfold Does at h
  rw [hrun] at h
  rcases ha : a.run.run d with ⟨_ | _ | y, d₁, log₁⟩
  · rw [run_bind_of_error ha] at h
    cases h
  · rw [run_bind_of_ok ha] at h
    cases h
  · rw [run_bind_of_ok ha, Option.elim_some] at h
    rcases hf : (f y).run.run d₁ with ⟨r, d₂, log₂⟩
    rw [hf] at h
    cases h
    exact ⟨y, d₁, log₁, log₂, ha, hf, rfl⟩

theorem does_pure {y : α} (h : Does (Pure.pure y) d x d' log) : y = x ∧ d = d' := by
  cases h
  exact ⟨rfl, rfl⟩

theorem does_get {d₁ : Delivery} (h : Does get d d₁ d' log) : d = d₁ ∧ d = d' := by
  cases h
  exact ⟨rfl, rfl⟩

theorem does_modify {f : Delivery → Delivery} {u : Unit} (h : Does (modify f) d u d' log) :
    f d = d' := by
  cases h
  rfl

theorem does_log {e : Log.Entry} {u : Unit} (h : Does (Program.log e) d u d' log) : d = d' := by
  cases h
  rfl

theorem not_does_fail {f : Failure} : ¬Does (fail f) d x d' log := nofun

theorem not_does_unfinished : ¬Does unfinished d x d' log := nofun

theorem does_lift {r : Except Failure α} (h : Does (lift r) d x d' log) : r = .ok x ∧ d = d' := by
  cases r with
  | ok y =>
    cases h
    exact ⟨rfl, rfl⟩
  | error f => cases h

theorem does_attempt {a : Program α} {r : Except Failure α} (h : Does (attempt a) d r d' log) :
    (∃ x, r = .ok x ∧ Does a d x d' log) ∨ ∃ f, r = .error f := by
  have hrun : (attempt a).run.run d = _ := run_bind_of_ok (run_attempt a.run d)
  unfold Does at h
  rw [hrun] at h
  rcases ha : a.run.run d with ⟨f | _ | y, d₁, log₁⟩
  · rw [ha] at h
    cases h
    exact .inr ⟨f, rfl⟩
  · rw [ha] at h
    cases h
  · rw [ha] at h
    cases h
    refine .inl ⟨y, rfl, ?_⟩
    show Does a d y d₁ (log₁ ++ [])
    rw [List.append_nil]
    exact ha

end Does

/-! ## What the steps of the program keep -/

variable {p : Plan} {b : Backend Store.Writer Store.Disk} {l₀ : Loop Store.Writer Store.Disk}
  {rs : List Record} {n : Nat} {e : Errand} {d d' : Delivery} {log : List Log.Entry} {u : Unit}

theorem does_make {m : Move} {made : Bool} (h : Does (make b m) d made d' log) :
    (∃ t, d.threads.step b m = some t ∧ made = true ∧ { d with threads := t } = d' ∧
      log = d.threads.said b m) ∨ (made = false ∧ d = d') := by
  replace h : make b m d = ⟨.ok (some made), d', log⟩ := h
  cases hm : d.threads.step b m with
  | none =>
    simp only [make, OptionT.mk, hm] at h
    cases h
    exact .inr ⟨rfl, rfl⟩
  | some t =>
    simp only [make, OptionT.mk, hm] at h
    cases h
    exact .inl ⟨t, rfl, rfl, rfl, rfl⟩

theorem does_move {m : Move} (h : Does (move b m) d u d' log) :
    ∃ t, d.threads.step b m = some t ∧ { d with threads := t } = d' ∧
      ∀ entry ∈ d.threads.said b m, entry ∈ log := by
  obtain ⟨made, d₁, log₁, log₂, hmake, hrest, rfl⟩ := does_bind h
  obtain ⟨t, hm, rfl, rfl, rfl⟩ | ⟨rfl, -⟩ := does_make hmake
  · obtain ⟨-, rfl⟩ := does_pure hrest
    exact ⟨t, hm, rfl, fun entry he => List.mem_append_left _ he⟩
  · exact absurd hrest not_does_unfinished

/-- How far a delivery has come while the sink is open: these records were put into the queue, so
many were counted, and this is what the program is about. -/
structure Underway (p : Plan) (b : Backend Store.Writer Store.Disk)
    (l₀ : Loop Store.Writer Store.Disk) (rs : List Record) (n : Nat) (e : Errand) (d : Delivery) :
    Prop where
  recorded : d.threads.Recorded p b l₀
  accepted : d.threads.accepted = rs
  offered : d.offered = n
  errand : d.threads.errands self = e
  isOpen : d.threads.closed = false

/-- The moves of the worker leave the other threads alone. -/
theorem move?_keeps {w : Work} {m : Move} {t t' : Threads Store.Writer Store.Disk}
    (hw : w.move? p = some m) (h : t.step b m = some t') :
    t'.errands = t.errands ∧ t'.accepted = t.accepted ∧ t'.closed = t.closed := by
  cases w with
  | enter =>
    obtain ⟨timeout, -, rfl⟩ := Option.map_eq_some_iff.mp hw
    simp only [Threads.step] at h
    split at h
    · split at h <;> cases h
      exact ⟨rfl, rfl, rfl⟩
    · cases h
  | take =>
    cases hw
    simp only [Threads.step] at h
    split at h
    · split at h <;> cases h
      exact ⟨rfl, rfl, rfl⟩
    · cases h
  | expire =>
    cases hw
    simp only [Threads.step] at h
    split at h
    · split at h
      · cases h
        exact ⟨rfl, rfl, rfl⟩
      · split at h <;> cases h
        exact ⟨rfl, rfl, rfl⟩
    · cases h
  | finish clock =>
    cases hw
    simp only [Threads.step] at h
    split at h <;> cases h
    · exact ⟨rfl, rfl, rfl⟩
    · exact ⟨rfl, rfl, rfl⟩

/-- A move of the program, after which it is about something else. -/
theorem Underway.move {m : Move} {t : Threads Store.Writer Store.Disk} {rs' : List Record}
    {e' : Errand} (hd : Underway p b l₀ rs n e d) (h : Does (move b m) d u d' log)
    (hm : d.threads.step b m = some (t.withErrand self e')) (hopen : t.closed = false)
    (haccepted : t.accepted = rs') : Underway p b l₀ rs' n e' d' := by
  obtain ⟨t', hm', rfl, -⟩ := does_move h
  obtain rfl := Option.some.inj (hm.symm.trans hm')
  exact ⟨hd.recorded.step hm, haccepted, hd.offered, Threads.withErrand_self self _, hopen⟩

theorem Underway.work {w : Work} (hd : Underway p b l₀ rs n e d)
    (h : Does (work b w) d u d' log) : Underway p b l₀ rs n e d' := by
  obtain ⟨d₁, _, log₁, log₂, hget, h, -⟩ := does_bind h
  obtain ⟨rfl, rfl⟩ := does_get hget
  cases hw : w.move? d.threads.session.plan with
  | none =>
    rw [hw] at h
    obtain ⟨-, rfl⟩ := does_pure h
    exact hd
  | some m =>
    rw [hw] at h
    obtain ⟨made, d₁, log₁, log₂, hmake, h, -⟩ := does_bind h
    obtain ⟨-, rfl⟩ := does_pure h
    obtain ⟨t, hm, -, rfl, -⟩ | ⟨-, rfl⟩ := does_make hmake
    · obtain ⟨herrands, haccepted, hclosed⟩ := move?_keeps hw hm
      exact ⟨hd.recorded.step hm, haccepted.trans hd.accepted, hd.offered,
        (congrFun herrands self).trans hd.errand, hclosed.trans hd.isOpen⟩
    · exact hd

theorem Underway.workAll {ws : List Work} (hd : Underway p b l₀ rs n e d)
    (h : Does (ws.forM (Program.work b)) d u d' log) : Underway p b l₀ rs n e d' := by
  induction ws generalizing d log with
  | nil =>
    obtain ⟨-, rfl⟩ := does_pure h
    exact hd
  | cons w ws ih =>
    obtain ⟨_, d₁, log₁, log₂, hw, h, -⟩ := does_bind h
    exact ih (hd.work hw) h

theorem Underway.pause {late : Bool} (hd : Underway p b l₀ rs n e d)
    (h : Does (pause b) d late d' log) : Underway p b l₀ rs n e d' := by
  obtain ⟨d₁, _, log₁, log₂, hget, h, -⟩ := does_bind h
  obtain ⟨rfl, rfl⟩ := does_get hget
  cases hturns : d.turns with
  | nil =>
    rw [hturns] at h
    exact absurd h not_does_unfinished
  | cons turn rest =>
    rw [hturns] at h
    obtain ⟨_, d₁, log₁, log₂, hmodify, h, -⟩ := does_bind h
    obtain rfl := does_modify hmodify
    obtain ⟨_, d₂, log₁, log₂, hwork, h, -⟩ := does_bind h
    obtain ⟨-, rfl⟩ := does_pure h
    have hd₁ : Underway p b l₀ rs n e { d with turns := rest } :=
      ⟨hd.recorded, hd.accepted, hd.offered, hd.errand, hd.isOpen⟩
    exact hd₁.workAll hwork

/-! ## What the program does

Each of these ends well only if the loop was found running whenever the program looked. -/

theorem Underway.ensureRunning {r : Record} (hd : Underway p b l₀ rs n (.writing r false) d)
    (h : Does (ensureRunning b) d u d' log) : Underway p b l₀ rs n (.writing r true) d' := by
  obtain ⟨_, d₁, _, _, hpause, hrest, -⟩ := does_bind h
  replace hd := hd.pause hpause
  obtain ⟨_, _, _, _, hget, hrest, -⟩ := does_bind hrest
  obtain ⟨rfl, rfl⟩ := does_get hget
  obtain ⟨_, d₂, _, _, hmove, hrest, -⟩ := does_bind hrest
  by_cases hrunning : d₁.threads.loop.running = true
  · rw [hrunning] at hrest
    obtain ⟨-, rfl⟩ := does_pure hrest
    have hlook : d₁.threads.step b (.look self) =
        some (d₁.threads.withErrand self (.writing r true)) := by
      simp [Threads.step, hd.errand, hrunning]
    exact hd.move hmove hlook hd.isOpen hd.accepted
  · rw [Bool.eq_false_iff.mpr hrunning] at hrest
    exact absurd hrest not_does_fail

/-- A record is put into the queue, however long the program waits for that. -/
theorem Underway.enqueue {r : Record} {k : Nat} (hd : Underway p b l₀ rs n (.writing r true) d)
    (h : Does (enqueue b k) d u d' log) : Underway p b l₀ (rs ++ [r]) n .nothing d' := by
  induction k generalizing d log with
  | zero => exact absurd h not_does_unfinished
  | succ k ih =>
    obtain ⟨late, d₁, _, _, hpause, hrest, -⟩ := does_bind h
    replace hd := hd.pause hpause
    obtain ⟨_, _, _, _, hget, hrest, -⟩ := does_bind hrest
    obtain ⟨rfl, rfl⟩ := does_get hget
    by_cases hfull : d₁.threads.session.isFull = true
    · rw [if_pos hfull] at hrest
      cases late with
      | false => exact ih hd hrest
      | true =>
        obtain ⟨_, d₂, _, _, hmove, hrest, -⟩ := does_bind hrest
        obtain ⟨_, d₃, _, _, hensure, hrest, -⟩ := does_bind hrest
        have hretry : d₁.threads.step b (.retry self) =
            some (d₁.threads.withErrand self (.writing r false)) := by
          simp [Threads.step, hd.errand, hfull]
        have hd₂ := hd.move hmove hretry hd.isOpen hd.accepted
        exact ih (hd₂.ensureRunning hensure) hrest
    · rw [if_neg hfull] at hrest
      have hreach : d₁.threads.step b (.reach self) =
          some ((d₁.threads.accept r).withErrand self .nothing) := by
        simp [Threads.step, hd.errand, hfull]
      exact hd.move hrest hreach hd.isOpen (congrArg (· ++ [r]) hd.accepted)

theorem Underway.write {r : Record} (hd : Underway p b l₀ rs n .nothing d)
    (h : Does (write b r) d u d' log) : Underway p b l₀ (rs ++ [r]) n .nothing d' := by
  obtain ⟨_, d₁, _, _, hmove, hrest, -⟩ := does_bind h
  obtain ⟨_, d₂, _, _, hensure, hrest, -⟩ := does_bind hrest
  obtain ⟨_, _, _, _, hget, hrest, -⟩ := does_bind hrest
  obtain ⟨rfl, rfl⟩ := does_get hget
  have hwrite : d.threads.step b (.write self r) =
      some (d.threads.withErrand self (.writing r false)) := by
    simp [Threads.step, hd.errand]
  have hd₁ := hd.move hmove hwrite hd.isOpen hd.accepted
  exact (hd₁.ensureRunning hensure).enqueue hrest

/-- If all lines of a feed are offered, reading did not fail. -/
theorem Underway.offerAll {feed : Feed} (hd : Underway p b l₀ rs n .nothing d)
    (h : Does (offerAll b feed) d u d' log) :
    Underway p b l₀ (rs ++ feed.records) (n + feed.records.length) .nothing d' ∧
      feed.failure? = none := by
  induction feed generalizing d rs n log with
  | done =>
    obtain ⟨-, rfl⟩ := does_pure h
    rw [Feed.records, List.append_nil]
    exact ⟨hd, rfl⟩
  | failed f => exact absurd h not_does_fail
  | skipped line cause rest ih =>
    obtain ⟨_, _, _, _, hlog, hrest, -⟩ := does_bind h
    obtain rfl := does_log hlog
    exact ih hd hrest
  | record r rest ih =>
    obtain ⟨_, d₁, _, _, hwrite, hrest, -⟩ := does_bind h
    obtain ⟨_, _, _, _, hmodify, hrest, -⟩ := does_bind hrest
    obtain rfl := does_modify hmodify
    have hd₁ := hd.write hwrite
    obtain ⟨hall, hread⟩ := ih (d := { d₁ with offered := d₁.offered + 1 })
      ⟨hd₁.recorded, hd₁.accepted, congrArg (· + 1) hd₁.offered, hd₁.errand, hd₁.isOpen⟩ hrest
    rw [List.append_assoc, Nat.add_right_comm] at hall
    exact ⟨hall, hread⟩

/-- The program gives up draining if it finds the loop stopped. -/
theorem Underway.look {m : Nat} (hd : Underway p b l₀ rs n (.draining m false) d)
    (h : Does (Program.move b (.look self)) d u d' log) :
    Underway p b l₀ rs n (if d.threads.loop.running then .draining m true else .nothing) d' := by
  refine hd.move h ?_ hd.isOpen hd.accepted
  simp [Threads.step, hd.errand]

theorem Underway.awaitEmpty {timeout waited : Double} {k m : Nat} {drained : Bool}
    (hd : Underway p b l₀ rs n (.draining m false) d)
    (h : Does (awaitEmpty b timeout k waited) d drained d' log) :
    Underway p b l₀ rs n .nothing d' := by
  induction k generalizing d log waited with
  | zero => exact absurd h not_does_unfinished
  | succ k ih =>
    rw [Program.awaitEmpty] at h
    by_cases htime : (waited.compare? timeout == some .lt) = true
    · rw [if_pos htime] at h
      obtain ⟨_, d₁, _, _, hpause, hrest, -⟩ := does_bind h
      replace hd := hd.pause hpause
      obtain ⟨_, _, _, _, hget, hrest, -⟩ := does_bind hrest
      obtain ⟨rfl, rfl⟩ := does_get hget
      obtain ⟨_, d₂, _, _, hmove, hrest, -⟩ := does_bind hrest
      have hd₂ := hd.look hmove
      by_cases hrunning : d₁.threads.loop.running = true
      · rw [hrunning] at hrest
        rw [if_pos hrunning] at hd₂
        obtain ⟨_, d₃, _, _, hpause', hrest, -⟩ := does_bind hrest
        have hd₃ := hd₂.pause hpause'
        obtain ⟨_, _, _, _, hget, hrest, -⟩ := does_bind hrest
        obtain ⟨rfl, rfl⟩ := does_get hget
        by_cases hempty : d₃.threads.loop.queue.isEmpty = true
        · rw [if_pos hempty] at hrest
          obtain ⟨_, d₄, _, _, hmove', hrest, -⟩ := does_bind hrest
          obtain ⟨-, rfl⟩ := does_pure hrest
          have hreach : d₃.threads.step b (.reach self) =
              some ({ d₃.threads with drained := d₃.threads.drained ++ [m] }.withErrand self
                .nothing) := by
            simp only [Threads.step, hd₃.errand, hempty, if_true]
          exact hd₃.move hmove' hreach hd₃.isOpen hd₃.accepted
        · rw [if_neg hempty] at hrest
          obtain ⟨_, d₄, _, _, hmove', hrest, -⟩ := does_bind hrest
          have hretry : d₃.threads.step b (.retry self) =
              some (d₃.threads.withErrand self (.draining m false)) := by
            simp [Threads.step, hd₃.errand, hempty]
          exact ih (hd₃.move hmove' hretry hd₃.isOpen hd₃.accepted) hrest
      · rw [Bool.eq_false_iff.mpr hrunning] at hrest
        obtain ⟨-, rfl⟩ := does_pure hrest
        rw [if_neg hrunning] at hd₂
        exact hd₂
    · rw [if_neg htime] at h
      obtain ⟨_, d₁, _, _, hmove, hrest, -⟩ := does_bind h
      obtain ⟨-, rfl⟩ := does_pure hrest
      have hgive : d.threads.step b (.giveUp self) = some (d.threads.withErrand self .nothing) := by
        simp [Threads.step, hd.errand]
      exact hd.move hmove hgive hd.isOpen hd.accepted

theorem Underway.drain {timeout : Double} {drained : Bool} (hd : Underway p b l₀ rs n .nothing d)
    (h : Does (drain b timeout) d drained d' log) : Underway p b l₀ rs n .nothing d' := by
  obtain ⟨_, d₁, _, _, hmove, hrest, -⟩ := does_bind h
  obtain ⟨_, _, _, _, hget, hrest, -⟩ := does_bind hrest
  obtain ⟨rfl, rfl⟩ := does_get hget
  have hdrain : d.threads.step b (.drain self) =
      some (d.threads.withErrand self (.draining d.threads.accepted.length false)) := by
    simp [Threads.step, hd.errand]
  have hd₁ := hd.move hmove hdrain hd.isOpen hd.accepted
  exact hd₁.awaitEmpty hrest

/-- The answer is yes only if all records were offered. -/
theorem Underway.deliver {timeout : Double} {feed : Feed} (hd : Underway p b l₀ rs n .nothing d)
    (h : Does (deliver b timeout feed) d true d' log) :
    Underway p b l₀ (rs ++ feed.records) (n + feed.records.length) .nothing d' ∧
      feed.failure? = none := by
  obtain ⟨result, d₁, _, _, hattempt, hrest, -⟩ := does_bind h
  obtain ⟨_, rfl, hoffer⟩ | ⟨f, rfl⟩ := does_attempt hattempt
  · obtain ⟨hd₁, hread⟩ := hd.offerAll hoffer
    exact ⟨hd₁.drain hrest, hread⟩
  · exfalso
    dsimp only at hrest
    by_cases hf : (!f.isSinkFailure) = true
    · rw [if_pos hf] at hrest
      exact not_does_fail hrest
    · rw [if_neg hf] at hrest
      obtain ⟨_, _, _, _, hlog, hrest, -⟩ := does_bind hrest
      obtain ⟨hfalse, -⟩ := does_pure hrest
      cases hfalse

/-- What a delivery comes to once the sink is closed without a failure. -/
structure Closed (p : Plan) (b : Backend Store.Writer Store.Disk)
    (l₀ : Loop Store.Writer Store.Disk) (rs : List Record) (n : Nat) (d : Delivery)
    (log : List Log.Entry) (l : Loop Store.Writer Store.Disk) : Prop where
  leads : Loop.Leads p b rs l₀ l
  result : ((Loop.close b).run l).result = .ok ()
  loop : d.threads.loop = ((Loop.close b).run l).state
  offered : d.offered = n
  log : ∀ entry ∈ ((Loop.close b).run l).log, entry ∈ log

/-- Whatever the worker does before the program gets the lock, the loop that is closed is one that a
history leads to. -/
theorem Underway.close (hd : Underway p b l₀ rs n .nothing d) (h : Does (close b) d u d' log) :
    ∃ l, Closed p b l₀ rs n d' log l := by
  obtain ⟨_, d₁, _, log₁, hpause, hrest, hlog₁⟩ := does_bind h
  replace hd := hd.pause hpause
  obtain ⟨_, d₂, _, log₂, hmove, hrest, hlog₂⟩ := does_bind hrest
  have hstop : d₁.threads.step b (.close self) =
      some ((d₁.threads.withLoop d₁.threads.loop.stop).withErrand self .closing) := by
    simp [Threads.step, hd.errand]
  have hd₂ := hd.move hmove hstop hd.isOpen hd.accepted
  obtain ⟨_, d₃, _, log₃, hpause', hrest, hlog₃⟩ := does_bind hrest
  have hd₃ := hd₂.pause hpause'
  obtain ⟨_, _, _, log₄, hget, hrest, hlog₄⟩ := does_bind hrest
  obtain ⟨rfl, rfl⟩ := does_get hget
  obtain ⟨_, d₄, log₅, _, hmove', hrest, hlog₅⟩ := does_bind hrest
  obtain ⟨hclosed, rfl⟩ := does_lift hrest
  obtain ⟨t, hrelease, rfl, hsaid⟩ := does_move hmove'
  simp only [Threads.step, hd₃.errand] at hrelease
  cases hiteration : d₃.threads.iteration with
  | some stage =>
    rw [hiteration] at hrelease
    cases hrelease
  | none =>
    rw [hiteration] at hrelease
    obtain rfl := Option.some.inj hrelease
    obtain ⟨l, hleads, -, hloop⟩ := (hd₃.recorded.history hd₃.isOpen).of_free hiteration
    have hsame : (Loop.close b).run d₃.threads.loop = (Loop.close b).run l := by
      rw [hloop]
      exact Loop.close_amid l _
    rw [hsame] at hclosed
    refine ⟨l, hd₃.accepted ▸ hleads, hclosed, congrArg Effect.state hsame, hd₃.offered,
      fun entry he => ?_⟩
    have hmem : entry ∈ log₅ := hsaid entry (by rw [← hsame] at he; exact he)
    simp [hlog₁, hlog₂, hlog₃, hlog₄, hlog₅, hmem]

theorem Underway.deliverAndClose {timeout : Double} {feed : Feed}
    (hd : Underway p b l₀ rs n .nothing d) {d₀ : Delivery}
    (h : Does (deliverAndClose b timeout feed) d (true, d₀) d' log) :
    d₀ = d' ∧ feed.failure? = none ∧
      ∃ l, Closed p b l₀ (rs ++ feed.records) (n + feed.records.length) d' log l := by
  obtain ⟨result, d₁, _, _, hattempt, hrest, hlog⟩ := does_bind h
  obtain ⟨_, d₂, _, _, hclose, hrest, hlog'⟩ := does_bind hrest
  obtain ⟨_, _, _, _, hlift, hrest, -⟩ := does_bind hrest
  obtain ⟨hresult, rfl⟩ := does_lift hlift
  obtain ⟨_, _, _, _, hget, hrest, -⟩ := does_bind hrest
  obtain ⟨rfl, rfl⟩ := does_get hget
  obtain ⟨hpair, rfl⟩ := does_pure hrest
  obtain ⟨rfl, rfl⟩ := Prod.mk.inj hpair
  obtain ⟨drained, rfl, hdeliver⟩ | ⟨f, rfl⟩ := does_attempt hattempt
  · obtain rfl := Except.ok.inj hresult
    obtain ⟨hd₁, hread⟩ := hd.deliver hdeliver
    obtain ⟨l, hl⟩ := hd₁.close hclose
    refine ⟨rfl, hread, l, ⟨hl.leads, hl.result, hl.loop, hl.offered, fun entry he => ?_⟩⟩
    simp [hlog, hlog', hl.log entry he]
  · cases hresult

/-- The delivery of a session that was just opened. -/
theorem underway_start (s : Session Store.Writer Store.Disk) (hfree : s.inProcess = none)
    (hfailed : s.loop.lastError = none) (turns : List Turn) :
    Underway s.plan b s.loop [] 0 .nothing ⟨.start s, 0, turns⟩ :=
  ⟨Threads.Recorded.start hfree hfailed, rfl, rfl, rfl, rfl⟩

end Program
end CommandLine
end StreamTable
