/-
Commits in time.  Whenever an iteration asks for a commit, rows are pending; unless a writer is
being replaced, it asks at most once; and once it has looked for what is due, a batch is left
waiting only if neither threshold is reached or the commit was just refused.

The calls of an iteration are followed from its first one on: each is noted together with how many
rows are pending after it and whether a writer is being replaced, so that what an operation asks for
is told by the calls alone, wherever it may break off.
-/
import StreamTable.Proofs.Sink.Counts
import StreamTable.Proofs.Sink.Patience

namespace StreamTable

/-! ## The pace of calls -/

/-- How many rows are pending, and whether a writer is being replaced. -/
structure Pace where
  rows : Nat
  replacing : Bool

namespace Call

def isFlush : Call → Bool
  | .flush .. => true
  | _ => false

/-- A row that was taken is pending until a commit is done or a writer is opened for the rows to
come.  A writer is being replaced from when it asks for that until it is closed. -/
def pace (x : Pace) : Call → Pace
  | .write _ _ (.ok ()) => { x with rows := x.rows + 1 }
  | .flush _ (.ok true) => { x with rows := 0 }
  | .create _ (.ok ()) => { x with rows := 0 }
  | .updateSchema _ _ (.ok true) => { x with replacing := true }
  | .close .. => { x with replacing := false }
  | _ => x

/-- Whether a call is a commit that is asked for outside a replacement. -/
def isOwnFlush (x : Pace) (call : Call) : Bool := call.isFlush && !x.replacing

end Call

namespace Trace

/-- Each commit that is asked for has rows to commit. -/
def Timely : Pace → Trace → Prop
  | _, [] => True
  | x, call :: rest => (call.isFlush = true → 0 < x.rows) ∧ Timely (call.pace x) rest

/-- How many commits are asked for while no writer is being replaced. -/
def ownFlushes : Pace → Trace → Nat
  | _, [] => 0
  | x, call :: rest => (if call.isOwnFlush x then 1 else 0) + ownFlushes (call.pace x) rest

/-- The pace after some calls. -/
def pace (x : Pace) (t : Trace) : Pace := t.foldl Call.pace x

variable {x : Pace} {t : Trace} {call : Call}

@[simp]
theorem pace_concat : pace x (t ++ [call]) = call.pace (pace x t) := List.foldl_append

theorem timely_concat :
    Timely x (t ++ [call]) ↔ Timely x t ∧ (call.isFlush = true → 0 < (pace x t).rows) := by
  induction t generalizing x with
  | nil => exact ⟨fun h => ⟨trivial, h.1⟩, fun h => ⟨h.2, trivial⟩⟩
  | cons first rest ih =>
    rw [List.cons_append, Timely, Timely, ih, and_assoc]
    rfl

theorem ownFlushes_concat : ownFlushes x (t ++ [call]) =
    ownFlushes x t + if call.isOwnFlush (pace x t) then 1 else 0 := by
  induction t generalizing x with
  | nil => exact Nat.add_comm _ _
  | cons first rest ih =>
    rw [List.cons_append, ownFlushes, ownFlushes, ih, Nat.add_assoc]
    rfl

end Trace

/-- Neither threshold is reached: less time has passed and fewer rows are pending, where these can
be compared at all. -/
structure Thresholds.Unreached (t : Thresholds) (now : Double) (w : Window) : Prop where
  time : ∀ o, (now.sub w.lastCommit).compare? t.interval = some o → o = .lt
  rows : ∀ o, Value.compareNumbers? (.int w.records) t.maxRecords = some o → o = .lt

theorem Thresholds.unreached {t : Thresholds} {now : Double} {w : Window}
    (h : t.isDue now w = .ok false) : t.Unreached now w := by
  unfold isDue reached at h
  split at h
  · cases h
  · rename_i htime
    refine ⟨fun o ho => ?_, fun o ho => ?_⟩
    · unfold timeReached at htime
      rw [ho] at htime
      cases o with
      | lt => rfl
      | eq => exact absurd rfl htime
      | gt => exact absurd rfl htime
    · unfold Value.atLeast Value.compared at h
      split at h
      · cases h
      · split at h
        · cases h
        · have hrows := Except.ok.inj h
          rw [ho] at hrows
          cases o with
          | lt => rfl
          | eq => cases hrows
          | gt => cases hrows

open StreamTable.Action

variable {W S : Type} {b : Backend W S}

/-! ## The coordinator -/

namespace Coordinator

/-- What a coordinator has asked for since its trace was `t` and its pace `x₀`: the calls, which were
timely and held `n` commits of its own, and have led to the pace `x`.  Its window counts `k` rows. -/
structure Asked (t : Trace) (x₀ : Pace) (calls : Trace) (n : Nat) (x : Pace) (k : Nat)
    (c : Coordinator (Nat × W) (Trace × S)) : Prop where
  trace : c.trace = t ++ calls
  timely : calls.Timely x₀
  flushes : calls.ownFlushes x₀ = n
  pace : calls.pace x₀ = x
  records : c.window.records = k

/-- Where an operation has broken off, its calls were timely, with at most `n` commits of its own,
and no more rows are pending than the window counts. -/
def BrokenOff (t : Trace) (x₀ : Pace) (n : Nat) (c : Coordinator (Nat × W) (Trace × S)) : Prop :=
  ∃ calls m x k, c.Asked t x₀ calls m x k ∧ m ≤ n ∧ x.rows ≤ k

variable {c d : Coordinator (Nat × W) (Trace × S)} {t calls : Trace} {x₀ x : Pace} {n k : Nat}
  {limit : Value}

theorem asked_nil (c : Coordinator (Nat × W) (Trace × S)) (x : Pace) :
    c.Asked c.trace x [] 0 x c.window.records :=
  ⟨(List.append_nil _).symm, trivial, rfl, rfl, rfl⟩

theorem Asked.brokenOff (h : c.Asked t x₀ calls n x k) (hk : x.rows ≤ k) : c.BrokenOff t x₀ n :=
  ⟨calls, n, x, k, h, Nat.le_refl n, hk⟩

theorem BrokenOff.mono {m : Nat} (h : c.BrokenOff t x₀ n) (hm : n ≤ m) : c.BrokenOff t x₀ m := by
  obtain ⟨calls, n', x, k, hasked, hn, hk⟩ := h
  exact ⟨calls, n', x, k, hasked, Nat.le_trans hn hm, hk⟩

/-- One call more. -/
theorem Asked.call (h : c.Asked t x₀ calls n x k) {call : Call}
    (hrows : call.isFlush = true → 0 < x.rows) (htrace : d.trace = c.trace ++ [call])
    (hrecords : d.window.records = c.window.records) :
    d.Asked t x₀ (calls ++ [call]) (n + if call.isOwnFlush x then 1 else 0) (call.pace x) k where
  trace := by rw [htrace, h.trace, List.append_assoc]
  timely := by
    rw [Trace.timely_concat, h.pace]
    exact ⟨h.timely, hrows⟩
  flushes := by rw [Trace.ownFlushes_concat, h.flushes, h.pace]
  pace := by rw [Trace.pace_concat, h.pace]
  records := hrecords.trans h.records

/-- A call that asks for no commit. -/
theorem Asked.other (h : c.Asked t x₀ calls n x k) {call : Call} (hcall : call.isFlush = false)
    (htrace : d.trace = c.trace ++ [call]) (hrecords : d.window.records = c.window.records) :
    d.Asked t x₀ (calls ++ [call]) n (call.pace x) k := by
  have hasked := h.call (fun hflush => by rw [hcall] at hflush; cases hflush) htrace hrecords
  have hown : call.isOwnFlush x = false := by
    rw [Call.isOwnFlush, hcall]
    rfl
  rwa [hown] at hasked

/-- A first writer is opened while nothing is pending. -/
theorem getOrCreate_asked (schema : Avro.Schema) (h : c.Asked t x₀ calls n x k) (hk : x.rows ≤ k)
    (hidle : c.writer = none → x.rows = 0) :
    (getOrCreate b.tracing schema).Ends c
      (fun _ c' => (∃ calls', c'.Asked t x₀ calls' n x k) ∧ c'.writer.isSome)
      (fun _ c' => c'.BrokenOff t x₀ n) := by
  apply getOrCreate_cases
  case hopen =>
    intro w hw
    exact ⟨⟨calls, h⟩, by rw [hw]; rfl⟩
  case hok =>
    intro w s hw
    have hpace : (Call.create schema (.ok ())).pace x = x := by
      show { x with rows := 0 } = x
      rw [← hidle hw]
    have hasked : (c.opening schema w s).Asked t x₀ (calls ++ [.create schema (.ok ())]) n _ k :=
      h.other rfl rfl rfl
    rw [hpace] at hasked
    exact ⟨⟨_, hasked⟩, rfl⟩
  case herror =>
    intro f s _
    have hasked := h.other (d := c.noting (.create schema (.error f)) s) rfl rfl rfl
    exact hasked.brokenOff hk

theorem write_asked (row : Value) (h : c.Asked t x₀ calls n x k) (hk : x.rows ≤ k) :
    (write b.tracing row).Ends c
      (fun _ c' => (∃ calls', c'.Asked t x₀ calls' n { x with rows := x.rows + 1 } k) ∧
        c'.writer.isSome)
      (fun _ c' => c'.BrokenOff t x₀ n) := by
  apply write_cases
  case hnone => exact fun _ => h.brokenOff hk
  case hok =>
    intro w w' s _
    have hasked := h.other (d := (c.noting (.write w.1 row (.ok ())) s).withWriter (w.1, w'))
      rfl rfl rfl
    exact ⟨⟨_, hasked⟩, rfl⟩
  case herror =>
    intro w f w' s _
    have hasked := h.other (d := (c.noting (.write w.1 row (.error f)) s).withWriter (w.1, w'))
      rfl rfl rfl
    exact hasked.brokenOff hk

/-- A commit is one of the coordinator's own, unless a writer is being replaced.  One that is not
done leaves the rows pending. -/
theorem flush_asked (h : c.Asked t x₀ calls n x k) (hk : x.rows ≤ k) (hrows : 0 < x.rows) :
    (flush b.tracing limit).Ends c
      (fun done c' => (∃ calls' m,
        c'.Asked t x₀ (calls' ++ [.flush m (.ok done)]) (n + if x.replacing then 0 else 1)
          (if done then { x with rows := 0 } else x) k) ∧ c'.writer.isSome)
      (fun _ c' => c'.BrokenOff t x₀ (n + if x.replacing then 0 else 1)) := by
  have hflush (m : Nat) (result : Except Failure Bool) {d : Coordinator (Nat × W) (Trace × S)}
      (htrace : d.trace = c.trace ++ [.flush m result])
      (hrecords : d.window.records = c.window.records) :
      d.Asked t x₀ (calls ++ [.flush m result]) (n + if x.replacing then 0 else 1)
        ((Call.flush m result).pace x) k := by
    have hasked := h.call (fun _ => hrows) htrace hrecords
    rw [Call.isOwnFlush] at hasked
    cases hreplacing : x.replacing with
    | true => rwa [hreplacing] at hasked
    | false => rwa [hreplacing] at hasked
  apply flush_cases
  case hnone => exact fun _ => (h.brokenOff hk).mono (Nat.le_add_right _ _)
  case hdone =>
    intro w w' s _
    exact ⟨⟨calls, w.1, hflush w.1 (.ok true) rfl rfl⟩, rfl⟩
  case hfailed =>
    intro w w' s _
    have hasked := hflush w.1 (.ok false)
      (d := ((c.noting (.flush w.1 (.ok false)) s).withWriter (w.1, w')).failedOnce) rfl rfl
    apply commitFailed_cases
    case hwithin => exact fun _ => ⟨⟨calls, w.1, hasked⟩, rfl⟩
    case hbeyond => exact fun _ => hasked.brokenOff hk
    case hincomparable => exact fun _ => hasked.brokenOff hk
  case herror =>
    intro w f w' s _
    have hasked := hflush w.1 (.error f)
      (d := (c.noting (.flush w.1 (.error f)) s).withWriter (w.1, w')) rfl rfl
    exact hasked.brokenOff hk

/-- The commits before a writer is replaced are none of the coordinator's own. -/
theorem flushUntilDone_asked (tries : Nat) :
    ∀ {c : Coordinator (Nat × W) (Trace × S)} {calls : Trace}, c.Asked t x₀ calls n ⟨k, true⟩ k →
      0 < k →
      (flushUntilDone b.tracing limit tries).Ends c
        (fun _ c' => (∃ calls', c'.Asked t x₀ calls' n ⟨0, true⟩ k) ∧ c'.writer.isSome)
        (fun _ c' => c'.BrokenOff t x₀ n) := by
  induction tries with
  | zero => exact fun h _ => h.brokenOff (Nat.le_refl k)
  | succ tries ih =>
    intro c calls h hrows
    rw [flushUntilDone, ends_bind]
    refine (flush_asked h (Nat.le_refl k) hrows).mono (fun done c' hc => ?_) fun _ _ hc => hc
    obtain ⟨⟨calls', m, hasked⟩, hwriter⟩ := hc
    cases done with
    | true => exact ⟨⟨_, hasked⟩, hwriter⟩
    | false => exact ih hasked hrows

theorem commitPending_asked {failures : Nat} (h : c.Asked t x₀ calls n ⟨k, true⟩ k)
    (hwriter : c.writer.isSome) :
    (commitPending b.tracing limit failures k).Ends c
      (fun _ c' => (∃ calls', c'.Asked t x₀ calls' n ⟨0, true⟩ k) ∧ c'.writer.isSome)
      (fun _ c' => c'.BrokenOff t x₀ n) := by
  rw [commitPending, ends_ite]
  refine ⟨fun hpending => flushUntilDone_asked _ h (by omega), fun hnone => ?_⟩
  obtain rfl : k = 0 := by omega
  exact ⟨⟨calls, h⟩, hwriter⟩

/-- The old writer is closed, which ends the replacement, and the new one has no rows. -/
theorem replace_asked (schema : Avro.Schema) (h : c.Asked t x₀ calls n ⟨0, true⟩ k)
    (hwriter : c.writer.isSome) :
    (replace b.tracing schema).Ends c
      (fun _ c' => (∃ calls', c'.Asked t x₀ calls' n ⟨0, false⟩ k) ∧ c'.writer.isSome)
      (fun _ c' => c'.BrokenOff t x₀ n) := by
  rw [replace, ends_bind]
  apply close_cases
  case hnone =>
    intro hnone
    rw [hnone] at hwriter
    cases hwriter
  case hok =>
    intro w s _
    have hasked := h.other (d := (c.noting (.close w.1 (.ok ())) s).released) rfl rfl rfl
    exact getOrCreate_asked schema hasked (Nat.zero_le k) fun _ => rfl
  case herror =>
    intro w f s _
    have hasked := h.other (d := (c.noting (.close w.1 (.error f)) s).released) rfl rfl rfl
    exact hasked.brokenOff (Nat.zero_le k)

/-- Told of a schema, a coordinator asks for no commit of its own.  If the writer was replaced
nothing is pending any more. -/
theorem updateSchema_asked (schema : Avro.Schema) (h : c.Asked t x₀ calls n ⟨k, false⟩ k)
    (hidle : c.writer = none → k = 0) :
    (updateSchema b.tracing limit schema k).Ends c
      (fun replaced c' =>
        (∃ calls', c'.Asked t x₀ calls' n ⟨if replaced then 0 else k, false⟩ k) ∧ c'.writer.isSome)
      (fun _ c' => c'.BrokenOff t x₀ n) := by
  apply updateSchema_cases
  case hnone => exact fun _ => getOrCreate_asked schema h (Nat.le_refl k) hidle
  case hkept =>
    intro w w' s _
    have hasked := h.other
      (d := (c.noting (.updateSchema w.1 schema (.ok false)) s).withWriter (w.1, w')) rfl rfl rfl
    exact ⟨⟨_, hasked⟩, rfl⟩
  case hreplaced =>
    intro w w' s c₁ _ hc₁
    have hasked : c₁.Asked t x₀ _ n ⟨k, true⟩ k :=
      hc₁ ▸ h.other (d := (c.noting (.updateSchema w.1 schema (.ok true)) s).withWriter (w.1, w'))
        rfl rfl rfl
    rw [ends_bind]
    refine (commitPending_asked hasked (by rw [hc₁]; rfl)).mono (fun _ c₂ h₂ => ?_) fun _ _ h₂ => h₂
    obtain ⟨⟨calls₂, hasked₂⟩, hwriter₂⟩ := h₂
    exact replace_asked schema hasked₂ hwriter₂
  case herror =>
    intro w f w' s _
    have hasked := h.other
      (d := (c.noting (.updateSchema w.1 schema (.error f)) s).withWriter (w.1, w')) rfl rfl rfl
    exact hasked.brokenOff (Nat.le_refl k)

end Coordinator

/-! ## The loop -/

namespace Loop

variable {p : Plan} {clock : Readings} {l : Loop (Nat × W) (Trace × S)} {t calls : Trace}
  {x₀ x : Pace} {n k : Nat}

/-- A loop between two operations: the rows that are pending are those its window counts, no writer
is being replaced, and nothing is pending without a writer. -/
structure Stands (t : Trace) (x₀ : Pace) (calls : Trace) (n : Nat)
    (l : Loop (Nat × W) (Trace × S)) : Prop where
  asked : l.coordinator.Asked t x₀ calls n ⟨l.window.records, false⟩ l.window.records
  idle : l.coordinator.writer = none → l.window.records = 0

theorem stands_of_writer (h : l.coordinator.Asked t x₀ calls n ⟨k, false⟩ k)
    (hwriter : l.coordinator.writer.isSome) : l.Stands t x₀ calls n := by
  obtain rfl : l.window.records = k := h.records
  refine ⟨h, fun hnone => ?_⟩
  rw [hnone] at hwriter
  cases hwriter

/-- The counts of records and the active schema do not matter. -/
theorem Stands.counting (h : l.Stands t x₀ calls n) (f : Totals → Totals) (a : ActiveSchema) :
    Stands t x₀ calls n (counting f { l with active := a }) :=
  ⟨⟨h.asked.trace, h.asked.timely, h.asked.flushes, h.asked.pace, rfl⟩, h.idle⟩

theorem Stands.brokenOff (h : l.Stands t x₀ calls n) : l.coordinator.BrokenOff t x₀ n :=
  h.asked.brokenOff (Nat.le_refl _)

/-- A batch that is due was not left without an attempt: nothing is pending, or neither threshold is
reached, or the calls end with a commit that was refused. -/
def Attempted (p : Plan) (now : Double) (calls : Trace) (l : Loop W S) : Prop :=
  l.window.records = 0 ∨ p.thresholds.Unreached now l.window ∨
    ∃ m, calls.getLast? = some (.flush m (.ok false))

/-- A new window has no rows. -/
theorem reset_stands (now : Double) (h : l.coordinator.Asked t x₀ calls n ⟨0, false⟩ k) :
    (reset b.tracing now).Ends l
      (fun _ l' => (∃ calls', l'.Stands t x₀ calls' n) ∧ l'.window.records = 0)
      (fun _ l' => l'.coordinator.BrokenOff t x₀ n) := by
  apply reset_cases
  case hquiet =>
    exact ⟨⟨calls, ⟨h.trace, h.timely, h.flushes, h.pace, rfl⟩, fun _ => rfl⟩, rfl⟩
  case hok =>
    intro r s
    have hasked := h.other (d := l.coordinator.noting (.acknowledge r (.ok ())) s) rfl rfl rfl
    exact ⟨⟨_, ⟨hasked.trace, hasked.timely, hasked.flushes, hasked.pace, rfl⟩, fun _ => rfl⟩, rfl⟩
  case herror =>
    intro r f s
    have hasked := h.other (d := l.coordinator.noting (.acknowledge r (.error f)) s) rfl rfl rfl
    exact hasked.brokenOff (Nat.zero_le k)

theorem commitIfDue_stands (h : l.Stands t x₀ calls n) :
    (commitIfDue p b.tracing clock).Ends l
      (fun _ l' => ∃ calls' m, l'.Stands t x₀ calls' m ∧ m ≤ n + 1 ∧
        l'.Attempted p clock.asked calls')
      (fun _ l' => l'.coordinator.BrokenOff t x₀ (n + 1)) := by
  apply commitIfDue_cases
  case hidle => exact fun hnone => ⟨calls, n, h, Nat.le_succ n, .inl hnone⟩
  case hlater =>
    intro _ hdue
    exact ⟨calls, n, h, Nat.le_succ n, .inr (.inl (Thresholds.unreached hdue))⟩
  case hdue =>
    intro hpending _
    refine (Coordinator.flush_asked h.asked (Nat.le_refl _) hpending).mono (fun done c hc => ?_)
      fun _ _ hc => hc
    obtain ⟨⟨calls', m, hasked⟩, hwriter⟩ := hc
    cases done with
    | true =>
      rw [if_pos rfl]
      refine (reset_stands clock.committed hasked).mono (fun _ l' hl' => ?_) fun _ _ hl' => hl'
      obtain ⟨⟨calls'', hstands⟩, hnone⟩ := hl'
      exact ⟨calls'', n + 1, hstands, Nat.le_refl _, .inl hnone⟩
    | false =>
      have hstands : Stands t x₀ (calls' ++ [.flush m (.ok false)]) (n + 1)
          { l with coordinator := c } := stands_of_writer hasked hwriter
      exact ⟨_, n + 1, hstands, Nat.le_refl _, .inr (.inr ⟨m, List.getLast?_concat⟩)⟩
  case hfault => exact fun fault _ => h.brokenOff.mono (Nat.le_succ n)

theorem bind_stands (schema : Avro.Schema) (binding : Binding) (h : l.Stands t x₀ calls n) :
    (bind p b.tracing clock schema binding).Ends l (fun _ l' => ∃ calls', l'.Stands t x₀ calls' n)
      (fun _ l' => l'.coordinator.BrokenOff t x₀ n) := by
  simp only [bind, ends_bind, ends_get]
  rw [ends_ite]
  refine ⟨fun _ => ?_, fun _ => ⟨calls, h⟩⟩
  simp only [ends_bind, ends_onCoordinator, ends_modify]
  refine (Coordinator.updateSchema_asked schema h.asked h.idle).mono (fun replaced c hc => ?_)
    fun _ _ hc => hc
  obtain ⟨⟨calls', hasked⟩, hwriter⟩ := hc
  cases replaced with
  | true => exact (reset_stands _ hasked).mono (fun _ _ hl' => hl'.1) fun _ _ hl' => hl'
  | false => exact ⟨calls', stands_of_writer hasked hwriter⟩

theorem store_stands (r : Record) (schema : Avro.Schema) (row : Value)
    (h : l.Stands t x₀ calls n) :
    (store b.tracing r schema row).Ends l (fun _ l' => ∃ calls', l'.Stands t x₀ calls' n)
      (fun _ l' => l'.coordinator.BrokenOff t x₀ n) := by
  simp only [store, ends_bind, ends_onCoordinator, ends_modify, ends_count]
  refine (Coordinator.getOrCreate_asked schema h.asked (Nat.le_refl _) h.idle).mono
    (fun _ c hc => ?_) fun _ _ hc => hc
  obtain ⟨⟨calls₁, hasked₁⟩, -⟩ := hc
  refine (Coordinator.write_asked row hasked₁ (Nat.le_refl _)).mono (fun _ c' hc' => ?_)
    fun _ _ hc' => hc'
  obtain ⟨⟨calls₂, hasked₂⟩, hwriter⟩ := hc'
  have hcounted : c'.window.records + 1 = l.window.records + 1 :=
    congrArg (· + 1) hasked₂.records
  exact ⟨calls₂, stands_of_writer
    ⟨hasked₂.trace, hasked₂.timely, hasked₂.flushes, hasked₂.pace, hcounted⟩ hwriter⟩

/-- What is not written, or is asked when a commit is due, is followed by no commit. -/
theorem deliver_stands (r : Record) (schema : Avro.Schema) (binding : Binding)
    (h : l.Stands t x₀ calls 0) :
    (deliver p b.tracing clock r schema binding).Ends l
      (fun _ l' => ∃ calls' m, l'.Stands t x₀ calls' m ∧ m ≤ 1 ∧
        (l.written < l'.written → l'.Attempted p clock.asked calls'))
      (fun _ l' => l'.coordinator.BrokenOff t x₀ 1) := by
  have houtcomes : (bind p b.tracing clock schema binding).Ends l
      (fun _ l' => l'.outcomes = l.outcomes) (fun _ l' => l'.outcomes = l.outcomes) :=
    (bind_outcomes schema binding).ends l
  apply deliver_cases
  refine ((bind_stands schema binding h).and houtcomes).mono (fun _ l₁ h₁ => ?_)
    fun _ _ h₁ => h₁.1.mono (Nat.zero_le 1)
  obtain ⟨⟨calls₁, hstands₁⟩, houtcomes⟩ := h₁
  split
  · -- A record that is dropped is not written.
    have hwritten : l₁.written = l.written := congrArg Prod.fst houtcomes
    refine ⟨calls₁, 0, hstands₁.counting _ _, Nat.zero_le 1, fun hmore => ?_⟩
    have hmore : l.written < l₁.written := hmore
    omega
  · have hdecoding : (l₁.decoding p r schema).Stands t x₀ calls₁ 0 :=
      ⟨hstands₁.asked, hstands₁.idle⟩
    refine (store_stands r schema _ hdecoding).mono (fun _ l₂ h₂ => ?_)
      fun _ _ h₂ => h₂.mono (Nat.zero_le 1)
    obtain ⟨calls₂, hstands₂⟩ := h₂
    refine (commitIfDue_stands hstands₂).mono (fun _ l₃ h₃ => ?_) fun _ _ h₃ => h₃
    obtain ⟨calls₃, m, hstands₃, hm, hattempted⟩ := h₃
    exact ⟨calls₃, m, hstands₃, hm, fun _ => hattempted⟩

theorem handle_stands (r : Record) (h : l.Stands t x₀ calls 0) :
    (handle p b.tracing clock r).Ends l
      (fun _ l' => ∃ calls' m, l'.Stands t x₀ calls' m ∧ m ≤ 1 ∧
        (l.written < l'.written → l'.Attempted p clock.asked calls'))
      (fun _ l' => l'.coordinator.BrokenOff t x₀ 1) := by
  have hfollowing (changed : Bool) (a : ActiveSchema) :
      (l.following changed a).Stands t x₀ calls 0 ∧ (l.following changed a).written = l.written :=
    ⟨h.counting _ _, by cases changed <;> rfl⟩
  apply handle_ends rfl
  case hskipped =>
    intro _
    refine ⟨calls, 0, h.counting _ l.active, Nat.zero_le 1, fun hmore => ?_⟩
    exact absurd hmore (Nat.lt_irrefl _)
  case hrefused =>
    intro f _
    exact (hfollowing _ _).1.brokenOff.mono (Nat.zero_le 1)
  case hadmitted =>
    intro schema binding _
    obtain ⟨hstands, hwritten⟩ := hfollowing (l.active.receive p.fieldName r).changed
      (l.active.receive p.fieldName r).active
    rw [← hwritten]
    exact deliver_stands r schema binding hstands

theorem iterate_stands (timeout : Double) (h : l.Stands t x₀ calls 0) :
    (iterate p b.tracing clock timeout).Ends l
      (fun _ l' => ∃ calls' m, l'.Stands t x₀ calls' m ∧ m ≤ 1 ∧
        (l.queue = [] ∨ l.written < l'.written → l'.Attempted p clock.asked calls'))
      (fun _ l' => l'.coordinator.BrokenOff t x₀ 1) := by
  refine iterate_cases (fun _ _ => h.brokenOff.mono (Nat.zero_le 1)) (fun _ => ?_)
    fun r rest hqueue => ?_
  · refine (commitIfDue_stands h).mono (fun _ l' hl' => ?_) fun _ _ hl' => hl'
    obtain ⟨calls', m, hstands, hm, hattempted⟩ := hl'
    exact ⟨calls', m, hstands, hm, fun _ => hattempted⟩
  · refine (handle_stands r (l := { l with queue := rest }) ⟨h.asked, h.idle⟩).mono
      (fun _ l' hl' => ?_) fun _ _ hl' => hl'
    obtain ⟨calls', m, hstands, hm, hattempted⟩ := hl'
    refine ⟨calls', m, hstands, hm, fun hmore => hattempted ?_⟩
    obtain hnil | hmore := hmore
    · rw [hqueue] at hnil
      cases hnil
    · exact hmore

/-- What an iteration from `l` to `l'` has asked for.  A call may end the iteration, so that the
rows that are pending at a call are always among those that the window counts then. -/
structure Punctual (p : Plan) (now : Double) (calls : Trace) {W W' S S' : Type} (l : Loop W S)
    (l' : Loop W' S') : Prop where
  timely : calls.Timely ⟨l.window.records, false⟩
  once : calls.ownFlushes ⟨l.window.records, false⟩ ≤ 1
  counted : (calls.pace ⟨l.window.records, false⟩).rows ≤ l'.window.records
  settled : l'.running = true → calls.pace ⟨l.window.records, false⟩ = ⟨l'.window.records, false⟩
  attempted : l'.running = true → l.queue = [] ∨ l.written < l'.written →
    l'.Attempted p now calls

/-- While a loop runs, nothing is pending without a writer. -/
def Idle (l : Loop W S) : Prop :=
  l.running = true → l.coordinator.writer = none → l.window.records = 0

theorem advance_punctual (timeout : Double) (h : l.Idle) :
    let l' := ((advance p b.tracing clock timeout).run l).state
    l'.Idle ∧ (l.running = true →
      ∃ calls, l'.trace = l.trace ++ calls ∧ Punctual p clock.asked calls l l') := by
  refine advance_cases (R := fun l' => l'.Idle ∧ (l.running = true →
    ∃ calls, l'.trace = l.trace ++ calls ∧ Punctual p clock.asked calls l l'))
    (fun hstopped => ⟨h, fun hr => ?_⟩) fun hrunning => ?_
  · rw [hstopped] at hr
    cases hr
  · have hstands : l.Stands l.trace ⟨l.window.records, false⟩ [] 0 :=
      ⟨Coordinator.asked_nil _ _, h hrunning⟩
    refine (iterate_stands timeout hstands).mono (fun _ l' hl' => ?_) fun f l' hl' => ?_
    · obtain ⟨calls, m, hstands', hm, hattempted⟩ := hl'
      have hasked := hstands'.asked
      have hpace := hasked.pace
      refine ⟨fun _ => hstands'.idle, fun _ => ⟨calls, hasked.trace, hasked.timely, ?_, ?_,
        fun _ => hpace, fun _ => hattempted⟩⟩
      · rw [hasked.flushes]
        exact hm
      · exact Nat.le_of_eq (congrArg Pace.rows hpace)
    · obtain ⟨calls, m, x, k, hasked, hm, hk⟩ := hl'
      refine ⟨fun hr => (by cases hr), fun _ => ⟨calls, hasked.trace, hasked.timely, ?_, ?_,
        fun hr => (by cases hr), fun hr => (by cases hr)⟩⟩
      · rw [hasked.flushes]
        exact hm
      · rw [hasked.pace]
        exact hasked.records ▸ hk

theorem after_idle (events : List Event) (h : l.Idle) : (after p b.tracing events l).Idle := by
  induction events generalizing l with
  | nil => exact h
  | cons e events ih =>
    refine ih ?_
    cases e with
    | put r => exact h
    | iterate clock timeout => exact (advance_punctual timeout h).1

/-- Whatever the table writers answer and wherever they fail, an iteration of a loop that runs, while
the clock stands still, asks for a commit only when rows are pending, and at most once unless a
writer is being replaced.  If it found the queue empty or wrote a row, and the loop still runs, then
nothing is pending, or neither threshold is reached, or the last thing it did was a commit that was
refused. -/
theorem due_batch_attempted (p : Plan) (b : Backend W S) (events : List Event) (world : S)
    (started now timeout : Double) :
    let l := after p b events (start world started)
    let traced := after p b.tracing events (start ([], world) started)
    let l' := ((next p b now timeout).run l).state
    let traced' := ((next p b.tracing now timeout).run traced).state
    traced.map Prod.snd Prod.snd = l ∧ traced'.map Prod.snd Prod.snd = l' ∧
      (l.running = true →
        ∃ calls, traced'.trace = traced.trace ++ calls ∧ Punctual p now calls l l') := by
  intro l traced l' traced'
  have hmap : traced.map Prod.snd Prod.snd = l := map_after b.tracing_mirrors events _
  have hmap' : traced'.map Prod.snd Prod.snd = l' := by
    have hstep := map_apply (p := p) b.tracing_mirrors traced (.iterate (.still now) timeout)
    rw [hmap] at hstep
    exact hstep
  have hidle : traced.Idle := after_idle events fun _ _ => rfl
  refine ⟨hmap, hmap', fun hrunning => ?_⟩
  rw [← hmap] at hrunning
  obtain ⟨calls, htrace, h⟩ := (advance_punctual timeout hidle).2 hrunning
  refine ⟨calls, htrace, ?_⟩
  rw [← hmap, ← hmap']
  exact ⟨h.timely, h.once, h.counted, h.settled, h.attempted⟩

/-- Where each row makes a commit due and no commit is done, the row that was just written is still
pending, and due, after an iteration; so that iteration has tried to commit it. -/
theorem refused_batch_attempted : ∃ p, Plan.ofSettings Settings.impatient = .ok p ∧
    let l := after p .unwilling [.put ordinary] (start () .zero)
    let l' := ((next p .unwilling .zero .zero).run l).state
    l.running = true ∧ l'.running = true ∧ l.written < l'.written ∧ l'.window.records = 1 ∧
      ¬p.thresholds.Unreached .zero l'.window ∧
      ∃ calls m, Trace.Timely ⟨0, false⟩ calls ∧
        calls.getLast? = some (.flush m (.ok false)) := by
  have hrun : Except.passes (fun p =>
      let l := after p .unwilling [.put ordinary] (start () .zero)
      let l' := ((next p .unwilling .zero .zero).run l).state
      l.running = true ∧ l'.running = true ∧ l.written < l'.written ∧ l'.window.records = 1 ∧
        l.window.records = 0 ∧
        Value.compareNumbers? (.int l'.window.records) p.thresholds.maxRecords = some .eq)
      (Plan.ofSettings Settings.impatient) = true := by
    decide +kernel
  obtain ⟨p, hp, hrun⟩ := Except.of_passes hrun
  obtain ⟨hrunning, hrunning', hwritten, hrecords, hnone, hreached⟩ := of_decide_eq_true hrun
  obtain ⟨-, -, h⟩ := due_batch_attempted p .unwilling [.put ordinary] () .zero .zero .zero
  obtain ⟨calls, -, h⟩ := h hrunning
  have hdue : ¬p.thresholds.Unreached .zero
      ((next p .unwilling .zero .zero).run
        (after p .unwilling [.put ordinary] (start () .zero))).state.window :=
    fun hunreached => by cases hunreached.rows _ hreached
  have htimely := h.timely
  rw [hnone] at htimely
  refine ⟨p, hp, hrunning, hrunning', hwritten, hrecords, hdue, calls, ?_⟩
  obtain hzero | hunreached | ⟨m, hlast⟩ := h.attempted hrunning' (.inr hwritten)
  · rw [hrecords] at hzero
    cases hzero
  · exact absurd hunreached hdue
  · exact ⟨m, htimely, hlast⟩

end Loop
end StreamTable
