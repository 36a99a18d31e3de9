/-
Rows that are pending when a writer is replaced.  They are committed first, with repeated attempts,
and nothing in the repetition counts the attempts: it ends because every failed commit is counted,
and too many of them in a row end in a failure.  So the old writer is closed only after a commit
that was done, and if none is done it stays open with its rows.

`FlushesUntilDone` is the repetition without a bound on the attempts.
-/
import StreamTable.Proofs.Sink.Discipline
import StreamTable.Proofs.Sink.Patience

namespace StreamTable

open StreamTable.Action

variable {W S : Type}

namespace Coordinator

section Repetition

variable {b : Backend W S} {limit : Value} {m : Int} {c : Coordinator W S}

/-- Flushing until it is done or fails, as often as that takes, comes to an end with this effect. -/
inductive FlushesUntilDone (b : Backend W S) (limit : Value) :
    Coordinator W S → Effect (Coordinator W S) Unit → Prop where
  | done {c c' : Coordinator W S} {log : List Log.Entry}
      (h : (flush b limit).run c = ⟨.ok true, c', log⟩) :
      FlushesUntilDone b limit c ⟨.ok (), c', log⟩
  | failed {c c' : Coordinator W S} {f : Failure} {log : List Log.Entry}
      (h : (flush b limit).run c = ⟨.error f, c', log⟩) :
      FlushesUntilDone b limit c ⟨.error f, c', log⟩
  | again {c c' : Coordinator W S} {log : List Log.Entry} {e : Effect (Coordinator W S) Unit}
      (h : (flush b limit).run c = ⟨.ok false, c', log⟩) (rest : FlushesUntilDone b limit c' e) :
      FlushesUntilDone b limit c ⟨e.result, e.state, log ++ e.log⟩

/-- A commit that was not done is one failure more, and the end if there are too many of them. -/
theorem ends_commitFailed (hlimit : limit.asInt? = some m) {Q : Unit → Coordinator W S → Prop}
    {E : Failure → Coordinator W S → Prop} :
    (commitFailed limit).Ends c Q E ↔
      if m < c.failedOnce.window.failures then
        E (.commits c.failedOnce.window.failures limit) c.failedOnce
      else Q () c.failedOnce := by
  have hexceeds : Value.exceeds (.int c.failedOnce.window.failures) limit =
      .ok (decide (m < c.failedOnce.window.failures)) := Value.exceeds_of_asInt rfl hlimit
  simp only [commitFailed, say, ends_bind, ends_modify, ends_get, ends_log]
  show (Action.lift ((Value.exceeds (.int c.failedOnce.window.failures) limit).mapError
    Failure.data)).Ends c.failedOnce _ _ ↔ _
  rw [hexceeds]
  by_cases hmany : m < c.failedOnce.window.failures
  · rw [if_pos hmany, decide_eq_true hmany]
    exact Iff.rfl
  · rw [if_neg hmany, decide_eq_false hmany]
    exact Iff.rfl

theorem flush_failures (hlimit : limit.asInt? = some m) :
    (flush b limit).Ends c
      (fun done c' => done = false →
        c'.window.failures = c.window.failures + 1 ∧ (c'.window.failures : Int) ≤ m)
      (fun _ _ => True) := by
  simp only [flush, ends_bind, ends_get]
  cases c.writer with
  | none => exact trivial
  | some w =>
    simp only [ends_bind, onWriter, ends_focus]
    refine Ends.of_forall (fun done x => ?_) fun _ _ => trivial
    cases done with
    | true =>
      rw [if_pos rfl, ends_bind, ends_commitDone]
      intro h
      cases h
    | false =>
      rw [if_neg Bool.false_ne_true, ends_bind, ends_commitFailed hlimit]
      split
      · exact trivial
      · next hfew => exact fun _ => ⟨rfl, Int.not_lt.mp hfew⟩

/-- The repetition ends by itself before the attempts run out, whatever the writer answers. -/
theorem flushesUntilDone (hlimit : limit.asInt? = some m) (tries : Nat)
    (hwithin : (c.window.failures : Int) ≤ m) (henough : m + 1 ≤ tries + c.window.failures) :
    FlushesUntilDone b limit c ((flushUntilDone b limit tries).run c) := by
  induction tries generalizing c with
  | zero => omega
  | succ tries ih =>
    have hends := flush_failures (b := b) (c := c) hlimit
    rw [flushUntilDone]
    unfold Ends at hends
    rcases hrun : (flush b limit).run c with ⟨f | done, c', log⟩
    · rw [run_bind_of_error hrun]
      exact .failed hrun
    · rw [hrun] at hends
      rw [run_bind_of_ok hrun]
      cases done with
      | true =>
        rw [if_pos rfl, run_pure, List.append_nil]
        exact .done hrun
      | false =>
        obtain ⟨hmore, hwithin'⟩ : c'.window.failures = c.window.failures + 1 ∧
            (c'.window.failures : Int) ≤ m := hends rfl
        rw [if_neg Bool.false_ne_true]
        exact .again hrun (ih hwithin' (by omega))

end Repetition

/-! ## The calls of the writer -/

section Tried

variable {b : Backend W S} {limit : Value} {m : Int} {n k : Nat} {w : Nat × W}
  {c c' c'' : Coordinator (Nat × W) (Trace × S)}

/-- What is left of commits of the open writer: so many were not done, and then one was, if it is
said so. -/
structure Tried (n k : Nat) (done : Bool) (c c' : Coordinator (Nat × W) (Trace × S)) : Prop where
  trace : c'.trace = c.trace ++ (List.replicate k (.flush n (.ok false)) ++
    if done then [.flush n (.ok true)] else [])
  writer : c'.writer.map Prod.fst = some n
  opened : c'.opened = c.opened
  failures : c'.window.failures = if done then 0 else c.window.failures + k
  commits : c'.totals.commits = c.totals.commits + if done then 1 else 0
  commitFailures : c'.totals.commitFailures = c.totals.commitFailures + k

/-- A commit that was not done, and those after it. -/
theorem Tried.cons {done : Bool} (h : Tried n 1 false c c') (h' : Tried n k done c' c'') :
    Tried n (k + 1) done c c'' where
  trace := by
    rw [h'.trace, h.trace, List.append_assoc, ← List.append_assoc _ (List.replicate k _)]
    simp [List.replicate_succ]
  writer := h'.writer
  opened := h'.opened.trans h.opened
  failures := by
    rw [h'.failures, h.failures]
    cases done with
    | true => rfl
    | false =>
      simp only [Bool.false_eq_true, if_false]
      omega
  commits := by
    rw [h'.commits, h.commits]
    simp
  commitFailures := by
    rw [h'.commitFailures, h.commitFailures]
    omega

theorem flush_tried (hflush : b.flush.Succeeds) (hlimit : limit.asInt? = some m)
    (hw : c.writer = some w) (hwithin : (c.window.failures : Int) ≤ m) :
    (flush b.tracing limit).Ends c
      (fun done c' => Tried w.1 (if done then 0 else 1) done c c' ∧
        (c'.window.failures : Int) ≤ m)
      (fun f c' => Tried w.1 1 false c c' ∧ (c'.window.failures : Int) = m + 1 ∧
        f = .commits c'.window.failures limit) := by
  simp only [flush, ends_bind, ends_get, hw, onWriter, ends_focus]
  show (Backend.tracedCall .flush b.flush).Ends ((w.1, w.2), (c.trace, c.world.2)) _ _
  rw [Backend.ends_tracedCall]
  refine (hflush _).mono (fun done x _ => ?_) fun _ _ hf => hf.elim
  cases done with
  | true =>
    rw [if_pos rfl, ends_bind, ends_commitDone, ends_pure]
    refine ⟨⟨rfl, rfl, rfl, rfl, rfl, rfl⟩, ?_⟩
    show ((0 : Nat) : Int) ≤ m
    omega
  | false =>
    rw [if_neg Bool.false_ne_true, ends_bind, ends_commitFailed hlimit]
    split
    · next hmany =>
      replace hmany : m < (c.window.failures + 1 : Nat) := hmany
      refine ⟨⟨rfl, rfl, rfl, rfl, rfl, rfl⟩, ?_, rfl⟩
      show ((c.window.failures + 1 : Nat) : Int) = m + 1
      omega
    · next hfew => exact ⟨⟨rfl, rfl, rfl, rfl, rfl, rfl⟩, Int.not_lt.mp hfew⟩

/-- The attempts go on until one is done, or one more than the limit allows was not. -/
theorem flushUntilDone_tried (hflush : b.flush.Succeeds) (hlimit : limit.asInt? = some m)
    (tries : Nat) (hw : c.writer.map Prod.fst = some n) (hwithin : (c.window.failures : Int) ≤ m)
    (henough : m + 1 ≤ tries + c.window.failures) :
    (flushUntilDone b.tracing limit tries).Ends c
      (fun _ c' => ∃ k : Nat, (c.window.failures + k : Int) ≤ m ∧ Tried n k true c c')
      (fun f c' => ∃ k : Nat, (c.window.failures + k : Int) = m + 1 ∧ Tried n k false c c' ∧
        f = .commits (c.window.failures + k) limit) := by
  induction tries generalizing c with
  | zero => omega
  | succ tries ih =>
    obtain ⟨w, hopen, rfl⟩ := Option.map_eq_some_iff.mp hw
    rw [flushUntilDone, ends_bind]
    refine (flush_tried hflush hlimit hopen hwithin).mono (fun done c' hc => ?_) fun f c' hc => ?_
    · obtain ⟨htried, hwithin'⟩ := hc
      cases done with
      | true =>
        rw [if_pos rfl, ends_pure]
        exact ⟨0, by simpa using hwithin, htried⟩
      | false =>
        have hmore : c'.window.failures = c.window.failures + 1 := htried.failures
        rw [if_neg Bool.false_ne_true]
        refine (ih htried.writer hwithin' (by omega)).mono (fun _ c'' hc => ?_) fun f c'' hc => ?_
        · obtain ⟨k, hk, hrest⟩ := hc
          exact ⟨k + 1, by omega, htried.cons hrest⟩
        · obtain ⟨k, hk, hrest, hf⟩ := hc
          refine ⟨k + 1, by omega, htried.cons hrest, ?_⟩
          rw [hf, hmore, Nat.add_assoc, Nat.add_comm 1 k]
    · obtain ⟨htried, hbeyond, hf⟩ := hc
      have hmore : c'.window.failures = c.window.failures + 1 := htried.failures
      exact ⟨1, by omega, htried, by rw [hf, hmore]⟩

end Tried

/-! ## The replacement -/

section Replaced

variable {b : Backend W S} {schema : Avro.Schema} {n : Nat} {c : Coordinator (Nat × W) (Trace × S)}

/-- The calls by which a writer is replaced, with what comes of that: the writer is closed, and
another one is opened if that went well. -/
inductive Replaces (n : Nat) (schema : Avro.Schema) : Trace → Except Failure Bool → Prop where
  | unclosed (f : Failure) : Replaces n schema [.close n (.error f)] (.error f)
  | unopened (f : Failure) :
      Replaces n schema [.close n (.ok ()), .create schema (.error f)] (.error (.writerCreation f))
  | opened : Replaces n schema [.close n (.ok ()), .create schema (.ok ())] (.ok true)

/-- What a replacement leaves. -/
structure Replaced (n : Nat) (schema : Avro.Schema) (result : Except Failure Bool)
    (c c' : Coordinator (Nat × W) (Trace × S)) : Prop where
  trace : ∃ calls, Replaces n schema calls result ∧ c'.trace = c.trace ++ calls
  window : c'.window = c.window
  totals : c'.totals = c.totals
  writer : c'.writer.isSome = result.isOk
  opened : c'.opened = c.opened + if result.isOk then 1 else 0

theorem replace_replaced (hw : c.writer.map Prod.fst = some n) :
    (replace b.tracing schema).Ends c (fun _ c' => Replaced n schema (.ok true) c c')
      (fun f c' => Replaced n schema (.error f) c c') := by
  obtain ⟨w, hopen, rfl⟩ := Option.map_eq_some_iff.mp hw
  rw [replace, ends_bind]
  refine close_cases (fun hnone => ?_) (fun w' s hw' => ?_) fun w' f s hw' => ?_
  · rw [hopen] at hnone
    cases hnone
  · obtain rfl := Option.some.inj (hopen.symm.trans hw')
    refine getOrCreate_cases (fun w' hw' => ?_) (fun w' s' _ => ?_) fun f s' _ => ?_
    · cases hw'
    · exact ⟨⟨_, .opened, by simp [opening, withWriter, released, Coordinator.trace, noting]⟩, rfl,
        rfl, rfl, rfl⟩
    · exact ⟨⟨_, .unopened f, by simp [released, Coordinator.trace, noting]⟩, rfl, rfl, rfl, rfl⟩
  · obtain rfl := Option.some.inj (hopen.symm.trans hw')
    exact ⟨⟨_, .unclosed f, rfl⟩, rfl, rfl, rfl, rfl⟩

/-- What comes of a replacement that is asked for while rows are pending: the attempts end with a
commit that was done, and the writer is replaced, or with one failure more than the limit allows. -/
def ReplacedOnceDone (limit : Value) (m : Int) (n : Nat) (schema : Avro.Schema)
    (result : Except Failure Bool) (c c' : Coordinator (Nat × W) (Trace × S)) : Prop :=
  ∃ k : Nat,
    ((c.window.failures + k ≤ m ∧ ∃ done, Tried n k true c done ∧ Replaced n schema result done c') ∨
      (c.window.failures + k = m + 1 ∧ Tried n k false c c' ∧
        result = .error (.commits (c.window.failures + k) limit)))

theorem updateSchema_replacedOnceDone (hflush : b.flush.Succeeds) {limit : Value} {m : Int}
    (hlimit : limit.asInt? = some m) {pending : Int} (hpending : 0 < pending) {w : Nat × W}
    (hw : c.writer = some w) (hwithin : (c.window.failures : Int) ≤ m)
    (hasks : (b.updateSchema schema).Ends (w.2, c.world.2) (fun asks _ => asks = true)
      fun _ _ => False) :
    (updateSchema b.tracing limit schema pending).Ends c
      (fun x c' => ∃ w' s, ReplacedOnceDone limit m w.1 schema (.ok x)
        ((c.noting (.updateSchema w.1 schema (.ok true)) s).withWriter (w.1, w')) c')
      (fun f c' => ∃ w' s, ReplacedOnceDone limit m w.1 schema (.error f)
        ((c.noting (.updateSchema w.1 schema (.ok true)) s).withWriter (w.1, w')) c') := by
  simp only [updateSchema, ends_bind, ends_get, hw, onWriter, ends_focus]
  show (Backend.tracedCall (fun n => .updateSchema n schema) (b.updateSchema schema)).Ends
    ((w.1, w.2), (c.trace, c.world.2)) _ _
  rw [Backend.ends_tracedCall]
  refine hasks.mono (fun asks p hasks => ?_) fun _ _ hf => hf.elim
  cases hasks
  rw [Bool.not_true, if_neg Bool.false_ne_true, if_pos hpending]
  simp only [ends_bind, say, ends_log]
  refine (flushUntilDone_tried
    (c := (c.noting (.updateSchema w.1 schema (.ok true)) p.2).withWriter (w.1, p.1)) hflush hlimit _
    rfl hwithin (patience_of_asInt hlimit _)).mono (fun _ done hdone => ?_) fun f c' hfailed => ?_
  · obtain ⟨k, hk, htried⟩ := hdone
    have hreplaced : (replace b.tracing schema).Ends done _ _ := replace_replaced htried.writer
    rw [replace, ends_bind] at hreplaced
    refine hreplaced.mono (fun _ c' hc => ?_) fun f c' hc => ?_
    · refine hc.mono (fun _ c'' hc => ?_) fun f c'' hc => ?_
      · exact ⟨p.1, p.2, k, .inl ⟨hk, done, htried, hc⟩⟩
      · exact ⟨p.1, p.2, k, .inl ⟨hk, done, htried, hc⟩⟩
    · exact ⟨p.1, p.2, k, .inl ⟨hk, done, htried, hc⟩⟩
  · obtain ⟨k, hk, htried, hf⟩ := hfailed
    exact ⟨p.1, p.2, k, .inr ⟨hk, htried, congrArg Except.error hf⟩⟩

end Replaced

/-- A coordinator whose writer has a number, after calls that left a trace. -/
def onRecord (c : Coordinator W S) (n : Nat) (t : Trace) : Coordinator (Nat × W) (Trace × S) :=
  c.map (fun w => (n, w)) fun s => (t, s)

/-- An open writer that asks to be replaced while rows are pending is flushed until that is done, as
long as the failures in a row do not exceed the limit.  Nothing else bounds the attempts.  Only after
a commit that was done is the writer closed and another one opened, and then no failures are left
behind; after one failure more than the limit the writer is still open, and no other one is. -/
theorem replaced_only_once_flushed (b : Backend W S) (hflush : b.flush.Succeeds) {limit : Value}
    {m : Int} (hlimit : limit.asInt? = some m) (schema : Avro.Schema) {pending : Int}
    (hpending : 0 < pending) {c : Coordinator W S} {w : W} (hw : c.writer = some w)
    (hwithin : (c.window.failures : Int) ≤ m)
    (hasks : ((b.updateSchema schema).run (w, c.world)).result = .ok true) (n : Nat) (t : Trace) :
    let told := ((b.updateSchema schema).run (w, c.world)).state
    let asked : Coordinator W S := { c with writer := some told.1, world := told.2 }
    let e := (updateSchema b limit schema pending).run c
    let traced := (updateSchema b.tracing limit schema pending).run (c.onRecord n t)
    (traced.result = e.result ∧ traced.state.map Prod.snd Prod.snd = e.state) ∧
      FlushesUntilDone b limit asked
        ((flushUntilDone b limit (patience limit c.window.failures)).run asked) ∧
      ∃ k : Nat, e.state.totals.commitFailures = c.totals.commitFailures + k ∧
        ((c.window.failures + k ≤ m ∧
            (∃ calls, Replaces n schema calls e.result ∧
              traced.state.trace = t ++ .updateSchema n schema (.ok true) ::
                (List.replicate k (.flush n (.ok false)) ++ .flush n (.ok true) :: calls)) ∧
            e.state.totals.commits = c.totals.commits + 1 ∧ e.state.window.failures = 0 ∧
            e.state.writer.isSome = e.result.isOk ∧
            e.state.opened = c.opened + if e.result.isOk then 1 else 0) ∨
          (c.window.failures + k = m + 1 ∧
            e.result = .error (.commits (c.window.failures + k) limit) ∧
            traced.state.trace = t ++ .updateSchema n schema (.ok true) ::
              List.replicate k (.flush n (.ok false)) ∧
            e.state.totals.commits = c.totals.commits ∧
            e.state.window.failures = c.window.failures + k ∧
            traced.state.writer.map Prod.fst = some n ∧ e.state.opened = c.opened)) := by
  intro told asked e traced
  have hmirrors := updateSchema_mirrors b.tracing_mirrors limit schema pending (c.onRecord n t)
  have hplain : (c.onRecord n t).map Prod.snd Prod.snd = c := by
    obtain ⟨writer, world, opened, window, totals⟩ := c
    cases writer <;> rfl
  rw [hplain] at hmirrors
  have hresult : e.result = traced.result := by
    show ((updateSchema b limit schema pending).run c).result = _
    rw [hmirrors, Except.map_id]
    rfl
  have hstate : e.state = traced.state.map Prod.snd Prod.snd := congrArg Effect.state hmirrors
  refine ⟨⟨hresult.symm, hstate.symm⟩,
    flushesUntilDone (c := asked) hlimit _ hwithin (patience_of_asInt hlimit _), ?_⟩
  rw [hresult, hstate]
  have hopen : (c.onRecord n t).writer = some (n, w) := by
    rw [onRecord, Coordinator.map, hw]
    rfl
  have htells : (b.updateSchema schema).Ends (w, c.world) (fun asks _ => asks = true)
      fun _ _ => False := by
    unfold Ends
    rw [hasks]
  obtain ⟨w', s, k, h⟩ := Ends.outcome (R := fun result c' => ∃ w' s,
    ReplacedOnceDone limit m n schema result
      (((c.onRecord n t).noting (.updateSchema n schema (.ok true)) s).withWriter (n, w')) c')
    (updateSchema_replacedOnceDone hflush hlimit hpending hopen hwithin htells)
  have htrace : (((c.onRecord n t).noting (.updateSchema n schema (.ok true)) s).withWriter
      (n, w')).trace = t ++ [.updateSchema n schema (.ok true)] := rfl
  refine ⟨k, ?_⟩
  obtain ⟨hk, done, htried, hreplaced⟩ | ⟨hk, htried, hf⟩ := h
  · obtain ⟨calls, hcalls, htrace'⟩ := hreplaced.trace
    refine ⟨?_, .inl ⟨hk, ⟨calls, hcalls, ?_⟩, ?_, ?_, ?_, ?_⟩⟩
    · exact (congrArg Totals.commitFailures hreplaced.totals).trans htried.commitFailures
    · rw [htrace', htried.trace, htrace]
      simp
    · exact (congrArg Totals.commits hreplaced.totals).trans htried.commits
    · exact (congrArg Window.failures hreplaced.window).trans htried.failures
    · exact (Option.isSome_map ..).trans hreplaced.writer
    · exact hreplaced.opened.trans (congrArg (· + _) htried.opened)
  · refine ⟨htried.commitFailures, .inr ⟨hk, hf, ?_, htried.commits, htried.failures,
      htried.writer, htried.opened⟩⟩
    rw [htried.trace, htrace]
    simp

end Coordinator

/-! ## A writer that commits at the third attempt -/

/-- Table writers that ask to be replaced for every schema, and commit when the answers, of which
the world is the number used up, say so. -/
def Backend.hesitant (answers : Nat → Bool) : Backend Unit Nat where
  create _ := Pure.pure ()
  name _ := "hesitant"
  updateSchema _ := Pure.pure true
  write _ := Pure.pure ()
  flush := do
    let (_, used) ← get
    modify fun p => (p.1, used + 1)
    Pure.pure (answers used)
  close := Pure.pure ()

namespace Coordinator

/-- Five rows are pending, and one commit failed before. -/
def behind : Coordinator Unit Nat := ⟨some (), 0, 1, ⟨5, .zero, 1⟩, .zero⟩

theorem committed_at_third_attempt :
    let e := (updateSchema (.hesitant (· == 2)) (.int 3) (.primitive .null) 5).run behind
    let traced := (updateSchema (Backend.hesitant (· == 2)).tracing (.int 3) (.primitive .null)
      5).run (behind.onRecord 0 [])
    e.result = .ok true ∧ e.state.totals.commits = 1 ∧ e.state.totals.commitFailures = 2 ∧
      e.state.window.failures = 0 ∧
      traced.state.trace = [.updateSchema 0 (.primitive .null) (.ok true), .flush 0 (.ok false),
        .flush 0 (.ok false), .flush 0 (.ok true), .close 0 (.ok ()),
        .create (.primitive .null) (.ok ())] := by
  intro e traced
  have hflush : (Backend.hesitant (· == 2)).flush.Succeeds := by
    intro s
    simp only [Backend.hesitant, ends_bind, ends_get, ends_modify, ends_pure]
  have hlimit : (Value.int 3).asInt? = some 3 := rfl
  have hpending : (0 : Int) < 5 := by decide
  have h := replaced_only_once_flushed (.hesitant (· == 2)) hflush hlimit (.primitive .null) hpending
    (c := behind) (w := ()) rfl (by decide) rfl 0 []
  have hresult : e.result = .ok true := rfl
  have hfailures : e.state.totals.commitFailures = 2 := rfl
  obtain ⟨-, -, k, hk, ⟨-, ⟨calls, hcalls, htrace⟩, hcommits, hnone, -, -⟩ | ⟨-, hf, -⟩⟩ := h
  · obtain rfl : 2 = k := hfailures.symm.trans (hk.trans (Nat.zero_add k))
    replace hcalls : Replaces 0 (.primitive .null) calls (.ok true) := hresult ▸ hcalls
    cases hcalls
    exact ⟨hresult, hcommits, hfailures, hnone, htrace⟩
  · cases hresult.symm.trans hf

end Coordinator
end StreamTable
