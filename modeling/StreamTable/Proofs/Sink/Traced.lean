/-
Coordinators and loops whose table writers leave a trace.  Each operation is taken apart into the
calls that it makes: what has to hold after it is asked for at each of its ends, with the call added
to the trace.
-/
import StreamTable.Proofs.Action.Maintain
import StreamTable.Proofs.Sink.Loop
import StreamTable.Proofs.Table.Trace

namespace StreamTable
namespace Coordinator

open StreamTable.Action

/-! ## What follows a commit -/

section Commit

variable {W S : Type} {c : Coordinator W S}

/-- The coordinator after a commit that was done. -/
def committed (c : Coordinator W S) : Coordinator W S :=
  { c with window := c.window.clearFailures
           totals := { c.totals with commits := c.totals.commits + 1 } }

def failedOnce (c : Coordinator W S) : Coordinator W S :=
  { c with window := c.window.commitFailed
           totals := { c.totals with commitFailures := c.totals.commitFailures + 1 } }

@[simp]
theorem ends_commitDone {Q : Unit → Coordinator W S → Prop}
    {E : Failure → Coordinator W S → Prop} : commitDone.Ends c Q E ↔ Q () c.committed := by
  simp only [commitDone, say, ends_bind, ends_get]
  by_cases hf : c.window.failures ≠ 0
  · rw [if_pos hf]
    exact Iff.rfl
  · rw [if_neg hf]
    exact Iff.rfl

/-- A commit that was not done is put up with unless the failures exceed the limit, or cannot be
compared with it. -/
theorem commitFailed_cases {limit : Value} {Q : Unit → Coordinator W S → Prop}
    {E : Failure → Coordinator W S → Prop}
    (hwithin : Value.exceeds (.int c.failedOnce.window.failures) limit = .ok false →
      Q () c.failedOnce)
    (hbeyond : Value.exceeds (.int c.failedOnce.window.failures) limit = .ok true →
      E (.commits c.failedOnce.window.failures limit) c.failedOnce)
    (hincomparable : ∀ fault, E (.data fault) c.failedOnce) :
    (commitFailed limit).Ends c Q E := by
  simp only [commitFailed, say, ends_bind, ends_modify, ends_get, ends_log]
  show (Action.lift ((Value.exceeds (.int c.failedOnce.window.failures) limit).mapError
    Failure.data)).Ends c.failedOnce _ _
  cases h : Value.exceeds (.int c.failedOnce.window.failures) limit with
  | error fault => exact hincomparable fault
  | ok tooMany =>
    cases tooMany with
    | false => exact hwithin h
    | true => exact hbeyond h

/-- Commit the rows that are pending before their writer is replaced. -/
def commitPending (b : Backend W S) (limit : Value) (failures : Nat) (pending : Int) :
    Action (Coordinator W S) Unit :=
  if pending > 0 then flushUntilDone b limit (patience limit failures) else Pure.pure ()

def replace (b : Backend W S) (schema : Avro.Schema) : Action (Coordinator W S) W := do
  close b
  getOrCreate b schema

end Commit

variable {W S : Type} {b : Backend W S} {c : Coordinator (Nat × W) (Trace × S)}

/-- What the table writers of a coordinator were asked for. -/
def trace (c : Coordinator (Nat × W) (Trace × S)) : Trace := c.world.1

/-- The coordinator after a call that left the world at `s`. -/
def noting (c : Coordinator (Nat × W) (Trace × S)) (call : Call) (s : S) :
    Coordinator (Nat × W) (Trace × S) := { c with world := (c.trace ++ [call], s) }

def withWriter (c : Coordinator W S) (w : W) : Coordinator W S := { c with writer := some w }

def released (c : Coordinator W S) : Coordinator W S := { c with writer := none }

def opening (c : Coordinator (Nat × W) (Trace × S)) (schema : Avro.Schema) (w : W) (s : S) :
    Coordinator (Nat × W) (Trace × S) :=
  { (c.noting (.create schema (.ok ())) s).withWriter (c.trace.opened, w) with
    opened := c.opened + 1 }

@[simp]
theorem trace_noting (call : Call) (s : S) : (c.noting call s).trace = c.trace ++ [call] := rfl

/-! ## Operations, call by call -/

variable {Q : Unit → Coordinator (Nat × W) (Trace × S) → Prop}
  {E : Failure → Coordinator (Nat × W) (Trace × S) → Prop}

theorem onWriter_cases {α : Type} {w : Nat × W} {call : Nat → Except Failure α → Call}
    {a : Action (W × S) α} {Q : α → Coordinator (Nat × W) (Trace × S) → Prop}
    (hok : ∀ x w' s, Q x ((c.noting (call w.1 (.ok x)) s).withWriter (w.1, w')))
    (herror : ∀ f w' s, E f ((c.noting (call w.1 (.error f)) s).withWriter (w.1, w'))) :
    (onWriter w (Backend.tracedCall call a)).Ends c Q E := by
  rw [onWriter, ends_focus]
  show (Backend.tracedCall call a).Ends ((w.1, w.2), (c.trace, c.world.2)) _ _
  rw [Backend.ends_tracedCall]
  exact Ends.of_forall (fun x p => hok x p.1 p.2) fun f p => herror f p.1 p.2

theorem getOrCreate_cases {schema : Avro.Schema}
    {Q : Nat × W → Coordinator (Nat × W) (Trace × S) → Prop}
    (hopen : ∀ w, c.writer = some w → Q w c)
    (hok : ∀ w s, c.writer = none → Q (c.trace.opened, w) (c.opening schema w s))
    (herror : ∀ f s, c.writer = none →
      E (.writerCreation f) (c.noting (.create schema (.error f)) s)) :
    (getOrCreate b.tracing schema).Ends c Q E := by
  simp only [getOrCreate, ends_bind, ends_get]
  cases hw : c.writer with
  | some w => exact hopen w hw
  | none =>
    simp only [ends_bind, ends_attempt, ends_focus]
    show (b.tracing.create schema).Ends (c.trace, c.world.2) _ _
    rw [Backend.ends_tracing_create]
    exact Ends.of_forall (fun w s => hok w s hw) fun f s => herror f s hw

theorem write_cases {row : Value} (hnone : c.writer = none → E .noWriter c)
    (hok : ∀ w w' s, c.writer = some w →
      Q () ((c.noting (.write w.1 row (.ok ())) s).withWriter (w.1, w')))
    (herror : ∀ w f w' s, c.writer = some w →
      E f ((c.noting (.write w.1 row (.error f)) s).withWriter (w.1, w'))) :
    (write b.tracing row).Ends c Q E := by
  simp only [write, ends_bind, ends_get]
  cases hw : c.writer with
  | none => exact hnone hw
  | some w => exact onWriter_cases (fun _ w' s => hok w w' s hw) fun f w' s => herror w f w' s hw

theorem flush_cases {limit : Value} {Q : Bool → Coordinator (Nat × W) (Trace × S) → Prop}
    (hnone : c.writer = none → E .noWriter c)
    (hdone : ∀ w w' s, c.writer = some w →
      Q true ((c.noting (.flush w.1 (.ok true)) s).withWriter (w.1, w')).committed)
    (hfailed : ∀ w w' s, c.writer = some w →
      (commitFailed limit).Ends ((c.noting (.flush w.1 (.ok false)) s).withWriter (w.1, w'))
        (fun _ c' => Q false c') E)
    (herror : ∀ w f w' s, c.writer = some w →
      E f ((c.noting (.flush w.1 (.error f)) s).withWriter (w.1, w'))) :
    (flush b.tracing limit).Ends c Q E := by
  simp only [flush, ends_bind, ends_get]
  cases hw : c.writer with
  | none => exact hnone hw
  | some w =>
    rw [ends_bind]
    refine onWriter_cases (fun done w' s => ?_) fun f w' s => herror w f w' s hw
    cases done with
    | true =>
      rw [if_pos rfl, ends_bind, ends_commitDone]
      exact hdone w w' s hw
    | false =>
      rw [if_neg Bool.false_ne_true, ends_bind]
      exact hfailed w w' s hw

/-- A writer that is closed is released, whether closing it goes well or not. -/
theorem close_cases (hnone : c.writer = none → Q () c)
    (hok : ∀ w s, c.writer = some w → Q () (c.noting (.close w.1 (.ok ())) s).released)
    (herror : ∀ w f s, c.writer = some w → E f (c.noting (.close w.1 (.error f)) s).released) :
    (close b.tracing).Ends c Q E := by
  simp only [close, ends_bind, ends_get]
  cases hw : c.writer with
  | none => exact hnone hw
  | some w =>
    simp only [say, ends_bind, ends_modify, ends_log, ends_focus]
    show (Backend.tracedCall .close b.close).Ends ((w.1, w.2), (c.trace, c.world.2)) _ _
    rw [Backend.ends_tracedCall]
    exact Ends.of_forall (fun _ p => hok w p.2 hw) fun f p => herror w f p.2 hw

/-- A new schema opens the first writer; or the open writer takes it as it is; or the writer is
replaced, once what is pending has been committed. -/
theorem updateSchema_cases {limit : Value} {schema : Avro.Schema} {pending : Int}
    {Q : Bool → Coordinator (Nat × W) (Trace × S) → Prop}
    (hnone : c.writer = none → (getOrCreate b.tracing schema).Ends c (fun _ c' => Q false c') E)
    (hkept : ∀ w w' s, c.writer = some w →
      Q false ((c.noting (.updateSchema w.1 schema (.ok false)) s).withWriter (w.1, w')))
    (hreplaced : ∀ w w' s c₁, c.writer = some w →
      c₁ = (c.noting (.updateSchema w.1 schema (.ok true)) s).withWriter (w.1, w') →
      (commitPending b.tracing limit c.window.failures pending >>= fun _ =>
        replace b.tracing schema).Ends c₁ (fun _ c' => Q true c') E)
    (herror : ∀ w f w' s, c.writer = some w →
      E f ((c.noting (.updateSchema w.1 schema (.error f)) s).withWriter (w.1, w'))) :
    (updateSchema b.tracing limit schema pending).Ends c Q E := by
  simp only [updateSchema, ends_bind, ends_get]
  cases hw : c.writer with
  | none =>
    rw [ends_bind]
    exact hnone hw
  | some w =>
    rw [ends_bind]
    refine onWriter_cases (fun replace w' s => ?_) fun f w' s => herror w f w' s hw
    cases replace with
    | false => exact hkept w w' s hw
    | true =>
      have hrest := hreplaced w w' s _ hw rfl
      simp only [say, Bool.not_true, Bool.false_eq_true, if_false, ends_bind, ends_log]
      simp only [commitPending, replace, ends_bind] at hrest
      by_cases hp : pending > 0
      · rw [if_pos hp] at hrest ⊢
        simpa only [ends_bind, ends_pure] using hrest
      · rw [if_neg hp] at hrest ⊢
        simpa only [ends_bind, ends_pure] using hrest

end Coordinator

namespace Loop

open StreamTable.Action

variable {W S : Type} {p : Plan} {clock : Readings}

def reopened (now : Double) (l : Loop W S) : Loop W S :=
  { l with coordinator := { l.coordinator with window := .opened now } }

section Steps

variable {b : Backend W S} {l : Loop W S} {Q : Unit → Loop W S → Prop}
  {E : Failure → Loop W S → Prop}

/-- A commit is tried only if rows are pending and it is due. -/
theorem commitIfDue_cases (hidle : l.window.records = 0 → Q () l)
    (hlater : 0 < l.window.records → p.thresholds.isDue clock.asked l.window = .ok false → Q () l)
    (hdue : 0 < l.window.records → p.thresholds.isDue clock.asked l.window = .ok true →
      (Coordinator.flush b p.limit).Ends l.coordinator
        (fun done c => if done then (reset b clock.committed).Ends { l with coordinator := c } Q E
          else Q () { l with coordinator := c })
        (fun f c => E f { l with coordinator := c }))
    (hfault : ∀ fault, p.thresholds.isDue clock.asked l.window = .error fault →
      E (.data fault) l) :
    (commitIfDue p b clock).Ends l Q E := by
  simp only [commitIfDue, ends_bind, ends_get]
  by_cases hpending : l.window.hasPending = true
  · have hrecords : 0 < l.window.records := of_decide_eq_true hpending
    rw [if_pos hpending, ends_bind]
    cases hd : p.thresholds.isDue clock.asked l.window with
    | error fault => exact hfault fault hd
    | ok due =>
      show (if due then _ else _ : Action (Loop W S) Unit).Ends l Q E
      cases due with
      | false => exact hlater hrecords hd
      | true =>
        rw [if_pos rfl, ends_bind, ends_onCoordinator]
        refine (hdue hrecords hd).mono (fun done c hc => ?_) fun _ _ hc => hc
        cases done with
        | true => exact hc
        | false => exact hc
  · rw [if_neg hpending]
    have hrecords : ¬0 < l.window.records := fun h => hpending (decide_eq_true h)
    exact hidle (by omega)

/-- What decoding a record against a schema comes to. -/
def decoded (p : Plan) (r : Record) (schema : Avro.Schema) (l : Loop W S) : Decoder.Outcome :=
  Decoder.decode p.fieldName r schema (l.active.projection.getD default)

def decoding (p : Plan) (r : Record) (schema : Avro.Schema) (l : Loop W S) : Loop W S :=
  { l with active := { l.active with projection := some (l.decoded p r schema).projection } }

/-- Once the schema is bound, a record is dropped or its row is stored. -/
theorem deliver_cases {r : Record} {schema : Avro.Schema} {binding : Binding}
    (h : (bind p b clock schema binding).Ends l
      (fun _ l₁ =>
        if (l₁.decoded p r schema).row.isNull then
          Q () ((l₁.decoding p r schema).counting fun t => { t with dropped := t.dropped + 1 })
        else (store b r schema (l₁.decoded p r schema).row).Ends (l₁.decoding p r schema)
          (fun _ l₂ => (commitIfDue p b clock).Ends l₂ Q E) E) E) :
    (deliver p b clock r schema binding).Ends l Q E := by
  simp only [deliver, ends_bind]
  refine h.mono (fun _ l₁ h₁ => ?_) fun _ _ h₁ => h₁
  rw [ends_decode]
  show (if (l₁.decoded p r schema).row.isNull then _ else _ : Action (Loop W S) Unit).Ends
    (l₁.decoding p r schema) Q E
  by_cases hnull : (l₁.decoded p r schema).row.isNull = true
  · rw [if_pos hnull] at h₁ ⊢
    exact h₁
  · rw [if_neg hnull] at h₁ ⊢
    rw [ends_bind]
    exact h₁

end Steps

variable {b : Backend W S} {l : Loop (Nat × W) (Trace × S)}
  {Q : Unit → Loop (Nat × W) (Trace × S) → Prop} {E : Failure → Loop (Nat × W) (Trace × S) → Prop}

def trace (l : Loop (Nat × W) (Trace × S)) : Trace := l.coordinator.trace

def acknowledging (r : Record) (result : Except Failure Unit) (s : S)
    (l : Loop (Nat × W) (Trace × S)) : Loop (Nat × W) (Trace × S) :=
  { l with last := some ⟨r, true⟩
           acknowledged := l.acknowledged ++ [r.id]
           coordinator := l.coordinator.noting (.acknowledge r result) s }

/-- A new window starts once the last record is acknowledged, if it has to be. -/
theorem reset_cases {now : Double} (hquiet : Q () (l.reopened now))
    (hok : ∀ r s, Q () ((l.acknowledging r (.ok ()) s).reopened now))
    (herror : ∀ r f s, E f (l.acknowledging r (.error f) s)) :
    (reset b.tracing now).Ends l Q E := by
  simp only [reset, acknowledgeLast, ends_bind, ends_get, ends_modify]
  cases l.last with
  | none => exact hquiet
  | some d =>
    dsimp only
    by_cases hd : d.acknowledged = true
    · rw [if_pos hd]
      exact hquiet
    · rw [if_neg hd]
      simp only [acknowledge, ends_bind, ends_modify, ends_onCoordinator, ends_focus]
      show (Backend.traced (.acknowledge d.record) (b.acknowledge d.record)).Ends
        (l.coordinator.trace, l.coordinator.world.2) _ _
      rw [Backend.ends_traced]
      exact Ends.of_forall (fun _ s => hok d.record s) fun f s => herror d.record f s

end Loop
end StreamTable
