/-
Traces: the calls that table writers received, with what came of each.  Any table writers can be
made to leave a trace beside their world, which changes nothing in what they do.

A journal tells which rows a commit covers; a trace also tells the schemas that writers were opened
for and told of, and knows a writer by its number.  Writers are numbered in the order in which they
were opened, so the number of a writer does not depend on how often anything was committed.
-/
import StreamTable.Proofs.Sink.Mirror

namespace StreamTable

inductive Call where
  | create (schema : Avro.Schema) (result : Except Failure Unit)
  | updateSchema (writer : Nat) (schema : Avro.Schema) (result : Except Failure Bool)
  | write (writer : Nat) (row : Value) (result : Except Failure Unit)
  | flush (writer : Nat) (result : Except Failure Bool)
  | close (writer : Nat) (result : Except Failure Unit)
  | acknowledge (r : Record) (result : Except Failure Unit)

/-- The calls, oldest first. -/
abbrev Trace := List Call

namespace Call

/-- Whether a call opened a writer. -/
def opens : Call → Bool
  | .create _ (.ok ()) => true
  | _ => false

/-- The writer that was closed, whether or not closing it went well. -/
def closed? : Call → Option Nat
  | .close n _ => some n
  | _ => none

end Call

namespace Trace

/-- How many writers were opened. -/
def opened (t : Trace) : Nat := t.countP Call.opens

/-- The writers that were closed, in that order. -/
def closed (t : Trace) : List Nat := t.filterMap Call.closed?

@[simp]
theorem opened_concat (t : Trace) (call : Call) :
    opened (t ++ [call]) = opened t + if call.opens then 1 else 0 := by
  rw [opened, List.countP_append, List.countP_singleton]
  rfl

@[simp]
theorem closed_concat (t : Trace) (call : Call) :
    closed (t ++ [call]) = closed t ++ call.closed?.toList := by
  rw [closed, closed, List.filterMap_append]
  cases h : call.closed? with
  | none => simp [h]
  | some n => simp [h]

end Trace

open StreamTable.Action

variable {W S : Type}

namespace Backend

/-- An action of a table writer's world that leaves a trace. -/
def traced {σ α : Type} (call : Except Failure α → Call) (a : Action σ α) :
    Action (Trace × σ) α := fun (t, s) =>
  let e := a.run s
  ⟨e.result, (t ++ [call e.result], e.state), e.log⟩

/-- A call of a writer that leaves a trace, under the writer's number. -/
def tracedCall {α : Type} (call : Nat → Except Failure α → Call) (a : Action (W × S) α) :
    Action ((Nat × W) × (Trace × S)) α := fun ((n, w), (t, s)) =>
  let e := a.run (w, s)
  ⟨e.result, ((n, e.state.1), (t ++ [call n e.result], e.state.2)), e.log⟩

/-- The same table writers, which leave a trace. -/
def tracing (b : Backend W S) : Backend (Nat × W) (Trace × S) where
  create schema := fun (t, s) =>
    let e := (b.create schema).run s
    ⟨e.result.map fun w => (t.opened, w),
      (t ++ [.create schema (e.result.map fun _ => ())], e.state), e.log⟩
  name w := b.name w.2
  updateSchema schema := tracedCall (fun n => .updateSchema n schema) (b.updateSchema schema)
  write row := tracedCall (fun n => .write n row) (b.write row)
  flush := tracedCall .flush b.flush
  close := tracedCall .close b.close
  acknowledge r := traced (.acknowledge r) (b.acknowledge r)

section Ends

variable {σ α : Type} {t : Trace} {n : Nat} {w : W} {s : S}

theorem ends_traced {call : Except Failure α → Call} {a : Action σ α} {s : σ}
    {Q : α → Trace × σ → Prop} {E : Failure → Trace × σ → Prop} :
    (traced call a).Ends (t, s) Q E ↔
      a.Ends s (fun x s' => Q x (t ++ [call (.ok x)], s'))
        (fun f s' => E f (t ++ [call (.error f)], s')) := by
  have hrun : (traced call a).run (t, s) =
      ⟨(a.run s).result, (t ++ [call (a.run s).result], (a.run s).state), (a.run s).log⟩ := rfl
  unfold Ends
  rw [hrun]
  cases (a.run s).result with
  | ok x => exact Iff.rfl
  | error f => exact Iff.rfl

theorem ends_tracedCall {call : Nat → Except Failure α → Call} {a : Action (W × S) α}
    {Q : α → (Nat × W) × (Trace × S) → Prop} {E : Failure → (Nat × W) × (Trace × S) → Prop} :
    (tracedCall call a).Ends ((n, w), (t, s)) Q E ↔
      a.Ends (w, s) (fun x p => Q x ((n, p.1), (t ++ [call n (.ok x)], p.2)))
        (fun f p => E f ((n, p.1), (t ++ [call n (.error f)], p.2))) := by
  have hrun : (tracedCall call a).run ((n, w), (t, s)) =
      ⟨(a.run (w, s)).result, ((n, (a.run (w, s)).state.1),
        (t ++ [call n (a.run (w, s)).result], (a.run (w, s)).state.2)), (a.run (w, s)).log⟩ := rfl
  unfold Ends
  rw [hrun]
  cases (a.run (w, s)).result with
  | ok x => exact Iff.rfl
  | error f => exact Iff.rfl

variable {b : Backend W S}

theorem ends_tracing_create {schema : Avro.Schema} {Q : Nat × W → Trace × S → Prop}
    {E : Failure → Trace × S → Prop} :
    (b.tracing.create schema).Ends (t, s) Q E ↔
      (b.create schema).Ends s (fun w s' => Q (t.opened, w) (t ++ [.create schema (.ok ())], s'))
        (fun f s' => E f (t ++ [.create schema (.error f)], s')) := by
  have hrun : (b.tracing.create schema).run (t, s) =
      ⟨((b.create schema).run s).result.map fun w => (t.opened, w),
        (t ++ [.create schema (((b.create schema).run s).result.map fun _ => ())],
          ((b.create schema).run s).state), ((b.create schema).run s).log⟩ := rfl
  unfold Ends
  rw [hrun]
  cases ((b.create schema).run s).result with
  | ok w => exact Iff.rfl
  | error f => exact Iff.rfl

end Ends

theorem traced_mirrors {σ α : Type} (call : Except Failure α → Call) (a : Action σ α) :
    (traced call a).Mirrors Prod.snd id a := by
  intro s
  rw [Except.map_id]
  rfl

theorem tracedCall_mirrors {α : Type} (call : Nat → Except Failure α → Call)
    (a : Action (W × S) α) :
    (tracedCall call a).Mirrors (Prod.map Prod.snd Prod.snd) id a := by
  intro s
  rw [Except.map_id]
  rfl

/-- Leaving a trace changes nothing else. -/
theorem tracing_mirrors (b : Backend W S) : b.tracing.Mirrors Prod.snd Prod.snd b where
  create schema := by
    intro s
    have hresult : ∀ r : Except Failure W, (r.map fun w => (s.1.opened, w)).map Prod.snd = r := by
      intro r
      cases r <;> rfl
    show (b.create schema).run s.2 =
      ⟨(((b.create schema).run s.2).result.map _).map Prod.snd, _, _⟩
    rw [hresult]
    rfl
  name _ := rfl
  updateSchema schema := tracedCall_mirrors _ _
  write row := tracedCall_mirrors _ _
  flush := tracedCall_mirrors _ _
  close := tracedCall_mirrors _ _
  acknowledge r := traced_mirrors _ _

end Backend

end StreamTable
