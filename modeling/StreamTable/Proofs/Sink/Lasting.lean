/-
What no further call undoes.  A property of traces that lasts, whatever is called next, is kept by
everything that a coordinator or a loop does: calls are added to a trace, and none is taken away.
-/
import StreamTable.Proofs.Sink.History
import StreamTable.Proofs.Sink.Traced

namespace StreamTable

open StreamTable.Action

/-- What holds of a trace holds of it after any further call. -/
def Trace.Lasting (R : Trace → Prop) : Prop := ∀ t call, R t → R (t ++ [call])

variable {W S : Type} {b : Backend W S} {R : Trace → Prop}

namespace Coordinator

/-- The trace of a coordinator has a property. -/
def Traces (R : Trace → Prop) (c : Coordinator (Nat × W) (Trace × S)) : Prop := R c.trace

variable {limit : Value}

theorem getOrCreate_lasts (hR : Trace.Lasting R) (schema : Avro.Schema) :
    (getOrCreate b.tracing schema).Maintains (Traces R) :=
  maintains_of_ends fun _ h => getOrCreate_cases (fun _ _ => h) (fun _ _ _ => hR _ _ h)
    fun _ _ _ => hR _ _ h

theorem write_lasts (hR : Trace.Lasting R) (row : Value) :
    (write b.tracing row).Maintains (Traces R) :=
  maintains_of_ends fun _ h => write_cases (fun _ => h) (fun _ _ _ _ => hR _ _ h)
    fun _ _ _ _ _ => hR _ _ h

theorem flush_lasts (hR : Trace.Lasting R) : (flush b.tracing limit).Maintains (Traces R) := by
  refine maintains_of_ends fun c h => ?_
  refine flush_cases (fun _ => h) (fun _ _ _ _ => hR _ _ h) (fun w w' s _ => ?_)
    fun _ _ _ _ _ => hR _ _ h
  have hcalled : R (c.trace ++ [.flush w.1 (.ok false)]) := hR _ _ h
  exact commitFailed_cases (fun _ => hcalled) (fun _ => hcalled) fun _ => hcalled

theorem flushUntilDone_lasts (hR : Trace.Lasting R) (tries : Nat) :
    (flushUntilDone b.tracing limit tries).Maintains (Traces R) := by
  induction tries with
  | zero => exact maintains_get.bind fun _ => maintains_fail _
  | succ tries ih => exact (flush_lasts hR).bind fun _ => maintains_ite (maintains_pure _) ih

theorem close_lasts (hR : Trace.Lasting R) : (close b.tracing).Maintains (Traces R) :=
  maintains_of_ends fun _ h => close_cases (fun _ => h) (fun _ _ _ => hR _ _ h)
    fun _ _ _ _ => hR _ _ h

theorem commitPending_lasts (hR : Trace.Lasting R) (failures : Nat) (pending : Int) :
    (commitPending b.tracing limit failures pending).Maintains (Traces R) :=
  maintains_ite (flushUntilDone_lasts hR _) (maintains_pure ())

theorem replace_lasts (hR : Trace.Lasting R) (schema : Avro.Schema) :
    (replace b.tracing schema).Maintains (Traces R) :=
  (close_lasts hR).bind fun _ => getOrCreate_lasts hR schema

theorem updateSchema_lasts (hR : Trace.Lasting R) (schema : Avro.Schema) (pending : Int) :
    (updateSchema b.tracing limit schema pending).Maintains (Traces R) := by
  refine maintains_of_ends fun c h => ?_
  refine updateSchema_cases (fun _ => (getOrCreate_lasts hR schema).ends h)
    (fun _ _ _ _ => hR _ _ h) (fun w w' s c₁ _ hc₁ => ?_) fun _ _ _ _ _ => hR _ _ h
  have h₁ : Traces R c₁ := hc₁ ▸ hR _ _ h
  exact ((commitPending_lasts hR _ pending).bind fun _ => replace_lasts hR schema).ends h₁

end Coordinator

namespace Loop

/-- The trace of a loop has a property. -/
def Traces (R : Trace → Prop) (l : Loop (Nat × W) (Trace × S)) : Prop := R l.trace

variable {p : Plan} {clock : Readings}

theorem onCoordinator_lasts {α : Type} {a : Action (Coordinator (Nat × W) (Trace × S)) α}
    (ha : a.Maintains (Coordinator.Traces R)) : (onCoordinator a).Maintains (Traces R) :=
  ha.focus (fun _ h => h) fun _ _ _ h => h

theorem reset_lasts (hR : Trace.Lasting R) (now : Double) :
    (reset b.tracing now).Maintains (Traces R) :=
  maintains_of_ends fun _ h => reset_cases h (fun _ _ => hR _ _ h) fun _ _ _ => hR _ _ h

theorem commitIfDue_lasts (hR : Trace.Lasting R) :
    (commitIfDue p b.tracing clock).Maintains (Traces R) := by
  refine Maintains.bind maintains_get fun l => maintains_ite ?_ (maintains_pure ())
  refine Maintains.bind (maintains_lift _) fun due => maintains_ite ?_ (maintains_pure ())
  exact Maintains.bind (onCoordinator_lasts (Coordinator.flush_lasts hR)) fun done =>
    maintains_ite (reset_lasts hR _) (maintains_pure ())

theorem count_lasts (f : Totals → Totals) :
    (count f : Action (Loop (Nat × W) (Trace × S)) Unit).Maintains (Traces R) :=
  onCoordinator_lasts (maintains_modify fun _ h => h)

theorem bind_lasts (hR : Trace.Lasting R) (schema : Avro.Schema) (binding : Binding) :
    (bind p b.tracing clock schema binding).Maintains (Traces R) := by
  refine Maintains.bind maintains_get fun l => maintains_ite ?_ (maintains_pure ())
  refine Maintains.bind (onCoordinator_lasts (Coordinator.updateSchema_lasts hR schema _))
    fun replaced => ?_
  exact Maintains.bind (maintains_modify fun _ h => h) fun _ =>
    maintains_ite (reset_lasts hR _) (maintains_pure ())

theorem store_lasts (hR : Trace.Lasting R) (r : Record) (schema : Avro.Schema) (row : Value) :
    (store b.tracing r schema row).Maintains (Traces R) := by
  refine Maintains.bind (onCoordinator_lasts (Coordinator.getOrCreate_lasts hR schema)) fun _ => ?_
  refine Maintains.bind (onCoordinator_lasts (Coordinator.write_lasts hR row)) fun _ => ?_
  exact Maintains.bind (maintains_modify fun _ h => h) fun _ => count_lasts _

theorem deliver_lasts (hR : Trace.Lasting R) (r : Record) (schema : Avro.Schema)
    (binding : Binding) : (deliver p b.tracing clock r schema binding).Maintains (Traces R) := by
  refine maintains_of_ends fun l h => deliver_cases ?_
  refine ((bind_lasts hR schema binding).ends h).mono (fun _ l₁ h₁ => ?_) fun _ _ h₁ => h₁
  split
  · exact h₁
  · exact ((store_lasts hR r schema _).ends (s := l₁.decoding p r schema) h₁).mono
      (fun _ _ h₂ => (commitIfDue_lasts hR).ends h₂) fun _ _ h₂ => h₂

theorem iterate_lasts (hR : Trace.Lasting R) (timeout : Double) :
    (iterate p b.tracing clock timeout).Maintains (Traces R) := by
  refine maintains_of_ends fun l h => ?_
  refine iterate_cases (fun _ _ => h) (fun _ => (commitIfDue_lasts hR).ends h) fun r rest _ => ?_
  exact handle_ends rfl (fun _ => h) (fun _ _ => h)
    fun schema binding _ => (deliver_lasts hR r schema binding).ends h

theorem apply_lasts (hR : Trace.Lasting R) (l : Loop (Nat × W) (Trace × S)) (e : Event)
    (h : R l.trace) : R (l.apply p b.tracing e).trace := by
  cases e with
  | put r => exact h
  | iterate clock timeout =>
    exact advance_cases (R := Traces R) (fun _ => h) fun _ => (iterate_lasts hR timeout).ends h

theorem after_lasts (hR : Trace.Lasting R) (events : List Event)
    (l : Loop (Nat × W) (Trace × S)) (h : R l.trace) : R (after p b.tracing events l).trace := by
  induction events generalizing l with
  | nil => exact h
  | cons e events ih => exact ih _ (apply_lasts hR l e h)

end Loop
end StreamTable
