/-
What an iteration leaves alone.  While a record is handled the queue stays, and so does whether
the loop runs or is closed.  Once its schema has been taken up the active schema stays as well, but for the
projection, in which decoding notes the defaults that it has read.
-/
import StreamTable.Proofs.Action.Preserve
import StreamTable.Proofs.Sink.Reception

namespace StreamTable
namespace Loop

open StreamTable.Action

/-- The parts of a loop that commits and rows have no bearing on. -/
structure Frame where
  queue : List Record
  running : Bool
  lastError : Option Failure
  closed : Bool
  active : ActiveSchema

variable {W S : Type} {p : Plan} {b : Backend W S}

def frame (l : Loop W S) : Frame :=
  ⟨l.queue, l.running, l.lastError, l.closed, { l.active with projection := none }⟩

theorem onCoordinator_frame {α : Type} (a : Action (Coordinator W S) α) :
    (onCoordinator a).Preserves frame := preserves_focus a fun _ _ => rfl

theorem acknowledgeLast_frame :
    (acknowledgeLast b : Action (Loop W S) Unit).Preserves frame := by
  refine Preserves.bind preserves_get fun l => ?_
  cases l.last with
  | none => exact preserves_pure ()
  | some d =>
    refine preserves_ite (preserves_pure ()) (Preserves.bind (preserves_modify fun _ => rfl) ?_)
    exact fun _ => onCoordinator_frame _

theorem reset_frame (now : Double) : (reset b now).Preserves frame :=
  Preserves.bind acknowledgeLast_frame fun _ => preserves_modify fun _ => rfl

theorem commitIfDue_frame (clock : Readings) : (commitIfDue p b clock).Preserves frame := by
  refine Preserves.bind preserves_get fun l => preserves_ite ?_ (preserves_pure ())
  refine Preserves.bind (preserves_lift _) fun due => preserves_ite ?_ (preserves_pure ())
  exact Preserves.bind (onCoordinator_frame _) fun done =>
    preserves_ite (reset_frame _) (preserves_pure ())

theorem bind_frame (clock : Readings) (schema : Avro.Schema) (binding : Binding) :
    (bind p b clock schema binding).Preserves frame := by
  refine Preserves.bind preserves_get fun l => preserves_ite ?_ (preserves_pure ())
  refine Preserves.bind (onCoordinator_frame _) fun replaced => ?_
  exact Preserves.bind (preserves_modify fun _ => rfl) fun _ =>
    preserves_ite (reset_frame _) (preserves_pure ())

theorem store_frame (r : Record) (schema : Avro.Schema) (row : Value) :
    (store b r schema row).Preserves frame := by
  refine Preserves.bind (onCoordinator_frame _) fun _ => Preserves.bind (onCoordinator_frame _) ?_
  exact fun _ => Preserves.bind (preserves_modify fun _ => rfl) fun _ => onCoordinator_frame _

theorem deliver_frame (clock : Readings) (r : Record) (schema : Avro.Schema) (binding : Binding) :
    (deliver p b clock r schema binding).Preserves frame := by
  have hdecode : (decode p r schema : Action (Loop W S) Value).Preserves frame := fun _ => rfl
  refine Preserves.bind (bind_frame clock schema binding) fun _ => Preserves.bind hdecode ?_
  exact fun row => preserves_ite (onCoordinator_frame _)
    (Preserves.bind (store_frame r schema row) fun _ => commitIfDue_frame clock)

/-- What handling a record keeps. -/
structure Handled (l l' : Loop W S) : Prop where
  queue : l'.queue = l.queue
  running : l'.running = l.running
  lastError : l'.lastError = l.lastError
  closed : l'.closed = l.closed
  active : l.active.Genuine → l'.active.Genuine

theorem Handled.of_frame {l l₁ l' : Loop W S} (h : l'.frame = l₁.frame) (hk : Handled l l₁) :
    Handled l l' where
  queue := (congrArg Frame.queue h).trans hk.queue
  running := (congrArg Frame.running h).trans hk.running
  lastError := (congrArg Frame.lastError h).trans hk.lastError
  closed := (congrArg Frame.closed h).trans hk.closed
  active hl := (hk.active hl).of_eq (congrArg Frame.active h)

theorem handle_handled (clock : Readings) (r : Record) (l : Loop W S) :
    (handle p b clock r).Ends l (fun _ l' => Handled l l') (fun _ l' => Handled l l') := by
  have hfollowing : ∀ changed,
      Handled l (l.following changed (l.active.receive p.fieldName r).active) :=
    fun _ => ⟨rfl, rfl, rfl, rfl, fun hl => ActiveSchema.receive_genuine hl p.fieldName r⟩
  refine handle_ends rfl (fun _ => ⟨rfl, rfl, rfl, rfl, id⟩) (fun f _ => hfollowing _)
    fun schema binding _ => ?_
  exact ((deliver_frame clock r schema binding).ends _).mono
    (fun _ l' h => Handled.of_frame h (hfollowing _)) fun _ l' h => Handled.of_frame h (hfollowing _)

/-- Whether a loop runs or is closed, and what stopped it. -/
def standing (l : Loop W S) : Bool × Option Failure × Bool := (l.running, l.lastError, l.closed)

/-- An iteration itself, even one that fails, does not change whether the loop runs. -/
theorem iterate_standing (clock : Readings) (timeout : Double) :
    (iterate p b clock timeout).Preserves (standing : Loop W S → _) := by
  intro l
  refine Ends.state (R := fun l' : Loop W S => l'.standing = l.standing) ?_
  refine iterate_cases (fun _ _ => rfl) (fun _ => ?_) fun r rest _ => ?_
  · have hframe := (commitIfDue_frame (p := p) (b := b) clock).comp
      fun f => (f.running, f.lastError, f.closed)
    exact hframe.ends l
  · have hstanding (l' : Loop W S) (h : Handled { l with queue := rest } l') :
        l'.standing = l.standing := Prod.ext h.running (Prod.ext h.lastError h.closed)
    exact (handle_handled clock r _).mono (fun _ => hstanding) fun _ => hstanding

end Loop
end StreamTable
