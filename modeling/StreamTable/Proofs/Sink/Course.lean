/-
The course of a sink, with commits left out.  A course is what records do to a sink one after
another: schemas that are taken up, writers that are opened, told of a schema, replaced and written
to, and counts.  It knows of no window and no clock.

A loop whose table writers do all they are asked for follows its course: each iteration that takes a
record is a step of it, and one that takes none is not.
-/
import StreamTable.Proofs.Sink.Lasting
import StreamTable.Proofs.Sink.Reliable

namespace StreamTable

/-! ## Calls that go well -/

namespace Call

/-- Whether a call commits rows, or tells somebody that they are committed. -/
def isCommit : Call → Bool
  | .flush .. | .acknowledge .. => true
  | _ => false

/-- Whether a call did not fail, and a commit was done, and a writer that was told of a schema
answered as it should. -/
def wentWell (replaced : Avro.Schema → Bool) : Call → Bool
  | .create _ (.ok ()) | .write _ _ (.ok ()) | .close _ (.ok ()) | .acknowledge _ (.ok ()) => true
  | .flush _ (.ok done) => done
  | .updateSchema _ schema (.ok answer) => answer == replaced schema
  | _ => false

end Call

/-- Which schemas replace a writer, after the calls that were no commits. -/
abbrev ReplacementRule := Trace → Avro.Schema → Bool

namespace Trace

def withoutCommits (t : Trace) : Trace := t.filter fun call => !call.isCommit

def smoothAfter (rule : ReplacementRule) (earlier : Trace) : Trace → Bool
  | [] => true
  | call :: later =>
    call.wentWell (rule earlier.withoutCommits) && smoothAfter rule (earlier ++ [call]) later

/-- Whether all calls went well, and writers were replaced by the rule. -/
def smooth (rule : ReplacementRule) (t : Trace) : Bool := smoothAfter rule [] t

variable {rule : ReplacementRule} {t : Trace} {call : Call}

theorem smooth_concat :
    smooth rule (t ++ [call]) = (smooth rule t && call.wentWell (rule t.withoutCommits)) := by
  -- The induction is over the calls, after any that came before them.
  have hafter : ∀ earlier : Trace, smoothAfter rule earlier (t ++ [call]) =
      (smoothAfter rule earlier t && call.wentWell (rule (earlier ++ t).withoutCommits)) := by
    induction t with
    | nil =>
      intro earlier
      simp [smoothAfter]
    | cons first t ih =>
      intro earlier
      rw [List.cons_append, smoothAfter, smoothAfter, ih, Bool.and_assoc, List.append_assoc]
      rfl
  exact hafter []

theorem Lasting.not_smooth : Lasting fun t => ¬smooth rule t = true := by
  intro t call h hs
  rw [smooth_concat, Bool.and_eq_true] at hs
  exact h hs.1

theorem not_smooth_concat (h : ∀ replaced, call.wentWell replaced = false) :
    ¬smooth rule (t ++ [call]) = true := by
  rw [smooth_concat, h, Bool.and_false]
  exact Bool.false_ne_true

theorem withoutCommits_concat (t : Trace) (call : Call) :
    withoutCommits (t ++ [call]) =
      if call.isCommit then t.withoutCommits else t.withoutCommits ++ [call] := by
  rw [withoutCommits, List.filter_append]
  cases h : call.isCommit with
  | true => simp [withoutCommits, h]
  | false => simp [withoutCommits, h]

@[simp]
theorem opened_withoutCommits (t : Trace) : opened t.withoutCommits = opened t := by
  rw [opened, opened, withoutCommits, List.countP_filter]
  refine List.countP_congr fun call _ => ?_
  cases call <;> simp [Call.opens, Call.isCommit]

end Trace

/-! ## The course -/

/-- What the table writers were asked for but for commits, which of them is open, and the counts. -/
structure Standing where
  calls : Trace
  writer : Option Nat
  opened : Nat
  written : Nat
  dropped : Nat
  skipped : Nat
  schemaChanges : Nat

namespace Standing

def call (s : Standing) (call : Call) : Standing := { s with calls := s.calls ++ [call] }

def getOrCreate (schema : Avro.Schema) (s : Standing) : Standing :=
  match s.writer with
  | some _ => s
  | none =>
    { s.call (.create schema (.ok ())) with writer := some s.calls.opened, opened := s.opened + 1 }

def write (row : Value) (s : Standing) : Standing :=
  match s.writer with
  | some n => s.call (.write n row (.ok ()))
  | none => s

def close (s : Standing) : Standing :=
  match s.writer with
  | some n => { s.call (.close n (.ok ())) with writer := none }
  | none => s

/-- The open writer is told of a schema, and replaced if the rule says so. -/
def updateSchema (rule : ReplacementRule) (schema : Avro.Schema) (s : Standing) : Standing :=
  match s.writer with
  | some n =>
    let told := s.call (.updateSchema n schema (.ok (rule s.calls schema)))
    if rule s.calls schema then told.close.getOrCreate schema else told
  | none => s.getOrCreate schema

def countWritten (s : Standing) : Standing := { s with written := s.written + 1 }

def countDropped (s : Standing) : Standing := { s with dropped := s.dropped + 1 }

def countSkipped (s : Standing) : Standing := { s with skipped := s.skipped + 1 }

def countChange (changed : Bool) (s : Standing) : Standing :=
  { s with schemaChanges := if changed then s.schemaChanges + 1 else s.schemaChanges }

def store (schema : Avro.Schema) (row : Value) (s : Standing) : Standing :=
  ((s.getOrCreate schema).write row).countWritten

theorem getOrCreate_writer (schema : Avro.Schema) (s : Standing) :
    (s.getOrCreate schema).writer.isSome = true := by
  unfold getOrCreate
  split
  · rename_i hw
    rw [hw]
    rfl
  · rfl

theorem store_writer (schema : Avro.Schema) (row : Value) (s : Standing) :
    (s.store schema row).writer.isSome = true := by
  have hwrite : ((s.getOrCreate schema).write row).writer = (s.getOrCreate schema).writer := by
    unfold write
    split <;> rfl
  exact (congrArg Option.isSome hwrite).trans (getOrCreate_writer schema s)

theorem updateSchema_writer (rule : ReplacementRule) (schema : Avro.Schema) (s : Standing) :
    (s.updateSchema rule schema).writer.isSome = true := by
  unfold updateSchema
  split
  · rename_i hw
    dsimp only
    split
    · exact getOrCreate_writer schema _
    · show s.writer.isSome = true
      rw [hw]
      rfl
  · exact getOrCreate_writer schema s

end Standing

/-- The course of a sink: the schemas in use, the table writers, and whether it goes on. -/
structure Course where
  active : ActiveSchema
  bound : Option Binding
  standing : Standing
  running : Bool
  lastError : Option Failure

namespace Course

def onStanding (f : Standing → Standing) (c : Course) : Course :=
  { c with standing := f c.standing }

def following (changed : Bool) (a : ActiveSchema) (c : Course) : Course :=
  { c.onStanding (Standing.countChange changed) with active := a }

def bind (rule : ReplacementRule) (schema : Avro.Schema) (binding : Binding) (c : Course) :
    Course :=
  if c.bound ≠ some binding then
    { c.onStanding (Standing.updateSchema rule schema) with bound := some binding }
  else c

def deliver (fieldName : String) (r : Record) (schema : Avro.Schema) (c : Course) : Course :=
  let outcome := Decoder.decode fieldName r schema (c.active.projection.getD default)
  let decoded := { c with active := { c.active with projection := some outcome.projection } }
  if outcome.row.isNull then decoded.onStanding Standing.countDropped
  else decoded.onStanding (Standing.store schema outcome.row)

def stop (f : Failure) (c : Course) : Course := { c with running := false, lastError := some f }

/-- What is made of a record once it was received. -/
def answer (rule : ReplacementRule) (fieldName : String) (r : Record) (reception : Reception)
    (c : Course) : Course :=
  let following := c.following reception.changed reception.active
  match reception.verdict with
  | .skipped => c.onStanding Standing.countSkipped
  | .refused f => following.stop f
  | .admitted schema binding => (following.bind rule schema binding).deliver fieldName r schema

def take (rule : ReplacementRule) (fieldName : String) (c : Course) (r : Record) : Course :=
  if c.running then c.answer rule fieldName r (c.active.receive fieldName r) else c

/-- Records do nothing to a course that has come to an end. -/
theorem foldl_take_of_stopped {rule : ReplacementRule} {fieldName : String} {c : Course}
    (h : c.running = false) (records : List Record) :
    records.foldl (take rule fieldName) c = c := by
  induction records with
  | nil => rfl
  | cons r records ih =>
    have htake : c.take rule fieldName r = c := if_neg (by rw [h]; exact Bool.false_ne_true)
    rw [List.foldl_cons, htake, ih]

end Course

open StreamTable.Action

variable {W S : Type} {b : Backend W S} {rule : ReplacementRule}

/-! ## Coordinators -/

namespace Coordinator

variable {c : Coordinator (Nat × W) (Trace × S)} {limit : Value}

/-- What is left of a coordinator when commits are left out. -/
def standing (c : Coordinator (Nat × W) (Trace × S)) : Standing where
  calls := c.trace.withoutCommits
  writer := c.writer.map Prod.fst
  opened := c.opened
  written := c.totals.written
  dropped := c.totals.dropped
  skipped := c.totals.skipped
  schemaChanges := c.totals.schemaChanges

def Smooth (rule : ReplacementRule) (c : Coordinator (Nat × W) (Trace × S)) : Prop :=
  c.trace.smooth rule = true

theorem standing_writer {w : Nat × W} (hw : c.writer = some w) : c.standing.writer = some w.1 :=
  congrArg (Option.map Prod.fst) hw

theorem standing_noting (call : Call) (s : S) :
    (c.noting call s).standing = if call.isCommit then c.standing else c.standing.call call := by
  simp only [standing]
  rw [trace_noting, Trace.withoutCommits_concat]
  split <;> rfl

/-- A call of the open writer shows, unless it is a commit. -/
theorem standing_called {w : Nat × W} (hw : c.writer = some w) (call : Call) (w' : W) (s : S) :
    ((c.noting call s).withWriter (w.1, w')).standing =
      if call.isCommit then c.standing else c.standing.call call := by
  have hwriter : (c.noting call s).standing.writer = some w.1 := standing_writer (w := w) hw
  rw [← standing_noting call s]
  exact congrArg (fun n => { (c.noting call s).standing with writer := n }) hwriter.symm

theorem getOrCreate_course (schema : Avro.Schema) :
    (getOrCreate b.tracing schema).EndsIf (Smooth rule) c
      (fun _ c' => c'.standing = c.standing.getOrCreate schema) (fun _ _ => False) := by
  apply getOrCreate_cases
  case hopen =>
    intro w hw _
    rw [Standing.getOrCreate, standing_writer hw]
  case hok =>
    intro w s hw _
    have hnone : c.standing.writer = none := congrArg (Option.map Prod.fst) hw
    have hnoting := standing_noting (c := c) (.create schema (.ok ())) s
    rw [Standing.getOrCreate, hnone]
    show { (c.noting _ s).standing with writer := some c.trace.opened, opened := c.opened + 1 } = _
    rw [hnoting, ← Trace.opened_withoutCommits]
    rfl
  case herror => exact fun f s _ hs => Trace.not_smooth_concat (fun _ => rfl) hs

theorem write_course (row : Value) (hw : c.standing.writer.isSome = true) :
    (write b.tracing row).EndsIf (Smooth rule) c
      (fun _ c' => c'.standing = c.standing.write row) (fun _ _ => False) := by
  apply write_cases
  case hnone =>
    intro hnone
    rw [standing, hnone] at hw
    cases hw
  case hok =>
    intro w w' s hw _
    rw [Standing.write, standing_writer hw]
    exact standing_called hw _ w' s
  case herror => exact fun w f w' s _ hs => Trace.not_smooth_concat (fun _ => rfl) hs

theorem flush_course (hw : c.standing.writer.isSome = true) :
    (flush b.tracing limit).EndsIf (Smooth rule) c
      (fun done c' => done = true ∧ c'.standing = c.standing) (fun _ _ => False) := by
  have hfailed (w : Nat × W) (s : S) :
      ¬Trace.smooth rule (c.trace ++ [.flush w.1 (.ok false)]) = true :=
    Trace.not_smooth_concat fun _ => rfl
  apply flush_cases
  case hnone =>
    intro hnone
    rw [standing, hnone] at hw
    cases hw
  case hdone => exact fun w w' s hw _ => ⟨rfl, standing_called hw (.flush w.1 (.ok true)) w' s⟩
  case hfailed =>
    intro w w' s _
    exact commitFailed_cases (fun _ hs => absurd hs (hfailed w s))
      (fun _ hs => absurd hs (hfailed w s)) fun _ hs => absurd hs (hfailed w s)
  case herror => exact fun w f w' s _ hs => Trace.not_smooth_concat (fun _ => rfl) hs

theorem close_course :
    (close b.tracing).EndsIf (Smooth rule) c (fun _ c' => c'.standing = c.standing.close)
      (fun _ _ => False) := by
  apply close_cases
  case hnone =>
    intro hw _
    have hnone : c.standing.writer = none := congrArg (Option.map Prod.fst) hw
    rw [Standing.close, hnone]
  case hok =>
    intro w s hw _
    rw [Standing.close, standing_writer hw]
    show { (c.noting _ s).standing with writer := none } = _
    rw [standing_noting]
    rfl
  case herror => exact fun w f s _ hs => Trace.not_smooth_concat (fun _ => rfl) hs

/-- Where commits are done, pending rows need one attempt. -/
theorem flushUntilDone_course (hw : c.standing.writer.isSome = true) {tries : Nat}
    (htries : 0 < tries) :
    (flushUntilDone b.tracing limit tries).EndsIf (Smooth rule) c
      (fun _ c' => c'.standing = c.standing) (fun _ _ => False) := by
  obtain ⟨tries, rfl⟩ := Nat.exists_eq_succ_of_ne_zero (Nat.ne_of_gt htries)
  refine (flush_course hw).bind (fun done => ?_) fun done c' _ hc => ?_
  · exact maintains_ite (maintains_pure ()) (flushUntilDone_lasts Trace.Lasting.not_smooth tries)
  · rw [hc.1, if_pos rfl]
    exact fun _ => hc.2

theorem commitPending_course (hw : c.standing.writer.isSome = true) (failures : Nat)
    (pending : Int) :
    (commitPending b.tracing limit failures pending).EndsIf (Smooth rule) c
      (fun _ c' => c'.standing = c.standing) (fun _ _ => False) := by
  rw [commitPending]
  split
  · exact flushUntilDone_course hw (patience_pos limit _)
  · exact fun _ => rfl

theorem replace_course (schema : Avro.Schema) :
    (replace b.tracing schema).EndsIf (Smooth rule) c
      (fun _ c' => c'.standing = c.standing.close.getOrCreate schema) (fun _ _ => False) := by
  refine close_course.bind (fun _ => getOrCreate_lasts Trace.Lasting.not_smooth schema)
    fun _ c' _ hc => ?_
  rw [← hc]
  exact getOrCreate_course schema

/-- A writer that was told of a schema has answered by the rule if all went well. -/
theorem rule_of_smooth {n : Nat} {schema : Avro.Schema} {answer : Bool}
    (h : Trace.smooth rule (c.trace ++ [.updateSchema n schema (.ok answer)]) = true) :
    rule c.standing.calls schema = answer := by
  rw [Trace.smooth_concat, Bool.and_eq_true] at h
  exact (beq_iff_eq.mp h.2).symm

theorem updateSchema_course (schema : Avro.Schema) (pending : Int) :
    (updateSchema b.tracing limit schema pending).EndsIf (Smooth rule) c
      (fun _ c' => c'.standing = c.standing.updateSchema rule schema) (fun _ _ => False) := by
  apply updateSchema_cases
  case hnone =>
    intro hw
    have hnone : c.standing.writer = none := congrArg (Option.map Prod.fst) hw
    rw [Standing.updateSchema, hnone]
    exact getOrCreate_course schema
  case hkept =>
    intro w w' s hw hs
    have hrule : rule c.standing.calls schema = false := rule_of_smooth hs
    rw [Standing.updateSchema, standing_writer hw]
    dsimp only
    rw [hrule]
    exact standing_called hw _ w' s
  case herror => exact fun w f w' s _ hs => Trace.not_smooth_concat (fun _ => rfl) hs
  case hreplaced =>
    intro w w' s c₁ hw hc₁
    have hreplace : Maintains (fun c => ¬Smooth rule c) (replace b.tracing schema) :=
      replace_lasts Trace.Lasting.not_smooth schema
    -- An answer against the rule shows in the trace, and then nothing is asked of what follows.
    by_cases hs : Smooth rule c₁
    · have hrule : rule c.standing.calls schema = true := by
        rw [hc₁] at hs
        exact rule_of_smooth hs
      have hstanding : c₁.standing = c.standing.call (.updateSchema w.1 schema (.ok true)) :=
        hc₁ ▸ standing_called hw _ w' s
      have hwriter : c₁.standing.writer.isSome = true := by
        rw [hstanding]
        exact congrArg Option.isSome (standing_writer hw)
      rw [Standing.updateSchema, standing_writer hw]
      dsimp only
      rw [if_pos hrule, hrule, ← hstanding]
      refine (commitPending_course hwriter _ pending).bind (fun _ => hreplace) fun _ c₂ _ h₂ => ?_
      rw [← h₂]
      exact replace_course schema
    · exact ((commitPending_lasts Trace.Lasting.not_smooth _ _).bind fun _ => hreplace).endsIf hs

end Coordinator

/-! ## Loops -/

namespace Loop

variable {p : Plan} {clock : Readings} {l : Loop (Nat × W) (Trace × S)}

def course (l : Loop (Nat × W) (Trace × S)) : Course :=
  ⟨l.active, l.bound, l.coordinator.standing, l.running, l.lastError⟩

def Smooth (rule : ReplacementRule) (l : Loop (Nat × W) (Trace × S)) : Prop :=
  l.trace.smooth rule = true

/-- Rows are pending only while a writer is open. -/
def Attended (l : Loop (Nat × W) (Trace × S)) : Prop :=
  l.window.records = 0 ∨ l.coordinator.standing.writer.isSome = true

theorem onCoordinator_course {α : Type} {a : Action (Coordinator (Nat × W) (Trace × S)) α}
    {f : Standing → Standing}
    (h : a.EndsIf (Coordinator.Smooth rule) l.coordinator
      (fun _ c => c.standing = f l.coordinator.standing) (fun _ _ => False)) :
    (onCoordinator a).EndsIf (Smooth rule) l
      (fun _ l' => l'.course = l.course.onStanding f) (fun _ _ => False) := by
  rw [EndsIf, ends_onCoordinator]
  exact Ends.mono h (fun _ c hc hs => congrArg (fun x => Course.mk _ _ x _ _) (hc hs))
    fun _ _ h => h

theorem reset_course (now : Double) :
    (reset b.tracing now).EndsIf (Smooth rule) l
      (fun _ l' => l'.course = l.course ∧ l'.window.records = 0) (fun _ _ => False) := by
  apply reset_cases
  case hquiet => exact fun _ => ⟨rfl, rfl⟩
  case hok =>
    intro r s _
    have hstanding := Coordinator.standing_noting (c := l.coordinator) (.acknowledge r (.ok ())) s
    exact ⟨congrArg (fun x => Course.mk _ _ x _ _) hstanding, rfl⟩
  case herror => exact fun r f s hs => Trace.not_smooth_concat (fun _ => rfl) hs

/-- Commits are no part of the course. -/
theorem commitIfDue_course (ht : p.thresholds.Comparable) (h : l.Attended) :
    (commitIfDue p b.tracing clock).EndsIf (Smooth rule) l
      (fun _ l' => l'.course = l.course ∧ l'.Attended) (fun _ _ => False) := by
  apply commitIfDue_cases
  case hidle => exact fun _ _ => ⟨rfl, h⟩
  case hlater => exact fun _ _ _ => ⟨rfl, h⟩
  case hfault =>
    intro fault hfault
    obtain ⟨due, hdue⟩ := ht clock.asked l.window
    rw [hdue] at hfault
    cases hfault
  case hdue =>
    intro hpending _
    have hwriter : l.coordinator.standing.writer.isSome = true :=
      h.resolve_left (Nat.ne_of_gt hpending)
    have hflush : (Coordinator.flush b.tracing p.limit).EndsIf (Coordinator.Smooth rule)
        l.coordinator (fun done c => done = true ∧ c.standing = l.coordinator.standing)
        (fun _ _ => False) := Coordinator.flush_course hwriter
    refine Ends.mono hflush (fun done c hc => ?_) fun _ _ hc => hc
    by_cases hs : c.Smooth rule
    · obtain ⟨hdone, hstanding⟩ := hc hs
      rw [if_pos hdone]
      refine EndsIf.mono (reset_course (l := { l with coordinator := c }) _) (fun _ l' _ hl' => ?_)
        fun _ _ _ h => h
      exact ⟨hl'.1.trans (congrArg (fun x => Course.mk _ _ x _ _) hstanding), .inl hl'.2⟩
    · split
      · exact (reset_lasts Trace.Lasting.not_smooth _).endsIf hs
      · exact fun hs' => absurd hs' hs

theorem bind_course (schema : Avro.Schema) (binding : Binding) (h : l.Attended) :
    (bind p b.tracing clock schema binding).EndsIf (Smooth rule) l
      (fun _ l' => l'.course = l.course.bind rule schema binding ∧ l'.Attended)
      (fun _ _ => False) := by
  rw [EndsIf, bind, ends_bind, ends_get]
  by_cases hbound : l.bound ≠ some binding
  · have hcourse : l.course.bind rule schema binding =
        { l.course.onStanding (Standing.updateSchema rule schema) with bound := some binding } :=
      if_pos hbound
    rw [if_pos hbound, hcourse]
    refine (onCoordinator_course (Coordinator.updateSchema_course schema _)).bind
      (fun replaced => ?_) fun replaced l₁ _ h₁ => ?_
    · exact Maintains.bind (maintains_modify fun _ h => h) fun _ =>
        maintains_ite (reset_lasts Trace.Lasting.not_smooth _) (maintains_pure ())
    · have hbinding : course { l₁ with bound := some binding } =
          { l.course.onStanding (Standing.updateSchema rule schema) with bound := some binding } :=
        congrArg (fun c : Course => { c with bound := some binding }) h₁
      rw [EndsIf, ends_bind, ends_modify]
      cases replaced with
      | true =>
        exact (reset_course _).mono (fun _ l' _ hl' => ⟨hl'.1.trans hbinding, .inl hl'.2⟩)
          fun _ _ _ h => h
      | false =>
        refine fun _ => ⟨hbinding, .inr ?_⟩
        show l₁.course.standing.writer.isSome = true
        rw [h₁]
        exact Standing.updateSchema_writer rule schema _
  · rw [if_neg hbound, show l.course.bind rule schema binding = l.course from if_neg hbound]
    exact fun _ => ⟨rfl, h⟩

theorem count_lost (f : Totals → Totals) :
    (count f).Maintains fun l : Loop (Nat × W) (Trace × S) => ¬l.Smooth rule :=
  count_lasts (R := fun t => ¬t.smooth rule = true) f

theorem store_course (r : Record) (schema : Avro.Schema) (row : Value) :
    (store b.tracing r schema row).EndsIf (Smooth rule) l
      (fun _ l' => l'.course = l.course.onStanding (Standing.store schema row) ∧ l'.Attended)
      (fun _ _ => False) := by
  have hcount : Maintains (fun l : Loop (Nat × W) (Trace × S) => ¬Smooth rule l) (do
      Action.modify fun l =>
        { l with last := some ⟨r, false⟩
                 coordinator := { l.coordinator with window := l.window.recordWritten } }
      count fun t => { t with written := t.written + 1 }) :=
    Maintains.bind (maintains_modify fun _ h => h) fun _ => count_lost _
  refine (onCoordinator_course (Coordinator.getOrCreate_course schema)).bind (fun _ => ?_)
    fun _ l₁ _ h₁ => ?_
  · exact Maintains.bind
      (onCoordinator_lasts (Coordinator.write_lasts Trace.Lasting.not_smooth row)) fun _ => hcount
  · have hwriter : l₁.course.standing.writer.isSome = true := by
      rw [h₁]
      exact Standing.getOrCreate_writer schema _
    refine (onCoordinator_course (Coordinator.write_course row hwriter)).bind (fun _ => hcount)
      fun _ l₂ _ h₂ => ?_
    have hstored : l₂.course.onStanding Standing.countWritten =
        l.course.onStanding (Standing.store schema row) := by
      rw [h₂, h₁]
      rfl
    rw [EndsIf, ends_bind, ends_modify, ends_count]
    refine fun _ => ⟨hstored, .inr ?_⟩
    show (l₂.course.onStanding Standing.countWritten).standing.writer.isSome = true
    rw [hstored]
    exact Standing.store_writer schema row _

theorem deliver_course (ht : p.thresholds.Comparable) (r : Record) (schema : Avro.Schema)
    (binding : Binding) (h : l.Attended) :
    (deliver p b.tracing clock r schema binding).EndsIf (Smooth rule) l
      (fun _ l' => l'.course =
          (l.course.bind rule schema binding).deliver p.fieldName r schema ∧ l'.Attended)
      (fun _ _ => False) := by
  have hlost : Trace.Lasting fun t => ¬t.smooth rule = true := Trace.Lasting.not_smooth
  refine (bind_course schema binding h).bind (fun _ => ?_) fun _ l₁ _ h₁ => ?_
  · refine Maintains.bind (fun _ h => h) fun row => maintains_ite (count_lost _) ?_
    exact Maintains.bind (store_lasts hlost r schema row) fun _ => commitIfDue_lasts hlost
  · obtain ⟨hcourse, hattended⟩ := h₁
    rw [← hcourse, EndsIf, ends_bind, ends_decode]
    show (if (l₁.decoded p r schema).row.isNull then _ else _ : Action (Loop _ _) Unit).EndsIf
      (Smooth rule) (l₁.decoding p r schema) _ _
    have hdeliver : l₁.course.deliver p.fieldName r schema =
        if (l₁.decoded p r schema).row.isNull then
          (l₁.decoding p r schema).course.onStanding Standing.countDropped
        else (l₁.decoding p r schema).course.onStanding
          (Standing.store schema (l₁.decoded p r schema).row) := rfl
    rw [hdeliver]
    by_cases hnull : (l₁.decoded p r schema).row.isNull = true
    · rw [if_pos hnull, if_pos hnull, EndsIf, ends_count]
      exact fun _ => ⟨rfl, hattended⟩
    · rw [if_neg hnull, if_neg hnull]
      refine (store_course r schema _).bind (fun _ => commitIfDue_lasts hlost) fun _ l₂ _ h₂ => ?_
      exact (commitIfDue_course ht h₂.2).mono (fun _ l₃ _ h₃ => ⟨h₃.1.trans h₂.1, h₃.2⟩)
        fun _ _ _ h => h

theorem course_following (changed : Bool) (a : ActiveSchema) :
    (l.following changed a).course = l.course.following changed a := by
  cases changed <;> rfl

/-- A record takes a loop a step of the course further. -/
theorem handle_course (ht : p.thresholds.Comparable) (r : Record) (hrunning : l.running = true)
    (h : l.Attended) :
    (handle p b.tracing clock r).EndsIf (Smooth rule) l
      (fun _ l' => l'.course = l.course.take rule p.fieldName r ∧ l'.Attended)
      (fun f l' => l'.course.stop f = l.course.take rule p.fieldName r) := by
  obtain ⟨reception, hr⟩ : ∃ reception, l.active.receive p.fieldName r = reception := ⟨_, rfl⟩
  have htake : l.course.take rule p.fieldName r = l.course.answer rule p.fieldName r reception := by
    rw [← hr]
    exact if_pos hrunning
  rw [htake, Course.answer]
  apply handle_ends hr
  case hskipped =>
    intro hv _
    rw [hv]
    exact ⟨rfl, h⟩
  case hrefused =>
    intro f hv _
    rw [hv, course_following]
  case hadmitted =>
    intro schema binding hv
    have hattended : (l.following reception.changed reception.active).Attended := h
    rw [hv, ← course_following]
    exact (deliver_course ht r schema binding hattended).mono (fun _ _ _ h => h)
      fun _ _ _ h => h.elim

end Loop
end StreamTable
