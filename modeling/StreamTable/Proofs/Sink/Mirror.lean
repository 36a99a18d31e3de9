/-
Loops over table writers that mirror each other.  If the calls of one kind of table writers mirror
those of another, so do whole histories of loops over them: what is kept beside the writers and
their world, such as a journal of the calls, has no bearing on what the loop does.
-/
import StreamTable.Proofs.Action.Mirror
import StreamTable.Proofs.Sink.History

namespace StreamTable

open StreamTable.Action

variable {W W' S S' : Type}

/-- The calls of two kinds of table writers mirror each other. -/
structure Backend.Mirrors (w : W → W') (s : S → S') (b : Backend W S) (b' : Backend W' S') :
    Prop where
  create : ∀ schema, (b.create schema).Mirrors s w (b'.create schema)
  name : ∀ x, b'.name (w x) = b.name x
  updateSchema : ∀ schema, (b.updateSchema schema).Mirrors (Prod.map w s) id (b'.updateSchema schema)
  write : ∀ row, (b.write row).Mirrors (Prod.map w s) id (b'.write row)
  flush : b.flush.Mirrors (Prod.map w s) id b'.flush
  close : b.close.Mirrors (Prod.map w s) id b'.close
  acknowledge : ∀ r, (b.acknowledge r).Mirrors s id (b'.acknowledge r)

variable {w : W → W'} {s : S → S'} {b : Backend W S} {b' : Backend W' S'}

namespace Coordinator

/-- A coordinator with other writers in another world. -/
def map (w : W → W') (s : S → S') (c : Coordinator W S) : Coordinator W' S' :=
  ⟨c.writer.map w, s c.world, c.opened, c.window, c.totals⟩

theorem say_mirrors (level : Log.Level) (message : String) :
    (say level message).Mirrors (map w s) id (say level message) := mirrors_log _

theorem onWriter_mirrors {α : Type} {x : W} {call : Action (W × S) α} {call' : Action (W' × S') α}
    (h : call.Mirrors (Prod.map w s) id call') :
    (onWriter x call).Mirrors (map w s) id (onWriter (w x) call') :=
  Mirrors.focus h (fun _ => rfl) fun _ _ => rfl

theorem getOrCreate_mirrors (hb : b.Mirrors w s b') (schema : Avro.Schema) :
    (getOrCreate b schema).Mirrors (map w s) w (getOrCreate b' schema) := by
  have hcreate : (((b.create schema).focus Coordinator.world
      fun t c => { c with world := t }).attempt).Mirrors (map w s) (Except.map w)
      ((b'.create schema).focus Coordinator.world fun t c => { c with world := t }).attempt :=
    Mirrors.attempt (Mirrors.focus (hb.create schema) (fun _ => rfl) fun _ _ => rfl)
  refine Mirrors.bind mirrors_get fun c => ?_
  cases hc : c.writer with
  | some x =>
    have hc' : (map w s c).writer = some (w x) := by rw [map, hc]; rfl
    rw [hc']
    exact mirrors_pure rfl
  | none =>
    have hc' : (map w s c).writer = none := by rw [map, hc]; rfl
    rw [hc']
    refine Mirrors.bind hcreate fun created => ?_
    cases created with
    | error cause => exact mirrors_fail _
    | ok x =>
      refine Mirrors.bind (mirrors_modify fun _ => rfl) fun _ => ?_
      rw [← hb.name]
      exact Mirrors.bind (say_mirrors _ _) fun _ => mirrors_pure rfl

theorem write_mirrors (hb : b.Mirrors w s b') (row : Value) :
    (write b row).Mirrors (map w s) id (write b' row) := by
  refine Mirrors.bind mirrors_get fun c => ?_
  cases hc : c.writer with
  | some x =>
    have hc' : (map w s c).writer = some (w x) := by rw [map, hc]; rfl
    rw [hc']
    exact onWriter_mirrors (hb.write row)
  | none =>
    have hc' : (map w s c).writer = none := by rw [map, hc]; rfl
    rw [hc']
    exact mirrors_fail _

theorem commitDone_mirrors :
    (commitDone : Action (Coordinator W S) Unit).Mirrors (map w s) id commitDone := by
  refine Mirrors.bind mirrors_get fun c => ?_
  have hmodify : (Action.modify fun c : Coordinator W S => { c with
      window := c.window.clearFailures
      totals := { c.totals with commits := c.totals.commits + 1 } }).Mirrors (map w s) id
      (Action.modify fun c => { c with
        window := c.window.clearFailures
        totals := { c.totals with commits := c.totals.commits + 1 } }) :=
    mirrors_modify fun _ => rfl
  exact mirrors_ite (Mirrors.bind (say_mirrors _ _) fun _ => hmodify) hmodify

theorem commitFailed_mirrors (limit : Value) :
    (commitFailed limit : Action (Coordinator W S) Unit).Mirrors (map w s) id
      (commitFailed limit) := by
  refine Mirrors.bind (mirrors_modify fun _ => rfl) fun _ => Mirrors.bind mirrors_get fun c => ?_
  refine Mirrors.bind (say_mirrors _ _) fun _ => Mirrors.bind (mirrors_lift _) fun tooMany => ?_
  exact mirrors_ite (Mirrors.bind (say_mirrors _ _) fun _ => mirrors_fail _) (mirrors_pure rfl)

theorem flush_mirrors (hb : b.Mirrors w s b') (limit : Value) :
    (flush b limit).Mirrors (map w s) id (flush b' limit) := by
  refine Mirrors.bind mirrors_get fun c => ?_
  cases hc : c.writer with
  | some x =>
    have hc' : (map w s c).writer = some (w x) := by rw [map, hc]; rfl
    rw [hc']
    refine Mirrors.bind (onWriter_mirrors hb.flush) fun done => ?_
    exact mirrors_ite (Mirrors.bind commitDone_mirrors fun _ => mirrors_pure rfl)
      (Mirrors.bind (commitFailed_mirrors limit) fun _ => mirrors_pure rfl)
  | none =>
    have hc' : (map w s c).writer = none := by rw [map, hc]; rfl
    rw [hc']
    exact mirrors_fail _

theorem flushUntilDone_mirrors (hb : b.Mirrors w s b') (limit : Value) (tries : Nat) :
    (flushUntilDone b limit tries).Mirrors (map w s) id (flushUntilDone b' limit tries) := by
  induction tries with
  | zero => exact Mirrors.bind mirrors_get fun c => mirrors_fail _
  | succ tries ih =>
    exact Mirrors.bind (flush_mirrors hb limit) fun done => mirrors_ite (mirrors_pure rfl) ih

theorem close_mirrors (hb : b.Mirrors w s b') :
    (close b).Mirrors (map w s) id (close b') := by
  refine Mirrors.bind mirrors_get fun c => ?_
  cases hc : c.writer with
  | some x =>
    have hc' : (map w s c).writer = some (w x) := by rw [map, hc]; rfl
    rw [hc']
    refine Mirrors.bind (mirrors_modify fun _ => rfl) fun _ => ?_
    rw [← hb.name]
    exact Mirrors.bind (say_mirrors _ _) fun _ => Mirrors.focus hb.close (fun _ => rfl) fun _ _ => rfl
  | none =>
    have hc' : (map w s c).writer = none := by rw [map, hc]; rfl
    rw [hc']
    exact mirrors_pure rfl

theorem updateSchema_mirrors (hb : b.Mirrors w s b') (limit : Value) (schema : Avro.Schema)
    (pending : Int) :
    (updateSchema b limit schema pending).Mirrors (map w s) id
      (updateSchema b' limit schema pending) := by
  refine Mirrors.bind mirrors_get fun c => ?_
  cases hc : c.writer with
  | none =>
    have hc' : (map w s c).writer = none := by rw [map, hc]; rfl
    rw [hc']
    exact Mirrors.bind (getOrCreate_mirrors hb schema) fun _ => mirrors_pure rfl
  | some x =>
    have hc' : (map w s c).writer = some (w x) := by rw [map, hc]; rfl
    rw [hc']
    refine Mirrors.bind (onWriter_mirrors (hb.updateSchema schema)) fun replace => ?_
    have hrest : (do
        close b
        let _ ← getOrCreate b schema
        Pure.pure true : Action (Coordinator W S) Bool).Mirrors (map w s) id (do
        close b'
        let _ ← getOrCreate b' schema
        Pure.pure true) :=
      Mirrors.bind (close_mirrors hb) fun _ => Mirrors.bind (getOrCreate_mirrors hb schema) fun _ =>
        mirrors_pure rfl
    refine mirrors_ite (mirrors_pure rfl) (Mirrors.bind (say_mirrors _ _) fun _ => ?_)
    exact mirrors_ite (Mirrors.bind (flushUntilDone_mirrors hb limit _) fun _ => hrest) hrest

end Coordinator

namespace Loop

/-- A loop with other writers in another world. -/
def map (w : W → W') (s : S → S') (l : Loop W S) : Loop W' S' :=
  ⟨l.queue, l.coordinator.map w s, l.active, l.bound, l.last, l.acknowledged, l.running, l.lastError,
    l.closed⟩

/-- The same, and other records wait, or the loop does not run any more. -/
def recast (w : W → W') (s : S → S') (q : List Record → List Record) (x : Bool → Bool)
    (l : Loop W S) : Loop W' S' :=
  { l.map w s with queue := q l.queue, running := x l.running }

variable {p : Plan} {clock : Readings} {q : List Record → List Record} {x : Bool → Bool}

/-! Until an iteration is over, neither the queue nor whether the loop runs has any bearing on it. -/

theorem onCoordinator_mirrors {α α' : Type} {g : α → α'} {a : Action (Coordinator W S) α}
    {a' : Action (Coordinator W' S') α'} (h : a.Mirrors (Coordinator.map w s) g a') :
    (onCoordinator a).Mirrors (recast w s q x) g (onCoordinator a') :=
  Mirrors.focus h (fun _ => rfl) fun _ _ => rfl

theorem count_mirrors (f : Totals → Totals) :
    (count f : Action (Loop W S) Unit).Mirrors (recast w s q x) id (count f) :=
  onCoordinator_mirrors (mirrors_modify fun _ => rfl)

theorem acknowledge_mirrors (hb : b.Mirrors w s b') (r : Record) :
    (acknowledge b r).Mirrors (recast w s q x) id (acknowledge b' r) :=
  Mirrors.bind (mirrors_modify fun _ => rfl) fun _ =>
    onCoordinator_mirrors (Mirrors.focus (hb.acknowledge r) (fun _ => rfl) fun _ _ => rfl)

theorem acknowledgeLast_mirrors (hb : b.Mirrors w s b') :
    (acknowledgeLast b).Mirrors (recast w s q x) id (acknowledgeLast b') := by
  refine Mirrors.bind mirrors_get fun l => ?_
  dsimp only [recast, map]
  cases l.last with
  | none => exact mirrors_pure rfl
  | some d => exact mirrors_ite (mirrors_pure rfl) (acknowledge_mirrors hb d.record)

theorem reset_mirrors (hb : b.Mirrors w s b') (now : Double) :
    (reset b now).Mirrors (recast w s q x) id (reset b' now) :=
  Mirrors.bind (acknowledgeLast_mirrors hb) fun _ => mirrors_modify fun _ => rfl

theorem commitIfDue_mirrors (hb : b.Mirrors w s b') :
    (commitIfDue p b clock).Mirrors (recast w s q x) id (commitIfDue p b' clock) := by
  refine Mirrors.bind mirrors_get fun l => mirrors_ite (Mirrors.bind (mirrors_lift _) fun due => ?_)
    (mirrors_pure rfl)
  refine mirrors_ite (Mirrors.bind (onCoordinator_mirrors (Coordinator.flush_mirrors hb p.limit))
    fun done => ?_) (mirrors_pure rfl)
  exact mirrors_ite (reset_mirrors hb clock.committed) (mirrors_pure rfl)

theorem skip_mirrors (message : String) (cause : Option Failure) (r : Record) :
    (skip message cause r : Action (Loop W S) Unit).Mirrors (recast w s q x) id (skip message cause r) :=
  Mirrors.bind (mirrors_log _) fun _ => count_mirrors _

theorem follow_mirrors (r : Record) :
    (follow r : Action (Loop W S) Bool).Mirrors (recast w s q x) id (follow r) := by
  refine Mirrors.bind mirrors_get fun l => ?_
  refine mirrors_ite (Mirrors.bind (skip_mirrors _ _ r) fun _ => mirrors_pure rfl)
    (mirrors_ite ?_ (mirrors_pure rfl))
  dsimp only [recast, map]
  rcases l.active.observe r.descriptor with ⟨f | changed, a⟩
  · cases f with
    | descriptor => exact Mirrors.bind (skip_mirrors _ _ r) fun _ => mirrors_pure rfl
    | _ => exact mirrors_fail _
  · exact Mirrors.bind (mirrors_modify fun _ => rfl) fun _ => Mirrors.bind (count_mirrors _) fun _ =>
      mirrors_pure rfl

theorem storage_mirrors (r : Record) :
    (storage p r : Action (Loop W S) (Avro.Schema × Binding)).Mirrors (recast w s q x) id
      (storage p r) := by
  refine Mirrors.bind mirrors_get fun l => ?_
  cases r.encoding with
  | primitive => exact Mirrors.bind (mirrors_modify fun _ => rfl) fun _ => mirrors_lift _
  | binary => exact mirrors_pure rfl
  | json => exact mirrors_pure rfl

theorem bind_mirrors (hb : b.Mirrors w s b') (schema : Avro.Schema) (binding : Binding) :
    (bind p b clock schema binding).Mirrors (recast w s q x) id (bind p b' clock schema binding) := by
  refine Mirrors.bind mirrors_get fun l => mirrors_ite ?_ (mirrors_pure rfl)
  refine Mirrors.bind (onCoordinator_mirrors (Coordinator.updateSchema_mirrors hb p.limit schema _))
    fun replaced => Mirrors.bind (mirrors_modify fun _ => rfl) fun _ => ?_
  exact mirrors_ite (reset_mirrors hb clock.replaced) (mirrors_pure rfl)

theorem store_mirrors (hb : b.Mirrors w s b') (r : Record) (schema : Avro.Schema) (row : Value) :
    (store b r schema row).Mirrors (recast w s q x) id (store b' r schema row) :=
  Mirrors.bind (onCoordinator_mirrors (Coordinator.getOrCreate_mirrors hb schema)) fun _ =>
    Mirrors.bind (onCoordinator_mirrors (Coordinator.write_mirrors hb row)) fun _ =>
      Mirrors.bind (mirrors_modify fun _ => rfl) fun _ => count_mirrors _

theorem deliver_mirrors (hb : b.Mirrors w s b') (r : Record) (schema : Avro.Schema)
    (binding : Binding) :
    (deliver p b clock r schema binding).Mirrors (recast w s q x) id
      (deliver p b' clock r schema binding) := by
  have hdecode : (decode p r schema : Action (Loop W S) Value).Mirrors (recast w s q x) id
      (decode p r schema) := fun _ => rfl
  refine Mirrors.bind (bind_mirrors hb schema binding) fun _ => Mirrors.bind hdecode fun row => ?_
  exact mirrors_ite (count_mirrors _)
    (Mirrors.bind (store_mirrors hb r schema row) fun _ => commitIfDue_mirrors hb)

theorem handle_mirrors (hb : b.Mirrors w s b') (r : Record) :
    (handle p b clock r).Mirrors (recast w s q x) id (handle p b' clock r) :=
  Mirrors.bind (follow_mirrors r) fun _ => mirrors_ite
    (Mirrors.bind (storage_mirrors r) fun y => deliver_mirrors hb r y.1 y.2) (mirrors_pure rfl)

theorem iterate_mirrors (hb : b.Mirrors w s b') (timeout : Double) :
    (iterate p b clock timeout).Mirrors (map w s) id (iterate p b' clock timeout) := by
  refine Mirrors.bind mirrors_get fun l => ?_
  dsimp only [map]
  cases waitFault? timeout l.queue.isEmpty with
  | some fault => exact mirrors_fail _
  | none =>
    cases l.queue with
    | nil =>
      have hcommit : (commitIfDue p b clock).Mirrors (map w s) id (commitIfDue p b' clock) :=
        commitIfDue_mirrors (q := id) (x := id) hb
      exact Mirrors.bind hcommit fun _ => mirrors_pure rfl
    | cons r rest =>
      refine Mirrors.bind (mirrors_modify fun _ => rfl) fun _ => ?_
      have hhandle : (handle p b clock r).Mirrors (map w s) id (handle p b' clock r) :=
        handle_mirrors (q := id) (x := id) hb r
      exact Mirrors.bind hhandle fun _ => mirrors_pure rfl

theorem advance_mirrors (hb : b.Mirrors w s b') (timeout : Double) :
    (advance p b clock timeout).Mirrors (map w s) id (advance p b' clock timeout) := by
  refine Mirrors.bind mirrors_get fun l => mirrors_ite ?_ (mirrors_pure rfl)
  refine Mirrors.bind (iterate_mirrors hb timeout).attempt fun result => ?_
  cases result with
  | ok taken => exact mirrors_pure rfl
  | error f =>
    exact Mirrors.bind (mirrors_log _) fun _ => Mirrors.bind (mirrors_modify fun _ => rfl) fun _ =>
      mirrors_pure rfl

theorem map_apply (hb : b.Mirrors w s b') (l : Loop W S) (e : Event) :
    (l.apply p b e).map w s = (l.map w s).apply p b' e := by
  cases e with
  | put r => rfl
  | iterate clock timeout =>
    have h : (advance p b clock timeout).Mirrors (map w s) id (advance p b' clock timeout) :=
      advance_mirrors hb timeout
    exact (congrArg Effect.state (h l)).symm

/-- Loops over table writers that mirror each other go the same way. -/
theorem map_after (hb : b.Mirrors w s b') (events : List Event) (l : Loop W S) :
    (after p b events l).map w s = after p b' events (l.map w s) := by
  induction events generalizing l with
  | nil => rfl
  | cons e events ih =>
    show (after p b events (l.apply p b e)).map w s = after p b' events ((l.map w s).apply p b' e)
    rw [ih, map_apply hb]

/-- They also write the same records. -/
theorem delivered_map (hb : b.Mirrors w s b') (events : List Event) (l : Loop W S) :
    delivered p b' events (l.map w s) = delivered p b events l := by
  induction events generalizing l with
  | nil => rfl
  | cons e events ih =>
    simp only [delivered]
    rw [← map_apply hb, ih]
    rfl

end Loop
end StreamTable
