/-
Closing a loop.  Whatever has become of the loop, closing it closes the open writer once, whether or
not that goes well, and acknowledges the record that was written last.  Nothing more comes of the
loop then: it takes no record and calls no writer.
-/
import StreamTable.Proofs.Sink.Counts
import StreamTable.Proofs.Sink.Discipline
import StreamTable.Proofs.Sink.History

namespace StreamTable

open StreamTable.Action

namespace Coordinator

variable {W S : Type} {b : Backend W S} {c : Coordinator W S}

theorem run_close_none (h : c.writer = none) : (close b).run c = ⟨.ok (), c, []⟩ := by
  rw [close, run_bind_of_ok (run_get c), h]
  rfl

theorem run_close_some {w : W} (h : c.writer = some w) :
    (close b).run c =
      let closing := b.close.run (w, c.world)
      ⟨closing.result, { c with writer := none, world := closing.state.2 },
        .plain .info ("Closing table writer " ++ b.name w) :: closing.log⟩ := by
  rw [close, run_bind_of_ok (run_get c), h]
  rfl

/-- No writer is open once the coordinator is closed. -/
theorem close_writer : ((close b).run c).state.writer = none := by
  cases hw : c.writer with
  | none =>
    rw [run_close_none hw]
    exact hw
  | some w => rw [run_close_some hw]

/-- Closing the coordinator comes to what closing its open writer comes to. -/
theorem close_outcome : ((close b).run c).result =
    c.writer.elim (.ok ()) fun w => (b.close.run (w, c.world)).result := by
  cases hw : c.writer with
  | none =>
    rw [run_close_none hw]
    rfl
  | some w =>
    rw [run_close_some hw]
    rfl

end Coordinator

namespace Loop

/-! ## The record that was written last -/

section Progress

variable {W S : Type} {b : Backend W S} {p : Plan} {clock : Readings} {l : Loop W S}

/-- The record that was written last, and how many were written. -/
def progress (l : Loop W S) : Option Record × Nat := (l.last.map Delivery.record, l.written)

theorem onCoordinator_progress {α : Type} {a : Action (Coordinator W S) α}
    (ha : a.Preserves Coordinator.tally) : (onCoordinator a).Preserves progress :=
  fun l => congrArg (fun t => (l.last.map Delivery.record, t.1)) (ha l.coordinator)

theorem acknowledgeLast_progress : (acknowledgeLast b).Preserves (progress : Loop W S → _) := by
  refine fun l => Ends.state (R := fun l' : Loop W S => l'.progress = l.progress) ?_
  simp only [acknowledgeLast, ends_bind, ends_get]
  cases hlast : l.last with
  | none => exact rfl
  | some d =>
    rw [ends_ite]
    refine ⟨fun _ => rfl, fun _ => ?_⟩
    simp only [acknowledge, ends_bind, ends_modify, ends_onCoordinator, ends_focus]
    have hrecord : some d.record = l.last.map Delivery.record := by
      rw [hlast]
      rfl
    exact Ends.of_forall (fun _ _ => Prod.ext hrecord rfl) fun _ _ => Prod.ext hrecord rfl

theorem reset_progress (now : Double) : (reset b now).Preserves (progress : Loop W S → _) :=
  Preserves.bind acknowledgeLast_progress fun _ => preserves_modify fun _ => rfl

theorem commitIfDue_progress : (commitIfDue p b clock).Preserves progress := by
  refine Preserves.bind preserves_get fun l => preserves_ite ?_ (preserves_pure ())
  refine Preserves.bind (preserves_lift _) fun due => preserves_ite ?_ (preserves_pure ())
  exact Preserves.bind (onCoordinator_progress (Coordinator.flush_tally _)) fun done =>
    preserves_ite (reset_progress _) (preserves_pure ())

theorem bind_progress (schema : Avro.Schema) (binding : Binding) :
    (bind p b clock schema binding).Preserves progress := by
  refine Preserves.bind preserves_get fun l => preserves_ite ?_ (preserves_pure ())
  refine Preserves.bind (onCoordinator_progress (Coordinator.updateSchema_tally _ _ _))
    fun replaced => Preserves.bind (preserves_modify fun _ => rfl) fun _ =>
      preserves_ite (reset_progress _) (preserves_pure ())

/-- Nothing is written on the way from one loop to another, or the record is. -/
def Proceeds (r : Record) (l l' : Loop W S) : Prop :=
  l'.progress = l.progress ∨ l'.progress = (some r, l.written + 1)

theorem Proceeds.of_eq {r : Record} {l₁ l' : Loop W S} (h : Proceeds r l₁ l')
    (hp : l₁.progress = l.progress) : Proceeds r l l' := by
  have hw : l₁.written = l.written := congrArg Prod.snd hp
  rw [Proceeds, hp, hw] at h
  exact h

theorem store_progress (r : Record) (schema : Avro.Schema) (row : Value) :
    (store b r schema row).Ends l (fun _ l' => l'.progress = (some r, l.written + 1))
      (fun _ l' => l'.progress = l.progress) := by
  have hkept {c : Coordinator W S} (hc : c.tally = l.coordinator.tally) :
      progress { l with coordinator := c } = l.progress :=
    congrArg (fun t => (l.last.map Delivery.record, t.1)) hc
  simp only [store, ends_bind, ends_onCoordinator, ends_modify, ends_count]
  refine ((Coordinator.getOrCreate_tally schema).ends l.coordinator).mono (fun _ c hc => ?_)
    fun _ c hc => hkept hc
  refine ((Coordinator.write_tally row).ends c).mono (fun _ c' hc' => ?_)
    fun _ c' hc' => hkept (hc'.trans hc)
  exact congrArg (fun t : Nat × Nat × Nat × Nat => (some r, t.1 + 1)) (hc'.trans hc)

theorem deliver_progress (r : Record) (schema : Avro.Schema) (binding : Binding) :
    (deliver p b clock r schema binding).Ends l (fun _ l' => Proceeds r l l')
      (fun _ l' => Proceeds r l l') := by
  simp only [deliver, ends_bind]
  refine ((bind_progress schema binding).ends l).mono (fun _ l₁ h₁ => ?_) fun _ _ h => .inl h
  rw [ends_decode, ends_ite]
  refine ⟨fun _ => .inl h₁, fun _ => ?_⟩
  rw [ends_bind]
  refine (store_progress r schema _).mono (fun _ l₂ h₂ => ?_) fun _ l₂ h₂ => .inl (h₂.trans h₁)
  exact (commitIfDue_progress.ends l₂).mono
    (fun _ l₃ h₃ => Proceeds.of_eq (.inr (h₃.trans h₂)) h₁)
    fun _ l₃ h₃ => Proceeds.of_eq (.inr (h₃.trans h₂)) h₁

theorem progress_following (changed : Bool) (a : ActiveSchema) :
    (l.following changed a).progress = l.progress := by
  cases changed <;> rfl

theorem handle_progress (r : Record) :
    (handle p b clock r).Ends l (fun _ l' => Proceeds r l l') (fun _ l' => Proceeds r l l') := by
  refine handle_ends rfl (fun _ => .inl rfl) (fun f _ => .inl (progress_following _ _))
    fun schema binding _ => ?_
  exact (deliver_progress r schema binding).mono
    (fun _ _ h => h.of_eq (progress_following _ _)) fun _ _ h => h.of_eq (progress_following _ _)

/-- An iteration writes nothing, or the first record in the queue. -/
theorem advance_progress (l : Loop W S) (clock : Readings) (timeout : Double) :
    let l' := ((advance p b clock timeout).run l).state
    l'.progress = l.progress ∨
      ∃ r, l.queue.head? = some r ∧ l'.progress = (some r, l.written + 1) := by
  refine advance_cases (R := fun l' : Loop W S => l'.progress = l.progress ∨
    ∃ r, l.queue.head? = some r ∧ l'.progress = (some r, l.written + 1)) (fun _ => .inl rfl)
    fun _ => ?_
  refine iterate_cases (fun _ _ => .inl rfl) (fun _ => ?_) fun r rest hq => ?_
  · exact (commitIfDue_progress.ends l).mono (fun _ _ h => .inl h) fun _ _ h => .inl h
  · have hhead : l.queue.head? = some r := by rw [hq, List.head?_cons]
    exact (handle_progress r).mono (fun _ _ h => h.imp id fun h => ⟨r, hhead, h⟩)
      fun _ _ h => h.imp id fun h => ⟨r, hhead, h⟩

variable {A : b.Accounts} {k : Books}

/-- The last record that an event left as written is the one whose row came last. -/
theorem apply_last (e : Event) (h : l.Consistent A k) :
    (l.apply p b e).last.map Delivery.record =
      (((if l.written < (l.apply p b e).written then (nextRow p l).toList else []).getLast?.map
        Prod.fst).or (l.last.map Delivery.record)) := by
  cases e with
  | put r =>
    have hw : (l.apply p b (.put r)).written = l.written := rfl
    rw [hw, if_neg (Nat.lt_irrefl _)]
    rfl
  | iterate clock timeout =>
    obtain ⟨k', hk', hrows⟩ := apply_consistent (p := p) (.iterate clock timeout) h
    have hw : l.written = k.rows.length := h.booked.written
    have hw' : (l.apply p b (.iterate clock timeout)).written = k'.rows.length := hk'.booked.written
    obtain hsame | ⟨r, hr, hnext⟩ := advance_progress (p := p) (b := b) l clock timeout
    · have hlast : (l.apply p b (.iterate clock timeout)).last.map Delivery.record =
          l.last.map Delivery.record := congrArg Prod.fst hsame
      have hwritten : (l.apply p b (.iterate clock timeout)).written = l.written :=
        congrArg Prod.snd hsame
      rw [hlast, hwritten, if_neg (Nat.lt_irrefl _)]
      rfl
    · have hlast : (l.apply p b (.iterate clock timeout)).last.map Delivery.record = some r :=
        congrArg Prod.fst hnext
      have hwritten : (l.apply p b (.iterate clock timeout)).written = l.written + 1 :=
        congrArg Prod.snd hnext
      have hmore : l.written < (l.apply p b (.iterate clock timeout)).written := by omega
      rw [if_pos hmore] at hrows ⊢
      -- the row that was added is one of that record
      cases hx : nextRow p l with
      | none =>
        rw [hx, Option.toList_none, List.append_nil] at hrows
        rw [hrows] at hw'
        omega
      | some x =>
        have hrecord : some x.1 = some r := (nextRow_eq_some hx).symm.trans hr
        rw [hlast, Option.toList_some, List.getLast?_singleton, Option.map_some, hrecord]
        rfl

/-- The last record of a loop is the one that was written last in its history. -/
theorem after_last (events : List Event) (h : l.Consistent A k) :
    (after p b events l).last.map Delivery.record =
      ((delivered p b events l).getLast?.map Prod.fst).or (l.last.map Delivery.record) := by
  induction events generalizing l k with
  | nil => rfl
  | cons e events ih =>
    obtain ⟨k', hk', -⟩ := apply_consistent (p := p) e h
    rw [after, ih hk', apply_last e h, delivered, List.getLast?_append]
    cases (delivered p b events (l.apply p b e)).getLast? with
    | none => rfl
    | some x => rfl

end Progress

/-! ## Closing -/

section Closing

variable {W S : Type} {b : Backend W S} {p : Plan} {l : Loop W S}

/-- The record that was written last, if it was not acknowledged yet. -/
def unsettled (l : Loop W S) : Option Record :=
  (l.last.filter fun d => !d.acknowledged).map Delivery.record

/-- What comes of telling whoever waits for that record. -/
def answer (b : Backend W S) (l : Loop W S) : Except Failure Unit :=
  match l.unsettled with
  | none => .ok ()
  | some r => ((b.acknowledge r).run l.coordinator.world).result

/-- The loop once that record is acknowledged. -/
def settleLast (b : Backend W S) (l : Loop W S) : Loop W S :=
  match l.unsettled with
  | none => l
  | some r =>
    { l with
      last := some ⟨r, true⟩
      acknowledged := l.acknowledged ++ [r.id]
      coordinator :=
        { l.coordinator with world := ((b.acknowledge r).run l.coordinator.world).state } }

/-- The loop once its writer is closed. -/
def shut (b : Backend W S) (l : Loop W S) : Loop W S :=
  { l with
    running := false
    closed := true
    coordinator := ((Coordinator.close b).run l.coordinator).state }

@[simp]
theorem settleLast_running : (l.settleLast b).running = l.running := by
  unfold settleLast
  cases l.unsettled <;> rfl

@[simp]
theorem settleLast_closed : (l.settleLast b).closed = l.closed := by
  unfold settleLast
  cases l.unsettled <;> rfl

@[simp]
theorem settleLast_writer :
    (l.settleLast b).coordinator.writer = l.coordinator.writer := by
  unfold settleLast
  cases l.unsettled <;> rfl

theorem settleLast_last : (l.settleLast b).last = l.last.map fun d => ⟨d.record, true⟩ := by
  unfold settleLast unsettled
  cases hlast : l.last with
  | none => exact hlast
  | some d =>
    obtain ⟨r, acknowledged⟩ := d
    cases acknowledged with
    | true => exact hlast
    | false => rfl

theorem settleLast_acknowledged :
    (l.settleLast b).acknowledged = l.acknowledged ++ l.unsettled.toList.map Record.id := by
  unfold settleLast
  cases l.unsettled with
  | none => exact (List.append_nil _).symm
  | some r => rfl

theorem run_acknowledgeLast (l : Loop W S) :
    ((acknowledgeLast b).run l).result = l.answer b ∧
      ((acknowledgeLast b).run l).state = l.settleLast b := by
  rw [acknowledgeLast, run_bind_of_ok (run_get l)]
  unfold answer settleLast unsettled
  cases hlast : l.last with
  | none => exact ⟨rfl, rfl⟩
  | some d =>
    obtain ⟨r, acknowledged⟩ := d
    cases acknowledged with
    | true => exact ⟨rfl, rfl⟩
    | false => exact ⟨rfl, rfl⟩

theorem run_close_open (hopen : l.closed = false) :
    (close b).run l = ((onCoordinator (Coordinator.close b)).attempt >>= fun result =>
      acknowledgeLast b >>= fun _ => lift result).run
        { l with running := false, closed := true } := by
  rw [close, run_bind_of_ok (run_modify _ _), run_bind_of_ok (run_get _)]
  show (if l.closed = true then _ else _ : Action (Loop W S) Unit).run l.stop = _
  rw [if_neg (by rw [hopen]; exact Bool.false_ne_true)]
  rfl

/-- Closing a loop for the first time closes its writer and acknowledges its last record, in this
order.  A failure of the writer is not lost, unless whoever waits for the record fails as well. -/
theorem run_close (hopen : l.closed = false) :
    ((close b).run l).result = ((l.shut b).answer b >>= fun _ =>
        ((Coordinator.close b).run l.coordinator).result) ∧
      ((close b).run l).state = (l.shut b).settleLast b := by
  obtain ⟨hanswer, hsettled⟩ := run_acknowledgeLast (b := b) (l.shut b)
  have hclosed : ((onCoordinator (Coordinator.close b)).attempt).run
      { l with running := false, closed := true } =
        ⟨.ok ((Coordinator.close b).run l.coordinator).result, l.shut b,
          ((Coordinator.close b).run l.coordinator).log⟩ := rfl
  rw [run_close_open hopen, run_bind_of_ok hclosed, ← hanswer, ← hsettled]
  rcases hlast : (acknowledgeLast b).run (l.shut b) with ⟨f | x, l', log⟩
  · rw [run_bind_of_error hlast]
    exact ⟨rfl, rfl⟩
  · rw [run_bind_of_ok hlast]
    exact ⟨rfl, rfl⟩

/-! ## Once a loop is closed -/

theorem run_advance_stopped (h : l.running = false) (clock : Readings) (timeout : Double) :
    (advance p b clock timeout).run l = ⟨.ok false, l, []⟩ := by
  rw [advance, run_bind_of_ok (run_get l), h]
  rfl

theorem run_close_again (hstopped : l.running = false) (hclosed : l.closed = true) :
    (close b).run l = ⟨.ok (), l, []⟩ := by
  have hstop : l.stop = l := by
    unfold stop
    rw [← hstopped]
  rw [close, run_bind_of_ok (run_modify _ _), run_bind_of_ok (run_get _), hstop, hclosed]
  rfl

theorem after_stopped (events : List Event) (h : l.running = false) :
    after p b events l = { l with queue := l.queue ++ records events } := by
  induction events generalizing l with
  | nil => exact congrArg (fun q => { l with queue := q }) (List.append_nil _).symm
  | cons e events ih =>
    cases e with
    | put r =>
      rw [after, ih (by exact h)]
      simp [apply, records]
    | iterate clock timeout =>
      have hsame : l.apply p b (.iterate clock timeout) = l :=
        congrArg Effect.state (run_advance_stopped h clock timeout)
      rw [after, hsame, ih h]
      rfl

/-- A loop that has come to its end: whatever happens to it afterwards, it only lets the queue grow,
and neither an iteration nor closing it again does anything. -/
structure IsOver (p : Plan) (b : Backend W S) (l : Loop W S) : Prop where
  stopped : l.running = false
  released : l.coordinator.writer = none
  idle : ∀ events, let l' := after p b events l
    l' = { l with queue := l.queue ++ records events } ∧
      (close b).run l' = ⟨.ok (), l', []⟩ ∧
      ∀ clock timeout, (advance p b clock timeout).run l' = ⟨.ok false, l', []⟩

theorem isOver_of_closed (hstopped : l.running = false) (hclosed : l.closed = true)
    (hreleased : l.coordinator.writer = none) : l.IsOver p b where
  stopped := hstopped
  released := hreleased
  idle events := by
    intro l'
    have hl' : l' = { l with queue := l.queue ++ records events } := after_stopped events hstopped
    have hstopped' : l'.running = false := by rw [hl']; exact hstopped
    have hclosed' : l'.closed = true := by rw [hl']; exact hclosed
    exact ⟨hl', run_close_again hstopped' hclosed', run_advance_stopped hstopped'⟩

theorem close_isOver (hopen : l.closed = false) : (((close b).run l).state).IsOver p b := by
  rw [(run_close hopen).2]
  refine isOver_of_closed settleLast_running settleLast_closed ?_
  rw [settleLast_writer]
  exact Coordinator.close_writer

end Closing

/-! ## What a loop asks its writers for when it is closed -/

section Traced

variable {W S : Type} {b : Backend W S} {l : Loop (Nat × W) (Trace × S)}

theorem close_mirrors {W' S' : Type} {w : W → W'} {s : S → S'} {b' : Backend W' S'}
    (hb : b.Mirrors w s b') : (close b).Mirrors (map w s) id (close b') := by
  refine Mirrors.bind (mirrors_modify fun _ => rfl) fun _ => Mirrors.bind mirrors_get fun l =>
    mirrors_ite (mirrors_pure rfl) (Mirrors.bind (mirrors_modify fun _ => rfl) fun _ => ?_)
  have hclose : (onCoordinator (Coordinator.close b)).Mirrors (map w s) id
      (onCoordinator (Coordinator.close b')) :=
    onCoordinator_mirrors (q := id) (x := id) (Coordinator.close_mirrors hb)
  have hlast : (acknowledgeLast b).Mirrors (map w s) id (acknowledgeLast b') :=
    acknowledgeLast_mirrors (q := id) (x := id) hb
  refine Mirrors.bind hclose.attempt fun result => Mirrors.bind hlast fun _ => ?_
  rw [Except.map_id]
  exact mirrors_lift result

/-- Closing a loop calls its open writer once, to close it, and whoever waits for the last record. -/
theorem close_trace (hopen : l.closed = false) :
    ((close b.tracing).run l).state.trace = l.trace ++
      (l.coordinator.writer.map fun w =>
        Call.close w.1 (b.close.run (w.2, l.coordinator.world.2)).result).toList ++
      (l.unsettled.map fun r =>
        Call.acknowledge r
          ((b.acknowledge r).run (l.shut b.tracing).coordinator.world.2).result).toList := by
  have hshut : (l.shut b.tracing).trace = l.trace ++ (l.coordinator.writer.map fun w =>
      Call.close w.1 (b.close.run (w.2, l.coordinator.world.2)).result).toList := by
    show ((Coordinator.close b.tracing).run l.coordinator).state.trace = _
    cases hw : l.coordinator.writer with
    | none =>
      rw [Coordinator.run_close_none hw]
      exact (List.append_nil _).symm
    | some w =>
      rw [Coordinator.run_close_some hw]
      rfl
  rw [(run_close hopen).2, ← hshut]
  have hsame : (l.shut b.tracing).unsettled = l.unsettled := rfl
  unfold settleLast
  rw [hsame]
  cases l.unsettled with
  | none => exact (List.append_nil _).symm
  | some r => rfl

/-- The calls of writers leave open the one that the loop holds. -/
def leavesAccounts (b : Backend W S) : b.tracing.Accounts where
  Opened w s _ := s.1.Leaves (some w.1)
  Closed s _ := s.1.Leaves none
  create_ends {s k} schema h _ := by
    rw [Backend.ends_tracing_create]
    exact Ends.of_forall (fun _ _ => h.create schema) fun _ _ => h.call h.allClosed rfl rfl
  updateSchema_ends {w s k} schema h := by
    have hlast := h.last w.1 rfl
    show (Backend.tracedCall (fun n => .updateSchema n schema) (b.updateSchema schema)).Ends
      (w, s) _ _
    refine Backend.ends_tracedCall.mpr ?_
    exact Ends.of_forall (fun _ _ => h.call hlast rfl rfl) fun _ _ => h.call hlast rfl rfl
  write_ends {w s k} r row h := by
    have hlast := h.last w.1 rfl
    show (Backend.tracedCall (fun n => .write n row) (b.write row)).Ends (w, s) _ _
    refine Backend.ends_tracedCall.mpr ?_
    exact Ends.of_forall (fun _ _ => h.call hlast rfl rfl) fun _ _ => h.call hlast rfl rfl
  flush_ends {w s k} h _ := by
    have hlast := h.last w.1 rfl
    refine Backend.ends_tracedCall.mpr ?_
    exact Ends.of_forall (fun _ _ => h.call hlast rfl rfl) fun _ _ => h.call hlast rfl rfl
  close_ends {w s k} h _ := by
    refine Backend.ends_tracedCall.mpr ?_
    exact Ends.of_forall (fun _ _ => h.close _) fun _ _ => h.close _
  acknowledge_ends {w s k r} h _ _ := by
    refine Backend.ends_traced.mpr ?_
    exact Ends.of_forall (fun _ _ => h.call trivial rfl rfl) fun _ _ => h.call trivial rfl rfl

variable {k : Books}

/-- Once a loop is closed, each writer that was ever opened has been closed, and only once. -/
theorem close_leaves (h : l.Consistent (leavesAccounts b) k) (hopen : l.closed = false) :
    ((close b.tracing).run l).state.trace.Leaves none := by
  have hshut : Trace.Leaves (l.trace ++ (l.coordinator.writer.map fun w =>
      Call.close w.1 (b.close.run (w.2, l.coordinator.world.2)).result).toList) none := by
    cases hw : l.coordinator.writer with
    | none =>
      rw [Option.map_none, Option.toList_none, List.append_nil]
      exact (h.booked.coordinator.closed hw).1
    | some w => exact Trace.Leaves.close (h.booked.coordinator.opened hw) _
  rw [close_trace hopen]
  cases l.unsettled with
  | none =>
    rw [Option.map_none, Option.toList_none, List.append_nil]
    exact hshut
  | some r => exact hshut.call trivial rfl rfl

end Traced

end Loop
end StreamTable
