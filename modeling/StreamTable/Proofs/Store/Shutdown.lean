/-
Closing a loop over a table, from whatever state it has come to.  The loop may be fresh, be running,
or have been stopped by any failure, also one of whoever waits for a record to be acknowledged.  The
rows that are missing from the table then are those of the buffer that the closing writer could not
commit.
-/
import StreamTable.Proofs.Store.Closing

namespace StreamTable

open StreamTable.Action

namespace Backend

variable {W S : Type}

/-- The same table writers, with somebody who waits for the records and may fail. -/
def answering (b : Backend W S) (ack : Record → Except Failure Unit) : Backend W S :=
  { b with acknowledge := fun r => lift (ack r) }

/-- What the writers of a table leave in it does not depend on who waits for the records. -/
def Accounts.answering {b : Backend W S} (A : b.Accounts)
    (hb : ∀ r, b.acknowledge r = Pure.pure ()) (ack : Record → Except Failure Unit) :
    (b.answering ack).Accounts where
  Opened := A.Opened
  Closed := A.Closed
  create_ends := A.create_ends
  updateSchema_ends := A.updateSchema_ends
  write_ends := A.write_ends
  flush_ends := A.flush_ends
  close_ends := A.close_ends
  acknowledge_ends {w s k r} h hp hl := by
    have hacknowledged := A.acknowledge_ends h hp hl
    rw [hb, ends_pure] at hacknowledged
    exact (ends_lift (ack r)).mpr ⟨fun _ _ => hacknowledged, fun _ _ => hacknowledged⟩

end Backend

namespace Loop

variable {W S : Type} {b : Backend W S} {ack : Record → Except Failure Unit} {l : Loop W S}

theorem answer_answering (l : Loop W S) :
    l.answer (b.answering ack) = l.unsettled.elim (.ok ()) ack := by
  unfold answer
  cases l.unsettled with
  | none => rfl
  | some r => rfl

/-- Who waits for the records has no part in what closing a loop leaves in the world. -/
theorem settleLast_world :
    (l.settleLast (b.answering ack)).coordinator.world = l.coordinator.world := by
  unfold settleLast
  cases l.unsettled with
  | none => rfl
  | some r => rfl

end Loop

namespace Store

namespace Writer

/-- The rows that a writer gives up when it is closed: all that it has, unless its last flush is
done. -/
def unsaved (w : Writer) (d : Disk) : List Value :=
  match (flush.run (w, d)).result with
  | .ok true => []
  | _ => w.buffer

end Writer

section Closing

variable {t : Table} {codec : Value} {d₀ d : Disk} {w : Writer} {k : Books}

/-- What a flush leaves in the buffer is what the table misses then. -/
theorem flush_leaves (h : Holds t codec d₀ w d k) :
    Writer.flush.Ends (w, d)
      (fun done x => ∃ k', Delivers t codec d₀ x.2 k' ∧
        k'.committed.map Prod.snd ++ (if done then [] else w.buffer) = k.rows.map Prod.snd)
      (fun _ x => ∃ k', Delivers t codec d₀ x.2 k' ∧
        k'.committed.map Prod.snd ++ w.buffer = k.rows.map Prod.snd) := by
  have hkept : k.committed.map Prod.snd ++ w.buffer = k.rows.map Prod.snd := by
    rw [h.buffer, ← List.map_append]
    rfl
  by_cases hp : k.pending = []
  · have hbuffer : w.buffer = [] := by
      rw [h.buffer, hp]
      rfl
    rw [hbuffer] at hkept
    exact (Writer.flush_ends_of_empty hbuffer).mpr ⟨k, h.delivers, hkept⟩
  · refine (flush_ends h hp).mono (fun done x hx => ?_) fun _ x hx => ⟨k, hx.delivers, hkept⟩
    cases done with
    | true => exact ⟨k.commit, hx.delivers, by simp [Books.rows, Books.commit]⟩
    | false => exact ⟨k, hx.delivers, hkept⟩

/-- The rows that the table misses once a writer is closed are those it gives up, whether or not
closing it goes well. -/
theorem close_leaves_unsaved (h : Holds t codec d₀ w d k) (hopen : w.closed = false) :
    ∃ k', Delivers t codec d₀ (Writer.close.run (w, d)).state.2 k' ∧
      k'.committed.map Prod.snd ++ w.unsaved d = k.rows.map Prod.snd := by
  have hstate := (Writer.close_state w d).2
  rw [hopen, if_neg Bool.false_ne_true] at hstate
  have hflush := flush_leaves h
  unfold Ends at hflush
  rw [hstate]
  unfold Writer.unsaved
  cases hresult : (Writer.flush.run (w, d)).result with
  | error f =>
    rw [hresult] at hflush
    exact hflush
  | ok done =>
    rw [hresult] at hflush
    cases done with
    | true => exact hflush
    | false => exact hflush

/-- The same for a loop, which may hold no writer. -/
theorem shut_leaves_unsaved {storage : List (Value × Value)} (ht : tableOf storage = .ok t)
    (hs : t.IsStraight) {ack : Record → Except Failure Unit} {l : Loop Writer Disk}
    (h : l.Consistent ((accounts storage ht hs d₀).answering (fun _ => rfl) ack) k)
    {k₁ : Books} (hopen : l.Consistent ((openAccounts storage).answering (fun _ => rfl) ack) k₁) :
    ∃ k', Delivers t (settingOr storage "codec" "null") d₀
        (l.shut ((backend storage).answering ack)).coordinator.world k' ∧
      k'.committed.map Prod.snd ++
        l.coordinator.writer.elim [] (fun w => w.unsaved l.coordinator.world) =
          k.rows.map Prod.snd := by
  unfold Loop.shut
  dsimp only
  cases hw : l.coordinator.writer with
  | none =>
    obtain ⟨hdelivers, hpending⟩ := h.booked.coordinator.closed hw
    rw [Coordinator.run_close_none hw]
    exact ⟨k, hdelivers, by simp [Books.rows, hpending]⟩
  | some w =>
    rw [Coordinator.run_close_some hw]
    exact close_leaves_unsaved (h.booked.coordinator.opened hw) (hopen.booked.coordinator.opened hw)

end Closing

/-- The first time that a loop is closed, whatever has become of it, is the end of it.  It is
stopped and holds no writer; its open writer was closed, once, and then whoever waits for the last
record that was written was told, unless that was done before, also if closing the writer failed; and
that failure is what closing the loop comes to, unless whoever waits fails.  Nothing comes of the
loop afterwards.  The rows of the run that the table misses are those in the buffer of the open
writer if the flush that closes it was not done, and none otherwise. -/
theorem closed_from_any_state (storage : List (Value × Value)) (t : Table)
    (ht : tableOf storage = .ok t) (hs : t.IsStraight) (ack : Record → Except Failure Unit)
    (p : Plan) (events : List Loop.Event) (d₀ : Disk) (now : Double) :
    let b := (backend storage).answering ack
    let l := Loop.after p b events (Loop.start d₀ now)
    let traced := Loop.after p b.tracing events (Loop.start ([], d₀) now)
    let e := (Loop.close b).run l
    let e' := (Loop.close b.tracing).run traced
    let closing (w : Writer) := (Writer.close.run (w, l.coordinator.world)).result
    let unsaved (w : Writer) := w.unsaved l.coordinator.world
    let written := Loop.delivered p b events (Loop.start d₀ now)
    -- the calls that are traced are those of the same run
    traced.map Prod.snd Prod.snd = l ∧ e'.state.map Prod.snd Prod.snd = e.state ∧
      e.state.IsOver p b ∧ e'.state.IsOver p b.tracing ∧
      e.result = (l.unsettled.elim (.ok ()) ack >>= fun _ =>
        l.coordinator.writer.elim (.ok ()) closing) ∧
      e.state.last = written.getLast?.map (fun x => ⟨x.1, true⟩) ∧
      e.state.acknowledged = l.acknowledged ++ l.unsettled.toList.map Record.id ∧
      e'.state.trace = traced.trace ++
        (traced.coordinator.writer.map fun w => Call.close w.1 (closing w.2)).toList ++
        (l.unsettled.map fun r => Call.acknowledge r (ack r)).toList ∧
      e'.state.trace.closed.Nodup ∧ e'.state.trace.AllClosed ∧
      ∃ commits : List Commit,
        t.versions e.state.coordinator.world =
          (t.versions d₀).map (· ++ commits.map Commit.entry) ∧
        (∀ c ∈ commits, c.OnDisk t (settingOr storage "codec" "null") e.state.coordinator.world) ∧
        (commits.map Commit.rows).flatten ++ l.coordinator.writer.elim [] unsaved =
          written.map Prod.snd := by
  intro b l traced e e' closing unsaved written
  have hmap : traced.map Prod.snd Prod.snd = l := Loop.map_after b.tracing_mirrors events _
  have hopen : l.closed = false := Loop.after_closed events _
  have hopen' : traced.closed = false := Loop.after_closed events _
  obtain ⟨hresult, hstate⟩ : e.result = _ ∧ e.state = _ := Loop.run_close hopen
  have hclosing : ((Coordinator.close b).run l.coordinator).result =
      l.coordinator.writer.elim (.ok ()) closing := Coordinator.close_outcome
  -- the books of the table say which rows were written, those of the trace which calls were made
  have hstart : (Loop.start d₀ now).Consistent
      ((accounts storage ht hs d₀).answering (fun _ => rfl) ack) .empty :=
    Loop.start_consistent (delivers_start t _ d₀)
  obtain ⟨k, hk, hrows⟩ := Loop.after_consistent (p := p) events hstart
  have hopening : (Loop.start d₀ now).Consistent
      ((openAccounts storage).answering (fun _ => rfl) ack) .empty := Loop.start_consistent trivial
  obtain ⟨k₁, hk₁, -⟩ := Loop.after_consistent (p := p) events hopening
  have hquiet : (Loop.start ([], d₀) now).Consistent (Loop.leavesAccounts b) .empty :=
    Loop.start_consistent Trace.leaves_nil
  obtain ⟨k₂, hk₂, -⟩ := Loop.after_consistent (p := p) events hquiet
  have hleaves : e'.state.trace.Leaves none := Loop.close_leaves hk₂ hopen'
  refine ⟨hmap, ?_, Loop.close_isOver hopen, Loop.close_isOver hopen', ?_, ?_, ?_, ?_,
    hleaves.once, hleaves.allClosed, ?_⟩
  · have hclose := congrArg Effect.state (Loop.close_mirrors b.tracing_mirrors traced)
    rw [hmap] at hclose
    exact hclose.symm
  · rw [hresult, hclosing, Loop.answer_answering]
    rfl
  · have hlast : l.last.map Delivery.record = (written.getLast?.map Prod.fst).or none :=
      Loop.after_last events hstart
    rw [Option.or_none] at hlast
    rw [hstate, Loop.settleLast_last]
    show l.last.map ((fun r => (⟨r, true⟩ : Delivery)) ∘ Delivery.record) = _
    rw [← Option.map_map, hlast, Option.map_map]
    rfl
  · rw [hstate, Loop.settleLast_acknowledged]
    rfl
  · have hworld : l.coordinator.world = traced.coordinator.world.2 :=
      congrArg (fun l => l.coordinator.world) hmap.symm
    have hunsettled : l.unsettled = traced.unsettled := congrArg Loop.unsettled hmap.symm
    have hsame : closing = fun w => (Writer.close.run (w, traced.coordinator.world.2)).result :=
      funext fun w => congrArg (fun d => (Writer.close.run (w, d)).result) hworld
    rw [Loop.close_trace hopen', hunsettled, hsame]
    rfl
  · obtain ⟨k', ⟨commits, hgrown, hcommitted, -⟩, hall⟩ := shut_leaves_unsaved ht hs hk hk₁
    rw [hstate, Loop.settleLast_world]
    refine ⟨commits, hgrown.listed, hgrown.onDisk, ?_⟩
    rw [hcommitted, hall, hrows]
    rfl

/-- A loop that is closed while a row waits for its commit has this row in the table. -/
theorem order_saved_at_last : ∃ t p, tableOf ordersStorage = .ok t ∧ t.IsStraight ∧
    Plan.ofSettings .default = .ok p ∧
    let b := (backend ordersStorage).answering fun _ => .ok ()
    let l := Loop.after p b [.put order, .iterate (.still .zero) .zero] (Loop.start .empty .zero)
    let e := (Loop.close b).run l
    l.coordinator.totals.commits = 0 ∧ e.result = .ok () ∧ e.state.IsOver p b ∧
      e.state.last = some ⟨order, true⟩ ∧
      ∃ commits : List Commit,
        (∀ c ∈ commits,
          c.OnDisk t (settingOr ordersStorage "codec" "null") e.state.coordinator.world) ∧
        (commits.map Commit.rows).flatten.length = 1 := by
  have hrun : Except.passes (fun t => decide t.IsStraight && Except.passes (fun p =>
      let b := (backend ordersStorage).answering fun _ => .ok ()
      let l := Loop.after p b [.put order, .iterate (.still .zero) .zero] (Loop.start .empty .zero)
      let written := Loop.delivered p b [.put order, .iterate (.still .zero) .zero]
        (Loop.start .empty .zero)
      l.coordinator.totals.commits == 0 && written.length == 1 &&
        (l.coordinator.writer.elim [] fun w => w.unsaved l.coordinator.world).isEmpty &&
        Except.passes (fun _ => true) (l.coordinator.writer.elim (.ok ()) fun w =>
          (Writer.close.run (w, l.coordinator.world)).result))
      (Plan.ofSettings .default)) (tableOf ordersStorage) = true := by
    decide +kernel
  obtain ⟨t, ht, hrun⟩ := Except.of_passes hrun
  obtain ⟨hs, hrun⟩ := Bool.and_eq_true_iff.mp hrun
  replace hs : t.IsStraight := of_decide_eq_true hs
  obtain ⟨p, hp, hrun⟩ := Except.of_passes hrun
  simp only [Bool.and_eq_true, beq_iff_eq, List.isEmpty_iff] at hrun
  obtain ⟨⟨⟨hcommits, hlength⟩, hunsaved⟩, hclosing⟩ := hrun
  obtain ⟨_, hclosing, -⟩ := Except.of_passes hclosing
  obtain ⟨-, -, hover, -, hresult, hlast, -, -, -, -, commits, -, honDisk, hrows⟩ :=
    closed_from_any_state ordersStorage t ht hs (fun _ => .ok ()) p
      [.put order, .iterate (.still .zero) .zero] .empty .zero
  have hwritten := (Loop.delivered_sublist (p := p)
    (b := (backend ordersStorage).answering fun _ => .ok ())
    [.put order, .iterate (.still .zero) .zero] (Loop.start .empty .zero)).eq_of_length
      ((List.length_map _).trans hlength)
  refine ⟨t, p, ht, hs, hp, hcommits, ?_, hover, ?_, commits, honDisk, ?_⟩
  · rw [hresult, hclosing]
    cases (Loop.after p _ _ _).unsettled <;> rfl
  · have hlatest := congrArg List.getLast? hwritten
    rw [List.getLast?_map] at hlatest
    rw [hlast]
    show Option.map ((fun r => (⟨r, true⟩ : Delivery)) ∘ Prod.fst) _ = _
    rw [← Option.map_map, hlatest]
    rfl
  · rw [hunsaved, List.append_nil] at hrows
    rw [hrows, List.length_map, hlength]

end Store
end StreamTable
