/-
The end of a run.  Rows that are still pending when a loop is closed are committed by the closing
writer; if that commit is not done, the rows are given up and the log says so.  So what a run that
was closed has lost are the rows of its last buffer, or none.
-/
import StreamTable.Proofs.Sink.Shutdown
import StreamTable.Proofs.Store.Chronicle
import StreamTable.Proofs.Store.Deliveries

namespace StreamTable

open StreamTable.Action

namespace Loop

variable {W S : Type} {b : Backend W S} {l : Loop W S}

theorem acknowledgeLast_world (hb : ∀ r, (b.acknowledge r).Preserves id) :
    (acknowledgeLast b).Preserves fun l : Loop W S => l.coordinator.world := by
  refine Preserves.bind preserves_get fun l => ?_
  cases l.last with
  | none => exact preserves_pure ()
  | some d =>
    refine preserves_ite (preserves_pure ()) ?_
    exact Preserves.bind (preserves_modify fun _ => rfl) fun _ l' =>
      hb d.record l'.coordinator.world

/-- Closing a loop closes its open writer; if that goes well, so does closing the loop. -/
theorem close_ok (hb : ∀ r, (b.acknowledge r).Preserves id) (hopen : l.closed = false)
    (h : ((close b).run l).result = .ok ()) :
    match l.coordinator.writer with
    | none => ((close b).run l).state.coordinator.world = l.coordinator.world
    | some w =>
      let closing := b.close.run (w, l.coordinator.world)
      closing.result = .ok () ∧ ((close b).run l).state.coordinator.world = closing.state.2 ∧
        ∀ e ∈ closing.log, e ∈ ((close b).run l).log := by
  rw [run_close_open hopen] at h ⊢
  obtain ⟨result, hresult, h, hattempt⟩ := ok_of_bind h
  obtain ⟨-, -, h, hlast⟩ := ok_of_bind h
  have hworld := acknowledgeLast_world hb
  have hok : ((Coordinator.close b).run l.coordinator).result = .ok () :=
    (Except.ok.inj hresult).trans h
  rw [hattempt, hlast]
  cases hw : l.coordinator.writer with
  | none =>
    refine (hworld _).trans ?_
    show ((Coordinator.close b).run l.coordinator).state.world = _
    rw [Coordinator.run_close_none hw]
  | some w =>
    rw [Coordinator.run_close_some hw] at hok
    refine ⟨hok, (hworld _).trans ?_, fun e he => List.mem_append_left _ ?_⟩
    · show ((Coordinator.close b).run l.coordinator).state.world = _
      rw [Coordinator.run_close_some hw]
    · show e ∈ ((Coordinator.close b).run l.coordinator).log
      rw [Coordinator.run_close_some hw]
      exact List.mem_cons_of_mem _ he

end Loop

namespace Store

/-! ## Closing a writer -/

/-- What is logged when rows of a table are given up. -/
def givesUp (t : Table) (rows : Nat) : Log.Entry :=
  .plain .error ("Discarding " ++ toString rows ++ " uncommitted rows of " ++ t.name)

namespace Writer

variable {w : Writer} {d : Disk}

/-- Closing a writer goes well just if its last commit comes to an answer, and rows that are not
committed by it are given up. -/
theorem close_ok (hopen : w.closed = false) (h : (close.run (w, d)).result = .ok ()) :
    ∃ done, (flush.run (w, d)).result = .ok done ∧
      (close.run (w, d)).state.2 = (flush.run (w, d)).state.2 ∧
      (done = false → givesUp w.table w.buffer.length ∈ (close.run (w, d)).log) := by
  have hstate := (close_state w d).2
  rw [hopen, if_neg Bool.false_ne_true] at hstate
  have hrun : close.run (w, d) = _ := run_bind_of_ok (run_get (w, d))
  dsimp only at hrun
  rw [hopen, if_neg Bool.false_ne_true] at hrun
  rw [hrun] at h
  obtain ⟨done, hdone, -, hrest⟩ := ok_of_bind h
  refine ⟨done, hdone, hstate, fun hnot => ?_⟩
  rw [hrun, hrest, hnot]
  exact List.mem_append_right _ (List.mem_append_right _ List.mem_cons_self)

end Writer

/-! ## Closing a loop -/

/-- The writer that a loop holds is never a closed one. -/
def openAccounts (storage : List (Value × Value)) : (backend storage).Accounts where
  Opened w _ _ := w.closed = false
  Closed _ _ := True
  create_ends schema _ _ := by
    simp only [backend, createBySettings]
    rw [ends_ite]
    refine ⟨fun _ => ?_, fun _ => trivial⟩
    rw [ends_bind, ends_lift]
    exact ⟨fun t _ => (Writer.create_ends t _ schema _).mono (fun _ _ hw => hw.2.2.2.1)
      fun _ _ _ => trivial, fun _ _ => trivial⟩
  updateSchema_ends {w d k} schema h := by
    simp only [backend, Writer.updateSchema, ends_bind, ends_get]
    rw [ends_lift]
    exact ⟨fun _ _ => h, fun _ _ => h⟩
  write_ends {w d k} r row h := by
    refine (Writer.write_ends row w d).mono (fun _ x hx => ?_) fun _ x hx => ?_
    · rw [hx]
      exact h
    · rw [hx]
      exact h
  flush_ends {w d k} h _ :=
    (Writer.flush_writer.ends (w, d)).mono
      (fun _ _ hx => (congrArg Writer.closed hx).trans h)
      fun _ _ hx => (congrArg Writer.closed hx).trans h
  close_ends _ _ := Ends.of_forall (fun _ _ => trivial) fun _ _ => trivial
  acknowledge_ends h _ _ := h

/-- A loop holds rows that its writer cannot commit any more: a commit of them is not done. -/
def IsStranded (l : Loop Writer Disk) : Prop :=
  ∃ w, l.coordinator.writer = some w ∧
    (Writer.flush.run (w, l.coordinator.world)).result = .ok false

section Closing

variable {t : Table} {codec : Value} {d₀ d : Disk} {w : Writer} {k : Books}

/-- What a closing writer does not commit it gives up, and that is all that can be missing then. -/
theorem close_delivers (h : Holds t codec d₀ w d k) (hopen : w.closed = false)
    (hok : (Writer.close.run (w, d)).result = .ok ()) :
    ∃ k' lost, Delivers t codec d₀ (Writer.close.run (w, d)).state.2 k' ∧
      k'.committed.map Prod.snd ++ lost = k.rows.map Prod.snd ∧
      (lost = [] ↔ (Writer.flush.run (w, d)).result ≠ .ok false) ∧
      (lost ≠ [] → givesUp t lost.length ∈ (Writer.close.run (w, d)).log) := by
  obtain ⟨done, hdone, hstate, hlog⟩ := Writer.close_ok hopen hok
  rw [hstate, hdone]
  by_cases hp : k.pending = []
  · have hbuffer : w.buffer = [] := by
      rw [h.buffer, hp]
      rfl
    have hflush : Writer.flush.run (w, d) = ⟨.ok true, (w, d), []⟩ := by
      rw [Writer.flush, run_bind_of_ok (run_get _)]
      dsimp only
      rw [hbuffer]
      rfl
    rw [hflush] at hdone ⊢
    obtain rfl : true = done := Except.ok.inj hdone
    exact ⟨k, [], h.delivers, by simp [Books.rows, hp], by simp, by simp⟩
  · have hends := (flush_ends h hp).ok hdone
    cases done with
    | true =>
      exact ⟨k.commit, [], hends.delivers, by simp [Books.rows, Books.commit], by simp, by simp⟩
    | false =>
      refine ⟨k, w.buffer, hends.delivers, ?_, ?_, fun _ => h.table ▸ hlog rfl⟩
      · rw [h.buffer, ← List.map_append]
        rfl
      · simpa [h.buffer] using hp

end Closing

/-- The records counted as written are those whose rows were given to a table writer. -/
theorem written_counted (storage : List (Value × Value)) (p : Plan) (events : List Loop.Event)
    (d₀ : Disk) (now : Double) :
    (Loop.delivered p (backend storage) events (Loop.start d₀ now)).length =
      (Loop.after p (backend storage) events
        (Loop.start d₀ now)).coordinator.totals.written := by
  have hstart : (Loop.start d₀ now).Consistent (openAccounts storage) .empty :=
    Loop.start_consistent trivial
  obtain ⟨k, hk, hrows⟩ := Loop.after_consistent (p := p) events hstart
  replace hrows : k.rows = Loop.delivered p (backend storage) events (Loop.start d₀ now) := hrows
  rw [← hrows]
  exact hk.booked.written.symm

/-- A loop that is closed without a failure has all its rows in the table, in order, but for those
that it gave up: the rows in its last buffer, if a commit of them was not done.  Whether it gave any
up is in the log. -/
theorem closed_loop_delivers (storage : List (Value × Value)) (t : Table)
    (ht : tableOf storage = .ok t) (hs : t.IsStraight) (p : Plan) (events : List Loop.Event)
    (d₀ : Disk) (now : Double) (h : ((Loop.close (backend storage)).run
      (Loop.after p (backend storage) events (Loop.start d₀ now))).result = .ok ()) :
    let l := Loop.after p (backend storage) events (Loop.start d₀ now)
    let e := (Loop.close (backend storage)).run l
    let d := e.state.coordinator.world
    let written := Loop.delivered p (backend storage) events (Loop.start d₀ now)
    ∃ (commits : List Commit) (lost : List Value),
      t.versions d = (t.versions d₀).map (· ++ commits.map Commit.entry) ∧
      (∀ c ∈ commits, c.OnDisk t (settingOr storage "codec" "null") d) ∧
      (commits.map Commit.rows).flatten ++ lost = written.map Prod.snd ∧
      (lost = [] ↔ ¬IsStranded l) ∧
      (lost ≠ [] → givesUp t lost.length ∈ e.log) := by
  intro l e d written
  have hstart : (Loop.start d₀ now).Consistent (accounts storage ht hs d₀) .empty :=
    Loop.start_consistent (delivers_start t _ d₀)
  have hopen : (Loop.start d₀ now).Consistent (openAccounts storage) .empty :=
    Loop.start_consistent trivial
  obtain ⟨k, hk, hrows⟩ := Loop.after_consistent (p := p) events hstart
  obtain ⟨k₁, hk₁, -⟩ := Loop.after_consistent (p := p) events hopen
  replace hk : l.Consistent (accounts storage ht hs d₀) k := hk
  replace hrows : k.rows = written := hrows
  have hclose := Loop.close_ok (fun _ => preserves_pure ()) (Loop.after_closed events _) h
  -- Either way the books at the end, and what is missing in them, say it all.
  have hends : ∃ k' lost, Delivers t (settingOr storage "codec" "null") d₀ d k' ∧
      k'.committed.map Prod.snd ++ lost = k.rows.map Prod.snd ∧ (lost = [] ↔ ¬IsStranded l) ∧
      (lost ≠ [] → givesUp t lost.length ∈ e.log) := by
    cases hw : l.coordinator.writer with
    | none =>
      rw [hw] at hclose
      obtain ⟨hdelivers, hpending⟩ := hk.booked.coordinator.closed hw
      refine ⟨k, [], ?_, by simp [Books.rows, hpending], by simp [IsStranded, hw], by simp⟩
      rw [show d = _ from hclose]
      exact hdelivers
    | some w =>
      rw [hw] at hclose
      obtain ⟨hok, hworld, hlog⟩ := hclose
      obtain ⟨k', lost, hdelivers, hall, hlost, hgives⟩ := close_delivers
        (hk.booked.coordinator.opened hw) (hk₁.booked.coordinator.opened hw) hok
      refine ⟨k', lost, ?_, hall, ?_, fun hne => hlog _ (hgives hne)⟩
      · rw [show d = _ from hworld]
        exact hdelivers
      · rw [hlost]
        simp [IsStranded, hw]
  obtain ⟨k', lost, ⟨commits, hgrown, hcommitted, -⟩, hall, hlost, hlog⟩ := hends
  refine ⟨commits, lost, hgrown.listed, hgrown.onDisk, ?_, hlost, hlog⟩
  rw [hcommitted, hall, hrows]

end Store
end StreamTable
