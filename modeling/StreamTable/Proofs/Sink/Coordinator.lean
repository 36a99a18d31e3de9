/-
The coordinator keeps the books.  Whatever a table writer answers, and wherever a call of it fails,
the rows that the open writer holds and those that were committed are known: opening, replacing and
closing a writer changes neither, and a replaced writer has nothing pending when it is closed.
-/
import StreamTable.Proofs.Table.Books
import StreamTable.Sink.Coordinator

namespace StreamTable
namespace Coordinator

open StreamTable.Action

variable {W S : Type} {b : Backend W S} {c : Coordinator W S} {k : Books}

/-- The books agree with the open writer, or with there being none. -/
def Agrees (A : b.Accounts) (c : Coordinator W S) (k : Books) : Prop :=
  match c.writer with
  | some w => A.Opened w c.world k
  | none => A.Closed c.world k ∧ k.pending = []

structure Booked (A : b.Accounts) (c : Coordinator W S) (k : Books) : Prop where
  agrees : c.Agrees A k
  commits : c.totals.commits = k.commits

/-- The counts of records, which only the loop changes. -/
def tally (c : Coordinator W S) : Nat × Nat × Nat × Nat :=
  (c.totals.written, c.totals.dropped, c.totals.skipped, c.totals.schemaChanges)

variable {A : b.Accounts}

theorem Booked.opened {w : W} (h : c.Booked A k) (hw : c.writer = some w) :
    A.Opened w c.world k := by
  have := h.agrees
  rwa [Agrees, hw] at this

theorem Booked.closed (h : c.Booked A k) (hw : c.writer = none) :
    A.Closed c.world k ∧ k.pending = [] := by
  have := h.agrees
  rwa [Agrees, hw] at this

/-- Rows can be pending only while a writer is open. -/
theorem Booked.writer_isSome (h : c.Booked A k) (hp : k.pending ≠ []) : c.writer.isSome := by
  cases hw : c.writer with
  | some w => rfl
  | none => exact absurd (h.closed hw).2 hp

/-! ## Calls of the open writer -/

/-- A call of the open writer changes the books as the call itself does. -/
theorem onWriter_ends {α : Type} {w : W} {call : Action (W × S) α} (done : Books)
    (hdone : done.commits = k.commits) (h : c.Booked A k)
    (hcall : call.Ends (w, c.world) (fun _ t => A.Opened t.1 t.2 done)
      (fun _ t => A.Opened t.1 t.2 k)) :
    (onWriter w call).Ends c
      (fun _ c' => c'.Booked A done ∧ c'.window = c.window ∧ c'.tally = c.tally ∧
        c'.writer.isSome)
      (fun _ c' => c'.Booked A k ∧ c'.window = c.window ∧ c'.tally = c.tally) := by
  rw [onWriter, ends_focus]
  refine hcall.mono (fun _ t ht => ⟨⟨ht, ?_⟩, rfl, rfl, rfl⟩) fun _ t ht => ⟨⟨ht, ?_⟩, rfl, rfl⟩
  · exact h.commits.trans hdone.symm
  · exact h.commits

theorem getOrCreate_ends (schema : Avro.Schema) (h : c.Booked A k) :
    (getOrCreate b schema).Ends c
      (fun w c' => c'.Booked A k ∧ c'.window = c.window ∧ c'.tally = c.tally ∧ c'.writer = some w)
      (fun _ c' => c'.Booked A k ∧ c'.window = c.window ∧ c'.tally = c.tally) := by
  simp only [getOrCreate, ends_bind, ends_get]
  cases hw : c.writer with
  | some w => exact ⟨h, rfl, rfl, hw⟩
  | none =>
    have hc := h.closed hw
    simp only [ends_bind, ends_attempt, ends_focus]
    refine (A.create_ends schema hc.1 hc.2).mono (fun w t ht => ?_) fun f t ht => ?_
    · exact ⟨⟨ht, h.commits⟩, rfl, rfl, rfl⟩
    · refine ⟨⟨?_, h.commits⟩, rfl, rfl⟩
      simp only [Agrees, hw]
      exact ⟨ht, hc.2⟩

/-- A row that is handed over becomes pending; one that is refused changes nothing. -/
theorem write_ends (r : Record) (row : Value) (h : c.Booked A k) :
    (write b row).Ends c
      (fun _ c' => c'.Booked A (k.write r row) ∧ c'.window = c.window ∧ c'.tally = c.tally)
      (fun _ c' => c'.Booked A k ∧ c'.window = c.window ∧ c'.tally = c.tally) := by
  simp only [write, ends_bind, ends_get]
  cases hw : c.writer with
  | none => exact ⟨h, rfl, rfl⟩
  | some w =>
    refine (onWriter_ends (k := k) (k.write r row) rfl h
      (A.write_ends r row (h.opened hw))).mono (fun _ c' hc => ?_) fun _ c' hc => hc
    exact ⟨hc.1, hc.2.1, hc.2.2.1⟩

/-! ## Commits -/

theorem commitDone_ends (hc : c.Agrees A k.commit) (hn : c.totals.commits = k.commits) :
    (commitDone : Action (Coordinator W S) Unit).Ends c
      (fun _ c' => c'.Booked A k.commit ∧ c'.tally = c.tally ∧ c'.window = c.window.clearFailures ∧
        c'.writer = c.writer)
      (fun _ _ => False) := by
  have hend (c' : Coordinator W S) (e : c' = { c with
      window := c.window.clearFailures
      totals := { c.totals with commits := c.totals.commits + 1 } }) :
      c'.Booked A k.commit ∧ c'.tally = c.tally ∧ c'.window = c.window.clearFailures ∧
        c'.writer = c.writer := by
    subst e
    exact ⟨⟨hc, congrArg (· + 1) hn⟩, rfl, rfl, rfl⟩
  simp only [commitDone, say, ends_bind, ends_get]
  by_cases hf : c.window.failures ≠ 0
  · rw [if_pos hf]
    exact hend _ rfl
  · rw [if_neg hf]
    exact hend _ rfl

theorem commitFailed_ends (limit : Value) (h : c.Booked A k) :
    (commitFailed limit).Ends c
      (fun _ c' => c'.Booked A k ∧ c'.tally = c.tally ∧ c'.window = c.window.commitFailed)
      (fun _ c' => c'.Booked A k ∧ c'.tally = c.tally) := by
  simp only [commitFailed, say, ends_bind, ends_modify, ends_get, ends_log]
  have hb : Booked A { c with
      window := c.window.commitFailed
      totals := { c.totals with commitFailures := c.totals.commitFailures + 1 } } k :=
    ⟨h.agrees, h.commits⟩
  rw [ends_lift]
  refine ⟨fun tooMany _ => ?_, fun _ _ => ⟨hb, rfl⟩⟩
  cases tooMany with
  | false => exact ⟨hb, rfl, rfl⟩
  | true => exact ⟨hb, rfl⟩

/-- A commit covers what was pending if it is done, and changes nothing if it is not. -/
theorem flush_ends (limit : Value) (h : c.Booked A k) (hp : k.pending ≠ []) :
    (flush b limit).Ends c
      (fun done c' => c'.Booked A (if done then k.commit else k) ∧ c'.tally = c.tally ∧
        c'.window = (if done then c.window.clearFailures else c.window.commitFailed) ∧
        (done → c'.writer.isSome))
      (fun _ c' => c'.Booked A k ∧ c'.tally = c.tally) := by
  obtain ⟨w, hw⟩ := Option.isSome_iff_exists.mp (h.writer_isSome hp)
  simp only [flush, ends_bind, ends_get, hw, onWriter, ends_focus]
  refine (A.flush_ends (h.opened hw) hp).mono (fun done t ht => ?_) fun f t ht => ?_
  · cases done with
    | true =>
      rw [if_pos rfl] at ht ⊢
      rw [ends_bind]
      refine (commitDone_ends (c := { c with writer := some t.1, world := t.2 }) (k := k) ht
        h.commits).mono (fun _ c' hc => ?_) fun _ _ hc => hc.elim
      exact ⟨hc.1, hc.2.1, hc.2.2.1, fun _ => by simp [hc.2.2.2]⟩
    | false =>
      rw [if_neg Bool.false_ne_true] at ht ⊢
      rw [ends_bind]
      refine (commitFailed_ends (c := { c with writer := some t.1, world := t.2 }) (k := k) limit
        ⟨ht, h.commits⟩).mono (fun _ c' hc => ?_)
        fun _ c' hc => hc
      exact ⟨hc.1, hc.2.1, hc.2.2, fun h => by cases h⟩
  · exact ⟨⟨ht, h.commits⟩, rfl⟩

/-- Repeated attempts end well only with everything committed. -/
theorem flushUntilDone_ends (limit : Value) (hp : k.pending ≠ []) :
    ∀ (tries : Nat) (c : Coordinator W S), c.Booked A k →
      (flushUntilDone b limit tries).Ends c
        (fun _ c' => c'.Booked A k.commit ∧ c'.tally = c.tally)
        (fun _ c' => c'.Booked A k ∧ c'.tally = c.tally) := by
  intro tries
  induction tries with
  | zero => exact fun c h => ⟨h, rfl⟩
  | succ tries ih =>
    intro c h
    simp only [flushUntilDone, ends_bind]
    refine (flush_ends limit h hp).mono (fun done c' hc => ?_) fun _ c' hc => hc
    cases done with
    | true => exact ⟨hc.1, hc.2.1⟩
    | false =>
      refine (ih c' hc.1).mono (fun _ c'' hd => ?_) fun _ c'' hd => ?_
      · exact ⟨hd.1, hd.2.trans hc.2.1⟩
      · exact ⟨hd.1, hd.2.trans hc.2.1⟩

/-! ## Closing and replacing the writer -/

theorem close_ends (h : c.Booked A k) (hp : k.pending = []) :
    (close b).Ends c
      (fun _ c' => c'.Booked A k ∧ c'.tally = c.tally)
      (fun _ c' => c'.Booked A k ∧ c'.tally = c.tally) := by
  simp only [close, ends_bind, ends_get]
  cases hw : c.writer with
  | none => exact ⟨h, rfl⟩
  | some w =>
    simp only [say, ends_bind, ends_modify, ends_log, ends_focus]
    refine (A.close_ends (h.opened hw) hp).mono (fun _ t ht => ?_) fun _ t ht => ?_
    · exact ⟨⟨⟨ht, hp⟩, h.commits⟩, rfl⟩
    · exact ⟨⟨⟨ht, hp⟩, h.commits⟩, rfl⟩

/-- A writer that is replaced has committed everything; rows are neither lost nor taken twice,
also if replacing it fails half way. -/
theorem updateSchema_ends (limit : Value) (schema : Avro.Schema) {pending : Nat}
    (h : c.Booked A k) (hn : pending = k.pending.length) :
    (updateSchema b limit schema pending).Ends c
      (fun replaced c' =>
        c'.tally = c.tally ∧
        if replaced then ∃ k', c'.Booked A k' ∧ k'.rows = k.rows ∧ k'.pending = [] ∧
          k'.acknowledged = k.acknowledged ∧ c'.writer.isSome
        else c'.Booked A k ∧ c'.window = c.window)
      (fun _ c' => c'.tally = c.tally ∧
        ∃ k', c'.Booked A k' ∧ k'.rows = k.rows ∧ k'.acknowledged = k.acknowledged) := by
  simp only [updateSchema, ends_bind, ends_get]
  cases hw : c.writer with
  | none =>
    simp only [ends_bind]
    refine (getOrCreate_ends schema h).mono (fun _ c' hc => ?_) fun _ c' hc => ?_
    · exact ⟨hc.2.2.1, hc.1, hc.2.1⟩
    · exact ⟨hc.2.2, k, hc.1, rfl, rfl⟩
  | some w =>
    simp only [ends_bind]
    refine (onWriter_ends k rfl h
      (A.updateSchema_ends schema (h.opened hw))).mono (fun replaced c₁ h₁ => ?_) fun _ c₁ h₁ => ?_
    · cases replaced with
      | false => exact ⟨h₁.2.2.1, h₁.1, h₁.2.1⟩
      | true =>
        -- What follows once nothing is pending any more: the old writer is closed, a new one opened.
        have hrest : ∀ (c₂ : Coordinator W S) (k₂ : Books), c₂.Booked A k₂ → k₂.pending = [] →
            k₂.rows = k.rows → k₂.acknowledged = k.acknowledged → c₂.tally = c.tally →
            (do
              close b
              let _ ← getOrCreate b schema
              Pure.pure true : Action (Coordinator W S) Bool).Ends c₂
              (fun replaced c' =>
                c'.tally = c.tally ∧
                if replaced then ∃ k', c'.Booked A k' ∧ k'.rows = k.rows ∧ k'.pending = [] ∧
                  k'.acknowledged = k.acknowledged ∧ c'.writer.isSome
                else c'.Booked A k ∧ c'.window = c.window)
              (fun _ c' => c'.tally = c.tally ∧
                ∃ k', c'.Booked A k' ∧ k'.rows = k.rows ∧ k'.acknowledged = k.acknowledged) := by
          intro c₂ k₂ h₂ hp₂ hr₂ ha₂ ht₂
          simp only [ends_bind, ends_pure]
          refine (close_ends h₂ hp₂).mono (fun _ c₃ h₃ => ?_) fun _ c₃ h₃ => ?_
          · refine (getOrCreate_ends schema h₃.1).mono (fun w c₄ h₄ => ?_) fun _ c₄ h₄ => ?_
            · exact ⟨h₄.2.2.1.trans (h₃.2.trans ht₂), k₂, h₄.1, hr₂, hp₂, ha₂, by simp [h₄.2.2.2]⟩
            · exact ⟨h₄.2.2.trans (h₃.2.trans ht₂), k₂, h₄.1, hr₂, ha₂⟩
          · exact ⟨h₃.2.trans ht₂, k₂, h₃.1, hr₂, ha₂⟩
        simp only [say, Bool.not_true, Bool.false_eq_true, if_false, ends_bind, ends_log]
        by_cases hp : k.pending = []
        · rw [if_neg (by simp [hn, hp])]
          exact hrest c₁ k h₁.1 hp rfl rfl h₁.2.2.1
        · rw [if_pos (by simpa [hn, List.length_pos_iff] using hp)]
          rw [ends_bind]
          refine (flushUntilDone_ends limit hp _ c₁ h₁.1).mono (fun _ c₂ h₂ => ?_) fun _ c₂ h₂ => ?_
          · exact hrest c₂ k.commit h₂.1 rfl (by simp) rfl (h₂.2.trans h₁.2.2.1)
          · exact ⟨h₂.2.trans h₁.2.2.1, k, h₂.1, rfl, rfl⟩
    · exact ⟨h₁.2.2, k, h₁.1, rfl, rfl⟩

end Coordinator
end StreamTable
