/-
Acknowledgement is safe and complete.  A record is acknowledged only when a commit has covered all
rows that were written, by the writers that took them, and a loop that runs has acknowledged the
last record that it wrote just when it has nothing left to commit.
-/
import StreamTable.Proofs.Table.Journal

namespace StreamTable
namespace Loop

variable {W S : Type}

/-- A loop at its start whose table writers keep a journal. -/
def startJournaled (world : S) (now : Double) : Loop (Nat × W) (Journal × S) := start ([], world) now

/-- What the table writers of a loop have noted. -/
def journal (l : Loop (Nat × W) (Journal × S)) : Journal := l.coordinator.world.1

/-- Whatever the table writers answer and wherever they fail: a journal of their calls, which does
not change the course of the loop, shows the rows of the written records in their order, and no
acknowledgement before all rows were committed.  While the loop runs, the last record written is
acknowledged if and only if the window counts no rows. -/
theorem acknowledged_just_when_covered (p : Plan) (b : Backend W S) (events : List Event)
    (world : S) (now : Double) :
    let l := after p b events (start world now)
    let kept := after p b.journaled events (startJournaled world now)
    let written := delivered p b events (start world now)
    kept.map Prod.snd Prod.snd = l ∧
      kept.journal.rows = written.map Prod.snd ∧
      kept.journal.acknowledged.map Record.id = l.acknowledged ∧
      kept.journal.AcknowledgesCovered written ∧
      (l.running = true → l.last.map Delivery.record = written.getLast?.map Prod.fst ∧
        ∀ d, l.last = some d → (d.acknowledged = true ↔ l.window.records = 0)) := by
  intro l kept written
  have hmirrors := b.journaled_mirrors
  have hmap : kept.map Prod.snd Prod.snd = l := map_after hmirrors events _
  have hwritten : delivered p b.journaled events (startJournaled world now) = written :=
    (delivered_map hmirrors events (startJournaled world now)).symm
  have hstart : (startJournaled world now).Consistent b.journaledAccounts .empty :=
    start_consistent Journal.tells_nil
  obtain ⟨k, hk, hrows⟩ := after_consistent (p := p) events hstart
  replace hrows : k.rows = written := by
    rw [hrows, ← hwritten]
    rfl
  have hk : kept.Consistent b.journaledAccounts k := hk
  -- Whether a writer is open or not, the journal tells of the books.
  have htells : kept.journal.Tells k := by
    cases hw : kept.coordinator.writer with
    | some w => exact (hk.booked.coordinator.opened hw).1
    | none => exact (hk.booked.coordinator.closed hw).1
  refine ⟨hmap, ?_, ?_, ?_, fun hrunning => ?_⟩
  · rw [htells.rows, hrows]
  · rw [htells.acknowledged, ← hmap]
    exact hk.booked.acknowledged.symm
  · rw [← hrows]
    exact htells.covered
  · rw [← hmap] at hrunning ⊢
    have hs := hk.sound hrunning
    refine ⟨?_, fun d hd => ?_⟩
    · rw [← hrows]
      exact hs.last
    · have hwindow : (kept.map Prod.snd Prod.snd).window.records = k.pending.length := hs.window
      rw [hs.settled d hd, hwindow, List.length_eq_zero_iff]

end Loop
end StreamTable
