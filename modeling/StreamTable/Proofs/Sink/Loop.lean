/-
The loop keeps the books.  While it runs, the window counts the rows that are pending, the last
record that was written is the last in the books, and it is acknowledged just when nothing is
pending.  A failure may leave the window behind, but never a row: what was handed over before it
stays in the books, and nothing else is in them.
-/
import StreamTable.Proofs.Sink.Coordinator
import StreamTable.Proofs.Sink.Reception

namespace StreamTable
namespace Loop

open StreamTable.Action

variable {W S : Type} {b : Backend W S} {p : Plan} {clock : Readings} {l : Loop W S} {k : Books}

/-- What holds also once the loop has stopped. -/
structure Booked (A : b.Accounts) (l : Loop W S) (k : Books) : Prop where
  coordinator : l.coordinator.Booked A k
  written : l.coordinator.totals.written = k.rows.length
  acknowledged : l.acknowledged = k.acknowledged.map Record.id

/-- What holds between the iterations of a loop that is running. -/
structure Sound (A : b.Accounts) (l : Loop W S) (k : Books) : Prop extends l.Booked A k where
  window : l.window.records = k.pending.length
  last : l.last.map Delivery.record = k.last?
  settled : ∀ d, l.last = some d → (d.acknowledged = true ↔ k.pending = [])

variable {A : b.Accounts}

/-- Books that tell of the same rows, with the loop that they tell of. -/
def Keeps (P : Loop W S → Books → Prop) (k : Books) (l : Loop W S) : Prop :=
  ∃ k', P l k' ∧ k'.rows = k.rows

@[simp]
theorem ends_onCoordinator {α : Type} (a : Action (Coordinator W S) α) {Q : α → Loop W S → Prop}
    {E : Failure → Loop W S → Prop} :
    (onCoordinator a).Ends l Q E ↔
      a.Ends l.coordinator (fun x c => Q x { l with coordinator := c })
        (fun f c => E f { l with coordinator := c }) := by
  rw [onCoordinator, ends_focus]

/-- A loop that still agrees with the books on the coordinator, and has neither written nor
acknowledged anything, is booked as before. -/
theorem Booked.update {l' : Loop W S} {k' : Books} (h : l.Booked A k)
    (hc : l'.coordinator.Booked A k') (ht : l'.coordinator.tally = l.coordinator.tally)
    (hl : l'.acknowledged = l.acknowledged) (hr : k'.rows = k.rows)
    (ha : k'.acknowledged = k.acknowledged) : l'.Booked A k' := by
  have hw : l'.coordinator.totals.written = l.coordinator.totals.written := congrArg Prod.fst ht
  refine ⟨hc, ?_, ?_⟩
  · rw [hr]
    exact hw.trans h.written
  · rw [ha, hl]
    exact h.acknowledged

theorem Sound.withActive (a : ActiveSchema) (h : l.Sound A k) :
    Sound A { l with active := a } k :=
  ⟨⟨h.coordinator, h.written, h.acknowledged⟩, h.window, h.last, h.settled⟩

/-- Counts of other things than written rows and commits do not matter to the books. -/
theorem Sound.counting {f : Totals → Totals} (h : l.Sound A k)
    (hc : ∀ t, (f t).commits = t.commits) (hw : ∀ t, (f t).written = t.written) :
    Sound A (l.counting f) k :=
  ⟨⟨⟨h.coordinator.agrees, (hc _).trans h.coordinator.commits⟩, (hw _).trans h.written,
    h.acknowledged⟩, h.window, h.last, h.settled⟩

/-! ## Acknowledgement -/

theorem acknowledge_ends {r : Record} (h : l.Booked A k) (hw : l.coordinator.writer.isSome)
    (hp : k.pending = []) (hl : k.last? = some r) :
    (acknowledge b r).Ends l
      (fun _ l' => l'.Booked A (k.acknowledge r) ∧ l'.last = some ⟨r, true⟩ ∧ l'.active = l.active)
      (fun _ l' => l'.Booked A (k.acknowledge r)) := by
  obtain ⟨w, hw⟩ := Option.isSome_iff_exists.mp hw
  have hack := A.acknowledge_ends (h.coordinator.opened hw) hp hl
  have hbooked (t : S) (ht : A.Opened w t (k.acknowledge r)) : Booked A { l with
      last := some ⟨r, true⟩
      acknowledged := l.acknowledged ++ [r.id]
      coordinator := { l.coordinator with world := t } } (k.acknowledge r) := by
    refine ⟨⟨?_, h.coordinator.commits⟩, h.written, ?_⟩
    · simp only [Coordinator.Agrees, hw]
      exact ht
    · simp [h.acknowledged]
  simp only [acknowledge, ends_bind, ends_modify, ends_onCoordinator, ends_focus]
  exact hack.mono (fun _ t ht => ⟨hbooked t ht, by simp⟩) fun _ t ht => hbooked t ht

/-- Once nothing is pending the last record is acknowledged, now or before, and a new window
starts. -/
theorem reset_ends (now : Double) (h : l.Booked A k) (hw : l.coordinator.writer.isSome)
    (hp : k.pending = []) (hl : l.last.map Delivery.record = k.last?) :
    (reset b now).Ends l
      (fun _ l' => Keeps (Sound A) k l' ∧ l'.active = l.active)
      (fun _ l' => Keeps (Booked A) k l') := by
  have hsound (l' : Loop W S) (k' : Books) (h' : l'.Booked A k') (hr : k'.rows = k.rows)
      (hp' : k'.pending = []) (hl' : l'.last.map Delivery.record = k.last?)
      (hd : ∀ d, l'.last = some d → d.acknowledged = true) :
      Keeps (Sound A) k
        { l' with coordinator := { l'.coordinator with window := .opened now } } := by
    refine ⟨k', ⟨⟨⟨h'.coordinator.agrees, h'.coordinator.commits⟩, h'.written, h'.acknowledged⟩,
      ?_, ?_, ?_⟩, hr⟩
    · exact congrArg List.length hp'.symm
    · rw [Books.last?, hr]
      exact hl'
    · exact fun d hd' => ⟨fun _ => hp', fun _ => hd d hd'⟩
  simp only [reset, acknowledgeLast, ends_bind, ends_get, ends_modify]
  cases hlast : l.last with
  | none =>
    refine ⟨hsound l k h rfl hp hl ?_, rfl⟩
    intro d hd
    rw [hlast] at hd
    cases hd
  | some d =>
    dsimp only
    by_cases hd : d.acknowledged = true
    · rw [if_pos hd]
      refine ⟨hsound l k h rfl hp hl ?_, rfl⟩
      intro d' hd'
      rw [hlast] at hd'
      cases hd'
      exact hd
    · rw [if_neg hd]
      have hk : k.last? = some d.record := by rw [← hl, hlast]; rfl
      refine (acknowledge_ends h hw hp hk).mono (fun _ l' hl' => ?_) fun _ l' hl' => ?_
      · obtain ⟨hb, hlast', hactive⟩ := hl'
        refine ⟨hsound l' _ hb rfl hp ?_ ?_, hactive⟩
        · rw [hlast', hk]
          rfl
        · intro d' hd'
          rw [hlast'] at hd'
          cases hd'
          rfl
      · exact ⟨_, hl', rfl⟩

/-! ## Commits -/

theorem commitIfDue_ends (h : l.Sound A k) :
    (commitIfDue p b clock).Ends l
      (fun _ l' => Keeps (Sound A) k l')
      (fun _ l' => Keeps (Booked A) k l') := by
  simp only [commitIfDue, ends_bind, ends_get]
  rw [ends_ite]
  refine ⟨fun hpending => ?_, fun _ => ⟨k, h, rfl⟩⟩
  have hp : k.pending ≠ [] := by
    have hrecords : 0 < l.window.records := of_decide_eq_true hpending
    rw [h.window] at hrecords
    exact List.ne_nil_of_length_pos hrecords
  rw [ends_bind, ends_lift]
  refine ⟨fun due _ => ?_, fun f _ => ⟨k, h.toBooked, rfl⟩⟩
  rw [ends_ite]
  refine ⟨fun _ => ?_, fun _ => ⟨k, h, rfl⟩⟩
  rw [ends_bind, ends_onCoordinator]
  refine (Coordinator.flush_ends p.limit h.coordinator hp).mono (fun done c hc => ?_)
    fun _ c hc => ?_
  · obtain ⟨hbooked, htally, hwindow, hwriter⟩ := hc
    cases done with
    | true =>
      have hb : Booked A { l with coordinator := c } k.commit :=
        h.toBooked.update hbooked htally rfl (by simp) rfl
      refine (reset_ends clock.committed hb (hwriter rfl) rfl ?_).mono (fun _ l' hl' => ?_)
        fun _ l' hl' => ?_
      · simpa using h.last
      · obtain ⟨k', hk', hr⟩ := hl'.1
        exact ⟨k', hk', by simpa using hr⟩
      · obtain ⟨k', hk', hr⟩ := hl'
        exact ⟨k', hk', by simpa using hr⟩
    | false =>
      refine ⟨k, ⟨h.toBooked.update hbooked htally rfl rfl rfl, ?_, h.last, h.settled⟩, rfl⟩
      show c.window.records = _
      rw [hwindow]
      exact h.window
  · exact ⟨k, h.toBooked.update hc.1 hc.2 rfl rfl rfl, rfl⟩

/-! ## Rows -/

/-- A writer that is replaced for a new schema has committed what it took. -/
theorem bind_ends (schema : Avro.Schema) (binding : Binding) (h : l.Sound A k) :
    (bind p b clock schema binding).Ends l
      (fun _ l' => Keeps (Sound A) k l' ∧ l'.active = l.active)
      (fun _ l' => Keeps (Booked A) k l') := by
  simp only [bind, ends_bind, ends_get]
  rw [ends_ite]
  refine ⟨fun _ => ?_, fun _ => ⟨⟨k, h, rfl⟩, rfl⟩⟩
  simp only [ends_bind, ends_onCoordinator, ends_modify]
  refine (Coordinator.updateSchema_ends p.limit schema h.coordinator h.window).mono
    (fun replaced c hc => ?_) fun _ c hc => ?_
  · cases replaced with
    | true =>
      obtain ⟨htally, k', hbooked, hr, hp, ha, hwriter⟩ := hc
      have hb : Booked A { l with coordinator := c, bound := some binding } k' :=
        h.toBooked.update hbooked htally rfl hr ha
      refine (reset_ends clock.replaced hb hwriter hp ?_).mono (fun _ l' hl' => ?_)
        fun _ l' hl' => ?_
      · rw [Books.last?, hr]
        exact h.last
      · obtain ⟨⟨k'', hk'', hr''⟩, hactive⟩ := hl'
        exact ⟨⟨k'', hk'', hr''.trans hr⟩, hactive⟩
      · obtain ⟨k'', hk'', hr''⟩ := hl'
        exact ⟨k'', hk'', hr''.trans hr⟩
    | false =>
      obtain ⟨htally, hbooked, hwindow⟩ := hc
      have hb : Booked A { l with coordinator := c, bound := some binding } k :=
        h.toBooked.update hbooked htally rfl rfl rfl
      refine ⟨⟨k, ⟨hb, ?_, h.last, h.settled⟩, rfl⟩, rfl⟩
      show c.window.records = _
      rw [hwindow]
      exact h.window
  · obtain ⟨htally, k', hbooked, hr, ha⟩ := hc
    exact ⟨k', h.toBooked.update hbooked htally rfl hr ha, hr⟩

theorem store_ends (r : Record) (schema : Avro.Schema) (row : Value) (h : l.Sound A k) :
    (store b r schema row).Ends l
      (fun _ l' => l'.Sound A (k.write r row))
      (fun _ l' => Keeps (Booked A) k l') := by
  simp only [store, ends_bind, ends_onCoordinator, ends_modify, ends_count]
  refine (Coordinator.getOrCreate_ends schema h.coordinator).mono (fun _ c hc => ?_)
    fun _ c hc => ?_
  · obtain ⟨hbooked, hwindow, htally, -⟩ := hc
    refine (Coordinator.write_ends r row hbooked).mono (fun _ c' hc' => ?_) fun _ c' hc' => ?_
    · obtain ⟨hbooked', hwindow', htally'⟩ := hc'
      have hwritten : c'.totals.written = k.rows.length := by
        have : c'.totals.written = l.coordinator.totals.written :=
          congrArg Prod.fst (htally'.trans htally)
        exact this.trans h.written
      refine ⟨⟨⟨hbooked'.agrees, hbooked'.commits⟩, ?_, h.acknowledged⟩, ?_, ?_, ?_⟩
      · show c'.totals.written + 1 = _
        simp [hwritten]
      · show c'.window.records + 1 = _
        have : c'.window.records = k.pending.length := by
          rw [hwindow', hwindow]
          exact h.window
        simp [this]
      · simp [counting]
      · intro d hd
        cases hd
        simp
    · exact ⟨k, h.toBooked.update hc'.1 (hc'.2.2.trans htally) rfl rfl rfl, rfl⟩
  · exact ⟨k, h.toBooked.update hc.1 hc.2.2 rfl rfl rfl, rfl⟩

/-! ## Iterations -/

/-- Books that tell of the same rows, or of one more: the next. -/
def Grows (next : Option (Record × Value)) (k k' : Books) : Prop :=
  k'.rows = k.rows ∨ ∃ x, next = some x ∧ k'.rows = k.rows ++ [x]

theorem Grows.of_sound {next : Option (Record × Value)} {P : Loop W S → Books → Prop}
    {k₁ : Books} (h : Grows next k k₁) {l' : Loop W S} (hk : Keeps P k₁ l') :
    ∃ k', P l' k' ∧ Grows next k k' := by
  obtain ⟨k', hP, hr⟩ := hk
  refine ⟨k', hP, ?_⟩
  rw [Grows, hr]
  exact h

/-- Decoding changes nothing but the projection. -/
theorem ends_decode {r : Record} {schema : Avro.Schema} {Q : Value → Loop W S → Prop}
    {E : Failure → Loop W S → Prop} :
    (decode p r schema).Ends l Q E ↔
      let outcome := Decoder.decode p.fieldName r schema (l.active.projection.getD default)
      Q outcome.row { l with active := { l.active with projection := some outcome.projection } } :=
  Iff.rfl

theorem deliver_ends (r : Record) (schema : Avro.Schema) (binding : Binding) (h : l.Sound A k) :
    (deliver p b clock r schema binding).Ends l
      (fun _ l' => ∃ k', l'.Sound A k' ∧ Grows (rowOf p r schema l.active) k k')
      (fun _ l' => ∃ k', l'.Booked A k' ∧ Grows (rowOf p r schema l.active) k k') := by
  simp only [deliver, ends_bind]
  refine (bind_ends schema binding h).mono (fun _ l₁ h₁ => ?_) fun _ l₁ h₁ => ?_
  · obtain ⟨⟨k₁, hk₁, hr₁⟩, hactive⟩ := h₁
    rw [ends_decode, ends_ite, ← hactive]
    constructor
    · intro _
      rw [ends_count]
      exact ⟨k₁, (hk₁.withActive _).counting (fun _ => rfl) (fun _ => rfl), .inl hr₁⟩
    · intro hrow
      have hgrows : Grows (rowOf p r schema l₁.active) k (k₁.write r
          (Decoder.decode p.fieldName r schema (l₁.active.projection.getD default)).row) :=
        .inr ⟨_, if_neg hrow, by rw [Books.rows_write, hr₁]⟩
      rw [ends_bind]
      refine (store_ends r schema _ (hk₁.withActive _)).mono (fun _ l₂ h₂ => ?_) fun _ l₂ h₂ => ?_
      · exact (commitIfDue_ends h₂).mono (fun _ l₃ h₃ => hgrows.of_sound h₃)
          fun _ l₃ h₃ => hgrows.of_sound h₃
      · exact Grows.of_sound (.inl hr₁) h₂
  · obtain ⟨k₁, hk₁, hr₁⟩ := h₁
    exact ⟨k₁, hk₁, .inl hr₁⟩

theorem iterate_ends (timeout : Double) (h : l.Sound A k) :
    (iterate p b clock timeout).Ends l
      (fun _ l' => ∃ k', l'.Sound A k' ∧ Grows (nextRow p l) k k')
      (fun _ l' => ∃ k', l'.Booked A k' ∧ Grows (nextRow p l) k k') := by
  refine iterate_cases (fun _ _ => ⟨k, h.toBooked, .inl rfl⟩) (fun _ => ?_) fun r rest hq => ?_
  · exact (commitIfDue_ends h).mono (fun _ l' hl' => Grows.of_sound (.inl rfl) hl')
      fun _ l' hl' => Grows.of_sound (.inl rfl) hl'
  · have hs : Sound A { l with queue := rest } k :=
      ⟨⟨h.coordinator, h.written, h.acknowledged⟩, h.window, h.last, h.settled⟩
    have hnext : nextRow p l = receivedRow p r (l.active.receive p.fieldName r) := by
      rw [nextRow, hq]
      rfl
    have hfollowing : ∀ changed a, Sound A (following changed a { l with queue := rest }) k := by
      intro changed a
      refine (hs.withActive a).counting (fun t => ?_) fun t => ?_ <;> cases changed <;> rfl
    rw [hnext]
    refine handle_ends (l := { l with queue := rest }) rfl (fun _ => ?_) (fun f _ => ?_)
      fun schema binding hv => ?_
    · exact ⟨k, hs.counting (fun _ => rfl) (fun _ => rfl), .inl rfl⟩
    · exact ⟨k, (hfollowing _ _).toBooked, .inl rfl⟩
    · rw [receivedRow, show (l.active.receive p.fieldName r).verdict = _ from hv]
      exact deliver_ends r schema binding (hfollowing _ _)

/-- What holds of a loop at all times: the books are kept, and in order while it runs. -/
structure Consistent (A : b.Accounts) (l : Loop W S) (k : Books) : Prop where
  booked : l.Booked A k
  sound : l.running = true → l.Sound A k

/-- An iteration never fails itself, and adds at most the next row to the books. -/
theorem advance_ends (timeout : Double) (h : l.Consistent A k) :
    (advance p b clock timeout).Ends l
      (fun _ l' => ∃ k', l'.Consistent A k' ∧ Grows (nextRow p l) k k')
      (fun _ _ => False) := by
  simp only [advance, ends_bind, ends_get]
  rw [ends_ite]
  refine ⟨fun hrunning => ?_, fun _ => ⟨k, h, .inl rfl⟩⟩
  rw [ends_bind, ends_attempt]
  refine (iterate_ends timeout (h.sound hrunning)).mono (fun _ l' hl' => ?_) fun f l' hl' => ?_
  · obtain ⟨k', hk', hg⟩ := hl'
    exact ⟨k', ⟨hk'.toBooked, fun _ => hk'⟩, hg⟩
  · obtain ⟨k', hk', hg⟩ := hl'
    refine ⟨k', ⟨⟨hk'.coordinator, hk'.written, hk'.acknowledged⟩, ?_⟩, hg⟩
    intro hstopped
    cases hstopped

end Loop
end StreamTable
