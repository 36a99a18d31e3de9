/-
Histories of a loop.  Records are put into the queue and iterations are run, in any order and at any
times, until something is said of what has come of it.  Whatever the table writers do, each record
that counts as written has its row in the books once, in the order in which the records came.
-/
import StreamTable.Proofs.Sink.Frame
import StreamTable.Proofs.Sink.Loop

namespace StreamTable
namespace Loop

/-- What can happen to a loop before it is closed. -/
inductive Event where
  | put (r : Record)
  /-- An iteration that waits for a record at most so many seconds. -/
  | iterate (clock : Readings) (timeout : Double)

open StreamTable.Action

variable {W S : Type}

def apply (p : Plan) (b : Backend W S) (l : Loop W S) : Event → Loop W S
  | .put r => { l with queue := l.queue ++ [r] }
  | .iterate clock timeout => ((advance p b clock timeout).run l).state

def after (p : Plan) (b : Backend W S) : List Event → Loop W S → Loop W S
  | [], l => l
  | e :: events, l => after p b events (l.apply p b e)

def written (l : Loop W S) : Nat := l.coordinator.totals.written

/-- The records that came to count as written, each with its row, in the order of their coming. -/
def delivered (p : Plan) (b : Backend W S) : List Event → Loop W S → List (Record × Value)
  | [], _ => []
  | e :: events, l =>
    let l' := l.apply p b e
    (if l.written < l'.written then (nextRow p l).toList else []) ++ delivered p b events l'

variable {p : Plan} {b : Backend W S} {A : b.Accounts} {l : Loop W S} {k : Books}

theorem start_consistent {world : S} {now : Double} (h : A.Closed world .empty) :
    Consistent A (start world now) .empty := by
  have hb : Booked A (start world now) .empty := ⟨⟨⟨h, rfl⟩, rfl⟩, rfl, rfl⟩
  exact ⟨hb, fun _ => ⟨hb, rfl, rfl, fun _ hd => by cases hd⟩⟩

theorem put_consistent (r : Record) (h : l.Consistent A k) :
    Consistent A { l with queue := l.queue ++ [r] } k := by
  refine ⟨⟨h.booked.coordinator, h.booked.written, h.booked.acknowledged⟩, fun hrunning => ?_⟩
  have hs := h.sound hrunning
  exact ⟨⟨hs.coordinator, hs.written, hs.acknowledged⟩, hs.window, hs.last, hs.settled⟩

/-- The books grow by the next row just when one more record counts as written. -/
theorem Grows.rows_eq {l' : Loop W S} {k' : Books} {next : Option (Record × Value)}
    (hg : Grows next k k') (h : l.Booked A k) (h' : l'.Booked A k') :
    k'.rows = k.rows ++ if l.written < l'.written then next.toList else [] := by
  have hw : l.written = k.rows.length := h.written
  have hw' : l'.written = k'.rows.length := h'.written
  obtain hr | ⟨x, hx, hr⟩ := hg
  · rw [if_neg, List.append_nil, hr]
    rw [hw, hw', hr]
    omega
  · rw [if_pos, hr, hx]
    · rfl
    · rw [hw, hw', hr, List.length_append, List.length_singleton]
      omega

theorem apply_consistent (e : Event) (h : l.Consistent A k) :
    ∃ k', Consistent A (l.apply p b e) k' ∧ k'.rows = k.rows ++
      if l.written < (l.apply p b e).written then (nextRow p l).toList else [] := by
  cases e with
  | put r =>
    refine ⟨k, put_consistent r h, ?_⟩
    have hw : (l.apply p b (.put r)).written = l.written := rfl
    rw [hw, if_neg (Nat.lt_irrefl _), List.append_nil]
  | iterate clock timeout =>
    have hends : (advance p b clock timeout).Ends l
        (fun _ l' => ∃ k', l'.Consistent A k' ∧ Grows (nextRow p l) k k')
        (fun _ l' => ∃ k', l'.Consistent A k' ∧ Grows (nextRow p l) k k') :=
      (advance_ends timeout h).mono (fun _ _ hQ => hQ) fun _ _ hE => hE.elim
    obtain ⟨k', hk', hg⟩ := hends.state
    exact ⟨k', hk', hg.rows_eq h.booked hk'.booked⟩

/-- The books hold the rows of the records that count as written, and no others. -/
theorem after_consistent (events : List Event) (h : l.Consistent A k) :
    ∃ k', Consistent A (after p b events l) k' ∧ k'.rows = k.rows ++ delivered p b events l := by
  induction events generalizing l k with
  | nil => exact ⟨k, h, (List.append_nil _).symm⟩
  | cons e events ih =>
    obtain ⟨k₁, h₁, hr₁⟩ := apply_consistent (p := p) e h
    obtain ⟨k₂, h₂, hr₂⟩ := ih h₁
    refine ⟨k₂, h₂, ?_⟩
    rw [hr₂, hr₁, List.append_assoc]
    rfl

/-! ## The order of the records -/

/-- The records that were put into the queue, in order. -/
def records : List Event → List Record
  | [] => []
  | .put r :: events => r :: records events
  | .iterate _ _ :: events => records events

/-- An iteration takes at most the first record out of the queue, and writes none without that. -/
theorem advance_queue (l : Loop W S) (clock : Readings) (timeout : Double) :
    let l' := ((advance p b clock timeout).run l).state
    l'.queue = l.queue.tail ∨ l'.queue = l.queue ∧ l'.written = l.written := by
  refine advance_cases (R := fun l' => l'.queue = l.queue.tail ∨
    l'.queue = l.queue ∧ l'.written = l.written) (fun _ => .inr ⟨rfl, rfl⟩) fun _ => ?_
  refine iterate_cases (fun _ _ => .inr ⟨rfl, rfl⟩) (fun hq => ?_) fun r rest hq => ?_
  · have htail (l' : Loop W S) (h : l'.frame = l.frame) : l'.queue = l.queue.tail := by
      rw [hq]
      exact (congrArg Frame.queue h).trans hq
    exact ((commitIfDue_frame clock).ends l).mono (fun _ l' h => .inl (htail l' h))
      fun _ l' h => .inl (htail l' h)
  · rw [hq]
    exact (handle_handled clock r _).mono (fun _ l' h => .inl h.queue) fun _ l' h => .inl h.queue

/-- The written records are among those that came, each at most once and in their order. -/
theorem delivered_sublist (events : List Event) (l : Loop W S) :
    ((delivered p b events l).map Prod.fst).Sublist (l.queue ++ records events) := by
  induction events generalizing l with
  | nil => exact List.nil_sublist _
  | cons e events ih =>
    rw [delivered, List.map_append]
    have hih := ih (l.apply p b e)
    cases e with
    | put r =>
      have hw : (l.apply p b (.put r)).written = l.written := rfl
      rw [hw, if_neg (Nat.lt_irrefl _)]
      have hq : (l.apply p b (.put r)).queue = l.queue ++ [r] := rfl
      rw [hq, List.append_assoc] at hih
      exact hih
    | iterate clock timeout =>
      have hrecords : records (.iterate clock timeout :: events) = records events := rfl
      rw [hrecords]
      obtain hq | ⟨hq, hw⟩ := advance_queue (p := p) (b := b) l clock timeout
      · replace hq : (l.apply p b (.iterate clock timeout)).queue = l.queue.tail := hq
        rw [hq] at hih
        have hqueue : l.queue = l.queue.head?.toList ++ l.queue.tail := by
          cases l.queue <;> rfl
        have hfirst : ((if l.written < (l.apply p b (.iterate clock timeout)).written
            then (nextRow p l).toList else []).map Prod.fst).Sublist l.queue.head?.toList := by
          by_cases hw : l.written < (l.apply p b (.iterate clock timeout)).written
          · rw [if_pos hw]
            cases hx : nextRow p l with
            | none => exact List.nil_sublist _
            | some x =>
              rw [nextRow_eq_some hx]
              exact List.Sublist.refl _
          · rw [if_neg hw]
            exact List.nil_sublist _
        rw [hqueue, List.append_assoc]
        exact hfirst.append hih
      · replace hq : (l.apply p b (.iterate clock timeout)).queue = l.queue := hq
        replace hw : (l.apply p b (.iterate clock timeout)).written = l.written := hw
        rw [hw, if_neg (Nat.lt_irrefl _)]
        rw [hq] at hih
        exact hih

/-! ## What a history leads to -/

variable {l₁ l₂ : Loop W S}

theorem after_append (events more : List Event) (l : Loop W S) :
    after p b (events ++ more) l = after p b more (after p b events l) := by
  induction events generalizing l with
  | nil => rfl
  | cons e events ih => exact ih _

theorem records_append (events more : List Event) :
    records (events ++ more) = records events ++ records more := by
  induction events with
  | nil => rfl
  | cons e events ih =>
    cases e with
    | put r => exact congrArg (r :: ·) ih
    | iterate clock timeout => exact ih

/-- A history in which these records are put into the queue leads from one loop to another. -/
def Leads (p : Plan) (b : Backend W S) (rs : List Record) (l l' : Loop W S) : Prop :=
  ∃ events, records events = rs ∧ after p b events l = l'

theorem Leads.refl (l : Loop W S) : Leads p b [] l l := ⟨[], rfl, rfl⟩

theorem Leads.trans {rs rs' : List Record} (h : Leads p b rs l l₁) (h' : Leads p b rs' l₁ l₂) :
    Leads p b (rs ++ rs') l l₂ := by
  obtain ⟨events, hrecords, rfl⟩ := h
  obtain ⟨more, hmore, rfl⟩ := h'
  exact ⟨events ++ more, by rw [records_append, hrecords, hmore], after_append events more l⟩

theorem leads_put (l : Loop W S) (r : Record) :
    Leads p b [r] l { l with queue := l.queue ++ [r] } := ⟨[.put r], rfl, rfl⟩

theorem leads_puts (l : Loop W S) (rs : List Record) :
    Leads p b rs l { l with queue := l.queue ++ rs } := by
  induction rs generalizing l with
  | nil =>
    rw [List.append_nil]
    exact Leads.refl l
  | cons r rs ih =>
    have hrest := (leads_put (p := p) (b := b) l r).trans (ih _)
    rw [List.append_assoc] at hrest
    exact hrest

theorem leads_advance (l : Loop W S) (clock : Readings) (timeout : Double) :
    Leads p b [] l ((advance p b clock timeout).run l).state :=
  ⟨[.iterate clock timeout], rfl, rfl⟩

/-- No history closes a loop. -/
theorem apply_closed (e : Event) (l : Loop W S) : (l.apply p b e).closed = l.closed := by
  cases e with
  | put r => rfl
  | iterate clock timeout =>
    have hclosed := (iterate_standing (p := p) (b := b) clock timeout).comp fun x => x.2.2
    have hends : (advance p b clock timeout).Ends l (fun _ l' => l'.closed = l.closed)
        (fun _ l' => l'.closed = l.closed) := by
      simp only [advance, ends_bind, ends_get]
      rw [ends_ite]
      refine ⟨fun _ => ?_, fun _ => rfl⟩
      rw [ends_bind, ends_attempt]
      exact (hclosed.ends l).mono (fun _ _ h => h) fun _ _ h => h
    exact hends.state

theorem after_closed (events : List Event) (l : Loop W S) :
    (after p b events l).closed = l.closed := by
  induction events generalizing l with
  | nil => rfl
  | cons e events ih => exact (ih _).trans (apply_closed e l)

end Loop
end StreamTable
