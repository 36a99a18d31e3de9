/-
Journals: what was asked of table writers, in order, with what came of it.  Any table writers can be
made to keep a journal beside their world, which changes nothing in what they do, and the journal
tells which rows a commit has covered at any moment.
-/
import StreamTable.Proofs.Sink.Mirror

namespace StreamTable

/-- A call of a table writer, or of somebody who waits for a record, with what came of it.  A writer
is known by its place in the journal: how many moments there were before it was opened. -/
inductive Moment where
  | created (result : Except Failure Unit)
  | updated (writer : Nat) (result : Except Failure Bool)
  | wrote (writer : Nat) (row : Value) (result : Except Failure Unit)
  | flushed (writer : Nat) (result : Except Failure Bool)
  | closed (writer : Nat) (result : Except Failure Unit)
  | acknowledged (r : Record) (result : Except Failure Unit)

/-- What happened, oldest first. -/
abbrev Journal := List Moment

namespace Moment

/-- The row that a writer took. -/
def row? : Moment → Option Value
  | .wrote _ row (.ok ()) => some row
  | _ => none

def acknowledged? : Moment → Option Record
  | .acknowledged r _ => some r
  | _ => none

/-- The rows that no commit covers, each with the writer that took it.  A commit covers the rows of
the writer that was asked for it, and only if the answer is that it was done. -/
def uncover (uncovered : List (Nat × Value)) : Moment → List (Nat × Value)
  | .wrote writer row (.ok ()) => uncovered ++ [(writer, row)]
  | .flushed writer (.ok true) => uncovered.filter fun x => x.1 ≠ writer
  | _ => uncovered

end Moment

namespace Journal

def rows (j : Journal) : List Value := j.filterMap Moment.row?

def acknowledged (j : Journal) : List Record := j.filterMap Moment.acknowledged?

/-- The rows that were taken and that no commit has covered since. -/
def uncovered (j : Journal) : List (Nat × Value) := j.foldl Moment.uncover []

/-- Whenever a record is acknowledged, a commit has covered every row that was taken before, and
the record is that of the last of these rows. -/
def AcknowledgesCovered (j : Journal) (written : List (Record × Value)) : Prop :=
  ∀ earlier r result later, j = earlier ++ .acknowledged r result :: later →
    uncovered earlier = [] ∧
      (written.take (rows earlier).length).getLast?.map Prod.fst = some r

theorem rows_concat (j : Journal) (m : Moment) : rows (j ++ [m]) = rows j ++ m.row?.toList := by
  rw [rows, rows, List.filterMap_append]
  cases hm : m.row? with
  | some row => simp [hm]
  | none => simp [hm]

theorem acknowledged_concat (j : Journal) (m : Moment) :
    acknowledged (j ++ [m]) = acknowledged j ++ m.acknowledged?.toList := by
  rw [acknowledged, acknowledged, List.filterMap_append]
  cases hm : m.acknowledged? with
  | some r => simp [hm]
  | none => simp [hm]

theorem uncovered_concat (j : Journal) (m : Moment) :
    uncovered (j ++ [m]) = m.uncover (uncovered j) := by
  rw [uncovered, List.foldl_append]
  rfl

/-- A journal with one more moment has no acknowledgement but those before, and that moment. -/
theorem acknowledgesCovered_concat {j : Journal} {m : Moment} {written : List (Record × Value)}
    (h : AcknowledgesCovered j written)
    (hm : ∀ r result, m = .acknowledged r result → uncovered j = [] ∧
      (written.take (rows j).length).getLast?.map Prod.fst = some r) :
    AcknowledgesCovered (j ++ [m]) written := by
  intro earlier r result later hj
  obtain rfl | ⟨later, last, rfl⟩ := later.eq_nil_or_concat
  · obtain ⟨rfl, hlast⟩ := List.append_inj' hj rfl
    exact hm r result (List.singleton_inj.mp hlast)
  · rw [List.concat_eq_append, ← List.cons_append, ← List.append_assoc] at hj
    obtain ⟨rfl, -⟩ := List.append_inj' hj rfl
    exact h earlier r result later rfl

theorem rows_prefix_length {j earlier later : Journal} (h : j = earlier ++ later) :
    (rows earlier).length ≤ (rows j).length := by
  rw [h, rows, rows, List.filterMap_append, List.length_append]
  omega

/-- What is written later does not matter to what was acknowledged before. -/
theorem AcknowledgesCovered.append {j : Journal} {written : List (Record × Value)}
    (h : AcknowledgesCovered j written) (hn : (rows j).length ≤ written.length)
    (more : List (Record × Value)) : AcknowledgesCovered j (written ++ more) := by
  intro earlier r result later hj
  obtain ⟨huncovered, hlast⟩ := h earlier r result later hj
  have hle := rows_prefix_length hj
  rw [List.take_append_of_le_length (by omega)]
  exact ⟨huncovered, hlast⟩

end Journal

open StreamTable.Action

variable {W S : Type}

namespace Backend

/-- An action of a table writer's world, noted in the journal. -/
def noted {σ α : Type} (m : Except Failure α → Moment) (a : Action σ α) :
    Action (Journal × σ) α := fun (j, s) =>
  let e := a.run s
  ⟨e.result, (j ++ [m e.result], e.state), e.log⟩

/-- A call of a writer, noted in the journal under the writer's number. -/
def notedCall {α : Type} (m : Nat → Except Failure α → Moment) (call : Action (W × S) α) :
    Action ((Nat × W) × (Journal × S)) α := fun ((n, w), (j, s)) =>
  let e := call.run (w, s)
  ⟨e.result, ((n, e.state.1), (j ++ [m n e.result], e.state.2)), e.log⟩

/-- The same table writers, with a journal. -/
def journaled (b : Backend W S) : Backend (Nat × W) (Journal × S) where
  create schema := fun (j, s) =>
    let e := (b.create schema).run s
    ⟨e.result.map fun w => (j.length, w),
      (j ++ [.created (e.result.map fun _ => ())], e.state), e.log⟩
  name w := b.name w.2
  updateSchema schema := notedCall .updated (b.updateSchema schema)
  write row := notedCall (fun n => .wrote n row) (b.write row)
  flush := notedCall .flushed b.flush
  close := notedCall .closed b.close
  acknowledge r := noted (.acknowledged r) (b.acknowledge r)

theorem noted_mirrors {σ α : Type} (m : Except Failure α → Moment) (a : Action σ α) :
    (noted m a).Mirrors Prod.snd id a := by
  intro s
  rw [Except.map_id]
  rfl

theorem notedCall_mirrors {α : Type} (m : Nat → Except Failure α → Moment)
    (call : Action (W × S) α) :
    (notedCall m call).Mirrors (Prod.map Prod.snd Prod.snd) id call := by
  intro s
  rw [Except.map_id]
  rfl

/-- Whatever a call comes to is what is noted. -/
theorem notedCall_ends {α : Type} {m : Nat → Except Failure α → Moment} {call : Action (W × S) α}
    {w : Nat × W} {s : Journal × S} {Q : α → (Nat × W) × (Journal × S) → Prop}
    {E : Failure → (Nat × W) × (Journal × S) → Prop}
    (hQ : ∀ x w' t, Q x ((w.1, w'), (s.1 ++ [m w.1 (.ok x)], t)))
    (hE : ∀ f w' t, E f ((w.1, w'), (s.1 ++ [m w.1 (.error f)], t))) :
    (notedCall m call).Ends (w, s) Q E := by
  have hrun : (notedCall m call).run (w, s) =
      ⟨(call.run (w.2, s.2)).result, ((w.1, (call.run (w.2, s.2)).state.1),
        (s.1 ++ [m w.1 (call.run (w.2, s.2)).result], (call.run (w.2, s.2)).state.2)),
        (call.run (w.2, s.2)).log⟩ := rfl
  unfold Ends
  rw [hrun]
  cases (call.run (w.2, s.2)).result with
  | ok x => exact hQ x _ _
  | error f => exact hE f _ _

theorem noted_ends {σ α : Type} {m : Except Failure α → Moment} {a : Action σ α} {s : Journal × σ}
    {Q : α → Journal × σ → Prop} {E : Failure → Journal × σ → Prop}
    (hQ : ∀ x t, Q x (s.1 ++ [m (.ok x)], t)) (hE : ∀ f t, E f (s.1 ++ [m (.error f)], t)) :
    (noted m a).Ends s Q E := by
  have hrun : (noted m a).run s =
      ⟨(a.run s.2).result, (s.1 ++ [m (a.run s.2).result], (a.run s.2).state), (a.run s.2).log⟩ :=
    rfl
  unfold Ends
  rw [hrun]
  cases (a.run s.2).result with
  | ok x => exact hQ x _
  | error f => exact hE f _

theorem create_ends {b : Backend W S} {schema : Avro.Schema} {s : Journal × S}
    {Q : Nat × W → Journal × S → Prop} {E : Failure → Journal × S → Prop}
    (hQ : ∀ w t, Q (s.1.length, w) (s.1 ++ [.created (.ok ())], t))
    (hE : ∀ f t, E f (s.1 ++ [.created (.error f)], t)) :
    (b.journaled.create schema).Ends s Q E := by
  have hrun : (b.journaled.create schema).run s =
      ⟨((b.create schema).run s.2).result.map fun w => (s.1.length, w),
        (s.1 ++ [.created (((b.create schema).run s.2).result.map fun _ => ())],
          ((b.create schema).run s.2).state), ((b.create schema).run s.2).log⟩ := rfl
  unfold Ends
  rw [hrun]
  cases ((b.create schema).run s.2).result with
  | ok w => exact hQ w _
  | error f => exact hE f _

/-- Keeping a journal changes nothing else. -/
theorem journaled_mirrors (b : Backend W S) : b.journaled.Mirrors Prod.snd Prod.snd b where
  create schema := by
    intro s
    have hresult : ∀ r : Except Failure W, (r.map fun w => (s.1.length, w)).map Prod.snd = r := by
      intro r
      cases r <;> rfl
    show (b.create schema).run s.2 =
      ⟨(((b.create schema).run s.2).result.map _).map Prod.snd, _, _⟩
    rw [hresult]
    rfl
  name _ := rfl
  updateSchema schema := notedCall_mirrors _ _
  write row := notedCall_mirrors _ _
  flush := notedCall_mirrors _ _
  close := notedCall_mirrors _ _
  acknowledge r := noted_mirrors _ _

end Backend

/-! ## What the journal tells -/

namespace Journal

/-- A journal tells of the same rows and acknowledgements as the books. -/
structure Tells (j : Journal) (k : Books) : Prop where
  rows : rows j = k.rows.map Prod.snd
  uncovered : (uncovered j).map Prod.snd = k.pending.map Prod.snd
  acknowledged : acknowledged j = k.acknowledged
  covered : AcknowledgesCovered j k.rows

theorem tells_nil : Tells [] .empty :=
  ⟨rfl, rfl, rfl, fun _ _ _ _ h => absurd h (by simp)⟩

variable {j : Journal} {k : Books} {m : Moment}

theorem Tells.uncovered_nil (h : Tells j k) (hp : k.pending = []) : Journal.uncovered j = [] := by
  have := h.uncovered
  rwa [hp, List.map_nil, List.map_eq_nil_iff] at this

/-- A moment that neither takes rows nor commits nor acknowledges adds nothing. -/
theorem Tells.idle (h : Tells j k) (hrow : m.row? = none) (hack : m.acknowledged? = none)
    (hu : m.uncover (Journal.uncovered j) = Journal.uncovered j) : Tells (j ++ [m]) k where
  rows := by
    rw [rows_concat, hrow, h.rows]
    exact List.append_nil _
  uncovered := by rw [uncovered_concat, hu, h.uncovered]
  acknowledged := by
    rw [acknowledged_concat, hack, h.acknowledged]
    exact List.append_nil _
  covered := by
    refine acknowledgesCovered_concat h.covered fun r result hm => ?_
    rw [hm] at hack
    cases hack

theorem Tells.wrote (h : Tells j k) (n : Nat) (r : Record) (row : Value) :
    Tells (j ++ [.wrote n row (.ok ())]) (k.write r row) where
  rows := by
    rw [rows_concat, h.rows, Books.rows_write, List.map_append]
    rfl
  uncovered := by
    rw [uncovered_concat, Books.pending_write, List.map_append, ← h.uncovered]
    exact List.map_append
  acknowledged := by
    rw [acknowledged_concat, h.acknowledged]
    exact List.append_nil _
  covered := by
    have hlength : (Journal.rows j).length = k.rows.length := by
      rw [h.rows, List.length_map]
    have hcovered : AcknowledgesCovered j (k.rows ++ [(r, row)]) :=
      h.covered.append (Nat.le_of_eq hlength) _
    rw [Books.rows_write]
    exact acknowledgesCovered_concat hcovered fun _ _ hm => by cases hm

theorem Tells.flushed (h : Tells j k) (n : Nat)
    (hn : ∀ x ∈ Journal.uncovered j, x.1 = n) : Tells (j ++ [.flushed n (.ok true)]) k.commit where
  rows := by
    rw [rows_concat, h.rows, Books.rows_commit]
    exact List.append_nil _
  uncovered := by
    rw [uncovered_concat]
    show ((Journal.uncovered j).filter fun x => x.1 ≠ n).map Prod.snd = []
    rw [List.map_eq_nil_iff, List.filter_eq_nil_iff]
    intro x hx
    simp [hn x hx]
  acknowledged := by
    rw [acknowledged_concat, h.acknowledged]
    exact List.append_nil _
  covered := by
    rw [Books.rows_commit]
    exact acknowledgesCovered_concat h.covered fun _ _ hm => by cases hm

theorem Tells.acknowledges {r : Record} (h : Tells j k) (hp : k.pending = [])
    (hl : k.last? = some r) (result : Except Failure Unit) :
    Tells (j ++ [.acknowledged r result]) (k.acknowledge r) where
  rows := by
    rw [rows_concat, h.rows]
    exact List.append_nil _
  uncovered := by
    rw [uncovered_concat]
    exact h.uncovered
  acknowledged := by
    rw [acknowledged_concat, h.acknowledged]
    rfl
  covered := by
    refine acknowledgesCovered_concat h.covered fun r' result' hm => ?_
    obtain ⟨rfl, -⟩ := Moment.acknowledged.inj hm
    refine ⟨h.uncovered_nil hp, ?_⟩
    have hlength : (Journal.rows j).length = k.rows.length := by rw [h.rows, List.length_map]
    rw [Books.rows_acknowledge, hlength, List.take_length]
    exact hl

/-- A journal tells of the books while a writer is open: all rows that are pending are its own. -/
def TellsOf (j : Journal) (n : Nat) (k : Books) : Prop :=
  Tells j k ∧ ∀ x ∈ Journal.uncovered j, x.1 = n

theorem Tells.tellsOf (h : Tells j k) (hp : k.pending = []) (n : Nat) : TellsOf j n k := by
  refine ⟨h, fun x hx => ?_⟩
  rw [h.uncovered_nil hp] at hx
  cases hx

theorem TellsOf.idle {n : Nat} (h : TellsOf j n k) (hrow : m.row? = none)
    (hack : m.acknowledged? = none) (hu : m.uncover (Journal.uncovered j) = Journal.uncovered j) :
    TellsOf (j ++ [m]) n k := by
  refine ⟨h.1.idle hrow hack hu, ?_⟩
  rw [uncovered_concat, hu]
  exact h.2

theorem TellsOf.wrote {n : Nat} (h : TellsOf j n k) (r : Record) (row : Value) :
    TellsOf (j ++ [.wrote n row (.ok ())]) n (k.write r row) := by
  refine ⟨h.1.wrote n r row, fun x hx => ?_⟩
  rw [uncovered_concat] at hx
  obtain hx | hx := List.mem_append.mp hx
  · exact h.2 x hx
  · rw [List.mem_singleton.mp hx]

end Journal

/-- The journal of any table writers keeps account of their rows. -/
def Backend.journaledAccounts (b : Backend W S) : b.journaled.Accounts where
  Opened w s k := s.1.TellsOf w.1 k
  Closed s k := s.1.Tells k
  create_ends _ h hp := create_ends (fun _ _ => Journal.Tells.tellsOf (h.idle rfl rfl rfl) hp _)
    fun _ _ => h.idle rfl rfl rfl
  updateSchema_ends _ h :=
    notedCall_ends (fun _ _ _ => h.idle rfl rfl rfl) fun _ _ _ => h.idle rfl rfl rfl
  write_ends {w s k} r row h := by
    show (notedCall (fun n => .wrote n row) (b.write row)).Ends (w, s) _ _
    exact notedCall_ends (fun _ _ _ => h.wrote r row) fun _ _ _ => h.idle rfl rfl rfl
  flush_ends {w s k} h hp := by
    refine notedCall_ends (fun done _ _ => ?_) fun _ _ _ => h.idle rfl rfl rfl
    cases done with
    | true => exact (h.1.flushed w.1 h.2).tellsOf rfl _
    | false => exact h.idle rfl rfl rfl
  close_ends h _ :=
    notedCall_ends (fun _ _ _ => h.1.idle rfl rfl rfl) fun _ _ _ => h.1.idle rfl rfl rfl
  acknowledge_ends {w s k r} h hp hl := by
    have hopened (result : Except Failure Unit) :
        Journal.TellsOf (s.1 ++ [.acknowledged r result]) w.1 (k.acknowledge r) :=
      (h.1.acknowledges hp hl result).tellsOf hp _
    show (noted (.acknowledged r) (b.acknowledge r)).Ends s _ _
    exact noted_ends (fun _ _ => hopened _) fun _ _ => hopened _

end StreamTable
