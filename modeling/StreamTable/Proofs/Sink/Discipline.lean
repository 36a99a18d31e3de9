/-
One writer at a time.  Whatever a coordinator is asked for and wherever a table writer fails, a
writer is opened only when all before it were closed, and every other call goes to the writer that
was opened last, as long as it has not been closed.
-/
import StreamTable.Proofs.Sink.Traced

namespace StreamTable

namespace Trace

/-- Every writer that was opened has been closed. -/
def AllClosed (t : Trace) : Prop := ∀ n < t.opened, n ∈ t.closed

/-- A writer is the last one that was opened, and it has not been closed. -/
def IsLast (t : Trace) (n : Nat) : Prop := n + 1 = t.opened ∧ n ∉ t.closed

/-- Whether a call keeps to one writer at a time. -/
def Permits (t : Trace) : Call → Prop
  | .create .. => t.AllClosed
  | .updateSchema n .. | .write n .. | .flush n _ | .close n _ => t.IsLast n
  | .acknowledge .. => True

/-- Each call keeps to one writer at a time, after those before it. -/
def Disciplined (t : Trace) : Prop :=
  ∀ earlier call later, t = earlier ++ call :: later → Permits earlier call

theorem disciplined_nil : Disciplined [] := by
  intro earlier call later h
  simp at h

variable {t : Trace} {n : Nat}

theorem Disciplined.concat (h : t.Disciplined) {call : Call} (hcall : t.Permits call) :
    Disciplined (t ++ [call]) := by
  intro earlier call' later ht
  obtain rfl | ⟨later, last, rfl⟩ := later.eq_nil_or_concat
  · obtain ⟨rfl, hlast⟩ := List.append_inj' ht rfl
    rwa [List.singleton_inj.mp hlast] at hcall
  · rw [List.concat_eq_append, ← List.cons_append, ← List.append_assoc] at ht
    obtain ⟨rfl, -⟩ := List.append_inj' ht rfl
    exact h earlier call' later rfl

/-- The calls were disciplined, and they have left one writer open, or none. -/
structure Leaves (t : Trace) (writer : Option Nat) : Prop where
  disciplined : t.Disciplined
  once : t.closed.Nodup
  known : ∀ n ∈ t.closed, n < t.opened
  /-- The writer that is open is the last one. -/
  last : ∀ n, writer = some n → t.IsLast n
  /-- All others are closed. -/
  others : ∀ n < t.opened, writer ≠ some n → n ∈ t.closed

theorem leaves_nil : Leaves [] none :=
  ⟨disciplined_nil, List.nodup_nil, fun _ h => (by cases h), fun _ h => (by cases h),
    fun _ h => (by cases h)⟩

theorem Leaves.allClosed (h : t.Leaves none) : t.AllClosed :=
  fun n hn => h.others n hn fun he => by cases he

/-- What is left open shows in the trace. -/
theorem Leaves.eq_none_iff {writer : Option Nat} (h : t.Leaves writer) :
    writer = none ↔ t.AllClosed := by
  constructor
  · rintro rfl
    exact h.allClosed
  · intro hall
    cases hw : writer with
    | none => rfl
    | some n =>
      obtain ⟨hn, hopen⟩ := h.last n hw
      exact absurd (hall n (by omega)) hopen

theorem Leaves.create (h : t.Leaves none) (schema : Avro.Schema) :
    Leaves (t ++ [.create schema (.ok ())]) (some t.opened) where
  disciplined := h.disciplined.concat h.allClosed
  once := by simpa [Call.closed?] using h.once
  known n hn := by
    simp only [closed_concat, Call.closed?, Option.toList_none, List.append_nil] at hn
    rw [opened_concat]
    exact Nat.lt_add_right _ (h.known n hn)
  last n hn := by
    obtain rfl := Option.some.inj hn
    refine ⟨by simp [Call.opens], ?_⟩
    simp only [closed_concat, Call.closed?, Option.toList_none, List.append_nil]
    exact fun hclosed => Nat.lt_irrefl _ (h.known _ hclosed)
  others n hn hne := by
    -- The new writer is the only one whose number was not given before.
    simp only [opened_concat, Call.opens, if_true] at hn
    have hlt : n < t.opened := by
      have : n ≠ t.opened := fun he => hne (congrArg some he.symm)
      omega
    simpa [Call.closed?] using h.allClosed n hlt

/-- A call that neither opens nor closes a writer leaves open what was open. -/
theorem Leaves.call {writer : Option Nat} {call : Call} (h : t.Leaves writer)
    (hcall : t.Permits call) (hopens : call.opens = false) (hcloses : call.closed? = none) :
    Leaves (t ++ [call]) writer := by
  have hopened : opened (t ++ [call]) = t.opened := by simp [hopens]
  have hclosed : closed (t ++ [call]) = t.closed := by simp [hcloses]
  refine ⟨h.disciplined.concat hcall, ?_, ?_, ?_, ?_⟩
  · rw [hclosed]
    exact h.once
  · rw [hclosed, hopened]
    exact h.known
  · unfold IsLast
    rw [hclosed, hopened]
    exact h.last
  · rw [hclosed, hopened]
    exact h.others

theorem Leaves.close (h : t.Leaves (some n)) (result : Except Failure Unit) :
    Leaves (t ++ [.close n result]) none := by
  obtain ⟨hn, hopen⟩ := h.last n rfl
  have hopened : opened (t ++ [.close n result]) = t.opened := by simp [Call.opens]
  have hclosed : closed (t ++ [.close n result]) = t.closed ++ [n] := by simp [Call.closed?]
  refine ⟨h.disciplined.concat ⟨hn, hopen⟩, ?_, ?_, fun _ he => (by cases he), ?_⟩
  · rw [hclosed, List.nodup_append]
    refine ⟨h.once, by simp, fun k hk m hm => ?_⟩
    rw [List.mem_singleton.mp hm]
    exact fun he => hopen (he ▸ hk)
  · rw [hclosed, hopened]
    intro k hk
    obtain hk | hk := List.mem_append.mp hk
    · exact h.known k hk
    · rw [List.mem_singleton.mp hk]
      omega
  · rw [hclosed, hopened]
    intro k hk _
    by_cases he : k = n
    · exact List.mem_append_right _ (List.mem_singleton.mpr he)
    · exact List.mem_append_left _ (h.others k hk fun h => he (Option.some.inj h).symm)

end Trace

open StreamTable.Action

variable {W S : Type} {b : Backend W S}

namespace Coordinator

/-- What a coordinator can be asked for. -/
inductive Operation where
  | getOrCreate (schema : Avro.Schema)
  | write (row : Value)
  | flush
  | updateSchema (schema : Avro.Schema) (pending : Int)
  | close

def perform (b : Backend W S) (limit : Value) : Operation → Action (Coordinator W S) Unit
  | .getOrCreate schema => do
    let _ ← getOrCreate b schema
    Pure.pure ()
  | .write row => write b row
  | .flush => do
    let _ ← flush b limit
    Pure.pure ()
  | .updateSchema schema pending => do
    let _ ← updateSchema b limit schema pending
    Pure.pure ()
  | .close => close b

/-- The coordinator after some operations, some of which may have failed. -/
def after (b : Backend W S) (limit : Value) : List Operation → Coordinator W S → Coordinator W S
  | [], c => c
  | o :: operations, c => after b limit operations ((perform b limit o).run c).state

/-- The coordinator holds the writer that its calls have left open. -/
structure Holds (c : Coordinator (Nat × W) (Trace × S)) : Prop where
  leaves : c.trace.Leaves (c.writer.map Prod.fst)
  opened : c.opened = c.trace.opened

theorem start_holds (world : S) (window : Window) :
    Holds (start ([], world) window : Coordinator (Nat × W) (Trace × S)) :=
  ⟨Trace.leaves_nil, rfl⟩

variable {limit : Value} {c c' : Coordinator (Nat × W) (Trace × S)}

theorem Holds.leaves_none (h : c.Holds) (hw : c.writer = none) : c.trace.Leaves none := by
  have := h.leaves
  rwa [hw] at this

theorem Holds.leaves_some {w : Nat × W} (h : c.Holds) (hw : c.writer = some w) :
    c.trace.Leaves (some w.1) := by
  have := h.leaves
  rwa [hw] at this

theorem Holds.committed (h : c.Holds) : c.committed.Holds := ⟨h.leaves, h.opened⟩

theorem Holds.failedOnce (h : c.Holds) : c.failedOnce.Holds := ⟨h.leaves, h.opened⟩

/-- A call of the open writer that does not close it leaves it open. -/
theorem Holds.call {w : Nat × W} {call : Call} (h : c.Holds) (hw : c.writer = some w)
    (hpermits : c.trace.IsLast w.1 → c.trace.Permits call) (hopens : call.opens = false)
    (hcloses : call.closed? = none) (w' : W) (s : S) :
    Holds ((c.noting call s).withWriter (w.1, w')) := by
  have hleaves := h.leaves_some hw
  refine ⟨hleaves.call (hpermits (hleaves.last w.1 rfl)) hopens hcloses, ?_⟩
  show c.opened = Trace.opened (c.trace ++ [call])
  rw [Trace.opened_concat, hopens, h.opened]
  rfl

/-! ## Each operation keeps to one writer -/

theorem getOrCreate_holds (schema : Avro.Schema) :
    (getOrCreate b.tracing schema).Maintains Holds := by
  refine maintains_of_ends fun c h => ?_
  apply getOrCreate_cases
  case hopen => exact fun _ _ => h
  case hok =>
    intro w s hw
    refine ⟨(h.leaves_none hw).create schema, ?_⟩
    show c.opened + 1 = Trace.opened (c.trace ++ [_])
    rw [Trace.opened_concat, h.opened]
    rfl
  case herror =>
    intro f s hw
    have hleaves := h.leaves_none hw
    refine ⟨?_, ?_⟩
    · show Trace.Leaves (c.trace ++ [_]) (c.writer.map Prod.fst)
      rw [hw]
      exact hleaves.call hleaves.allClosed rfl rfl
    · show c.opened = Trace.opened (c.trace ++ [_])
      rw [Trace.opened_concat, h.opened]
      rfl

theorem write_holds (row : Value) : (write b.tracing row).Maintains Holds := by
  refine maintains_of_ends fun c h => ?_
  exact write_cases (fun _ => h) (fun w w' s hw => h.call hw id rfl rfl w' s)
    fun w f w' s hw => h.call hw id rfl rfl w' s

theorem flush_holds : (flush b.tracing limit).Maintains Holds := by
  refine maintains_of_ends fun c h => ?_
  apply flush_cases
  case hnone => exact fun _ => h
  case hdone =>
    intro w w' s hw
    exact (h.call hw id rfl rfl w' s).committed
  case hfailed =>
    intro w w' s hw
    have hfailed : Holds ((c.noting (.flush w.1 (.ok false)) s).withWriter (w.1, w')).failedOnce :=
      (h.call hw id rfl rfl w' s).failedOnce
    exact commitFailed_cases (fun _ => hfailed) (fun _ => hfailed) fun _ => hfailed
  case herror => exact fun w f w' s hw => h.call hw id rfl rfl w' s

theorem flushUntilDone_holds (tries : Nat) :
    (flushUntilDone b.tracing limit tries).Maintains Holds := by
  induction tries with
  | zero => exact maintains_get.bind fun _ => maintains_fail _
  | succ tries ih => exact flush_holds.bind fun _ => maintains_ite (maintains_pure _) ih

theorem close_holds : (close b.tracing).Maintains Holds := by
  refine maintains_of_ends fun c h => ?_
  have hclosed (w : Nat × W) (s : S) (hw : c.writer = some w) (result : Except Failure Unit) :
      Holds (c.noting (.close w.1 result) s).released := by
    refine ⟨(h.leaves_some hw).close result, ?_⟩
    show c.opened = Trace.opened (c.trace ++ [_])
    rw [Trace.opened_concat, h.opened]
    rfl
  exact close_cases (fun _ => h) (fun w s hw => hclosed w s hw _) fun w f s hw => hclosed w s hw _

theorem updateSchema_holds (schema : Avro.Schema) (pending : Int) :
    (updateSchema b.tracing limit schema pending).Maintains Holds := by
  refine maintains_of_ends fun c h => ?_
  apply updateSchema_cases
  case hnone => exact fun _ => ((getOrCreate_holds schema).ends h)
  case hkept => exact fun w w' s hw => h.call hw id rfl rfl w' s
  case hreplaced =>
    intro w w' s c₁ hw hc₁
    have h₁ : c₁.Holds := hc₁ ▸ h.call hw id rfl rfl w' s
    have hcommit : (commitPending b.tracing limit c.window.failures pending).Maintains Holds :=
      maintains_ite (flushUntilDone_holds _) (maintains_pure ())
    have hreplace : (replace b.tracing schema).Maintains Holds :=
      close_holds.bind fun _ => getOrCreate_holds schema
    exact (hcommit.bind fun _ => hreplace).ends h₁
  case herror => exact fun w f w' s hw => h.call hw id rfl rfl w' s

theorem perform_holds (o : Operation) : (perform b.tracing limit o).Maintains Holds := by
  cases o with
  | getOrCreate schema => exact (getOrCreate_holds schema).bind fun _ => maintains_pure _
  | write row => exact write_holds row
  | flush => exact flush_holds.bind fun _ => maintains_pure _
  | updateSchema schema pending =>
    exact (updateSchema_holds schema pending).bind fun _ => maintains_pure _
  | close => exact close_holds

theorem after_holds (operations : List Operation) (h : c.Holds) :
    (after b.tracing limit operations c).Holds := by
  induction operations generalizing c with
  | nil => exact h
  | cons o operations ih => exact ih (perform_holds o c h)

/-! ## Runs -/

theorem perform_mirrors {W' S' : Type} {w : W → W'} {s : S → S'} {b' : Backend W' S'}
    (hb : b.Mirrors w s b') (o : Operation) :
    (perform b limit o).Mirrors (map w s) id (perform b' limit o) := by
  cases o with
  | getOrCreate schema => exact (getOrCreate_mirrors hb schema).bind fun _ => mirrors_pure rfl
  | write row => exact write_mirrors hb row
  | flush => exact (flush_mirrors hb limit).bind fun _ => mirrors_pure rfl
  | updateSchema schema pending =>
    exact (updateSchema_mirrors hb limit schema pending).bind fun _ => mirrors_pure rfl
  | close => exact close_mirrors hb

theorem map_after {W' S' : Type} {w : W → W'} {s : S → S'} {b' : Backend W' S'}
    (hb : b.Mirrors w s b') (operations : List Operation) (c : Coordinator W S) :
    (after b limit operations c).map w s = after b' limit operations (c.map w s) := by
  induction operations generalizing c with
  | nil => rfl
  | cons o operations ih =>
    have hstep : ((perform b limit o).run c).state.map w s =
        ((perform b' limit o).run (c.map w s)).state :=
      (congrArg Effect.state (perform_mirrors hb o c)).symm
    rw [after, ih, hstep]
    rfl

/-- Whatever a coordinator is asked for, and whatever its table writers answer or fail with: in the
trace of their calls, which does not change the course of the coordinator, a writer is opened only
when all before it were closed, each other call goes to the writer that was opened last and has not
been closed, and no writer is closed twice.  The coordinator counts the writers that were opened,
and it holds none just if all of them were closed. -/
theorem one_writer_at_a_time (b : Backend W S) (limit : Value) (operations : List Operation)
    (world : S) (window : Window) :
    let c := after b limit operations (start world window)
    let traced := after b.tracing limit operations (start ([], world) window)
    traced.map Prod.snd Prod.snd = c ∧
      traced.trace.Disciplined ∧
      traced.trace.closed.Nodup ∧
      c.opened = traced.trace.opened ∧
      (c.writer = none ↔ traced.trace.AllClosed) := by
  intro c traced
  have hmap : traced.map Prod.snd Prod.snd = c := map_after b.tracing_mirrors operations _
  have hholds : traced.Holds := after_holds operations (start_holds world window)
  refine ⟨hmap, hholds.leaves.disciplined, hholds.leaves.once, ?_, ?_⟩
  · rw [← hmap]
    exact hholds.opened
  · rw [← hmap, ← hholds.leaves.eq_none_iff]
    simp [map]

end Coordinator
end StreamTable
