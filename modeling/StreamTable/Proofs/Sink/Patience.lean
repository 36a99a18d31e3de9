/-
How long a loop is patient, and how much it lets pile up.  While a loop runs, its window counts the
commits that were not done since the last one that was, over all writers; they are no more than the
limit, and each lets one more row pile up.  A loop that has run out of patience has met just one
failure more than the limit.
-/
import StreamTable.Proofs.Sink.Survival
import StreamTable.Proofs.Sink.Traced

namespace StreamTable

/-! ## Numbers that are integers -/

namespace Value

variable {v w : Value} {m n : Int}

theorem compared_of_asInt {accept : Ordering → Bool} (hv : v.asInt? = some m)
    (hw : w.asInt? = some n) : compared accept v w = .ok (accept (compare m n)) := by
  -- What stands for an integer is an integer or a truth value.
  have hcases : ∀ {u : Value} {k : Int}, u.asInt? = some k →
      u = .int k ∨ ∃ x, u = .bool x ∧ k = if x then 1 else 0 := by
    intro u k hu
    cases u with
    | int _ => exact .inl (congrArg Value.int (Option.some.inj hu))
    | bool x => exact .inr ⟨x, rfl, (Option.some.inj hu).symm⟩
    | _ => cases hu
  obtain rfl | ⟨x, rfl, rfl⟩ := hcases hv
  · obtain rfl | ⟨y, rfl, rfl⟩ := hcases hw <;> rfl
  · obtain rfl | ⟨y, rfl, rfl⟩ := hcases hw <;> rfl

theorem exceeds_of_asInt (hv : v.asInt? = some m) (hw : w.asInt? = some n) :
    exceeds v w = .ok (decide (n < m)) := by
  rw [exceeds, compared_of_asInt hv hw, Except.ok.injEq, Bool.eq_iff_iff, beq_iff_eq,
    decide_eq_true_iff, Int.compare_eq_gt]

theorem fallsShortOf_of_asInt (hv : v.asInt? = some m) (hw : w.asInt? = some n) :
    fallsShortOf v w = .ok (decide (m < n)) := by
  rw [fallsShortOf, compared_of_asInt hv hw, Except.ok.injEq, Bool.eq_iff_iff, beq_iff_eq,
    decide_eq_true_iff, Int.compare_eq_lt]

theorem atLeast_of_asInt (hv : v.asInt? = some m) (hw : w.asInt? = some n) :
    atLeast v w = .ok (decide (n ≤ m)) := by
  rw [atLeast, compared_of_asInt hv hw, Except.ok.injEq, Bool.eq_iff_iff, bne_iff_ne,
    decide_eq_true_iff, Int.compare_ne_lt]

theorem atMost_of_asInt (hv : v.asInt? = some m) (hw : w.asInt? = some n) :
    atMost v w = .ok (decide (m ≤ n)) := by
  rw [atMost, compared_of_asInt hv hw, Except.ok.injEq, Bool.eq_iff_iff, bne_iff_ne,
    decide_eq_true_iff, Int.compare_ne_gt]

end Value

/-- Limits that were checked and are integers leave room for a row, and for no failures. -/
theorem Settings.bounds {s : Settings} (hs : s.validate = .ok ()) {rows limit : Int}
    (hrows : s.maxRecordsPerCommit.asInt? = some rows)
    (hlimit : s.maxCommitFailedTimes.asInt? = some limit) : 1 ≤ rows ∧ 0 ≤ limit := by
  obtain ⟨hmost, hshort⟩ := validate_ok hs
  rw [Value.atMost_of_asInt hrows rfl] at hmost
  rw [Value.fallsShortOf_of_asInt hlimit rfl] at hshort
  have hpositive := of_decide_eq_false (Except.ok.inj hmost)
  have hnatural := of_decide_eq_false (Except.ok.inj hshort)
  omega

/-! ## Failures that a trace shows -/

namespace Call

/-- How many commits in a row were not done, up to a call. -/
def countFailure (failures : Nat) : Call → Nat
  | .flush _ (.ok true) => 0
  | .flush _ (.ok false) => failures + 1
  | _ => failures

/-- What a call failed with, unless it was to open a writer. -/
def failure? : Call → Option Failure
  | .updateSchema _ _ (.error f) | .write _ _ (.error f) | .flush _ (.error f)
  | .close _ (.error f) | .acknowledge _ (.error f) => some f
  | _ => none

end Call

/-- How many commits were not done since the last one that was. -/
def Trace.failuresInARow (t : Trace) : Nat := t.foldl Call.countFailure 0

@[simp]
theorem Trace.failuresInARow_concat (t : Trace) (call : Call) :
    failuresInARow (t ++ [call]) = call.countFailure (failuresInARow t) := by
  rw [failuresInARow, List.foldl_append]
  rfl

open StreamTable.Action

variable {W S : Type} {b : Backend W S} {limit rows : Int}

/-! ## The coordinator -/

namespace Coordinator

variable {c : Coordinator (Nat × W) (Trace × S)} {v : Value}

/-- The window counts the failures that the trace shows, and they are within the limit. -/
structure Patient (limit : Int) (c : Coordinator (Nat × W) (Trace × S)) : Prop where
  counted : c.window.failures = c.trace.failuresInARow
  within : (c.window.failures : Int) ≤ limit

/-- A failure to commit is met just after one failed commit more than the limit allows, unless a
table writer itself failed in that way. -/
def Accountable (limit : Int) (f : Failure) (c : Coordinator (Nat × W) (Trace × S)) : Prop :=
  ∀ n w, f = .commits n w →
    ((n : Int) = limit + 1 ∧ c.window.failures = n ∧ c.trace.failuresInARow = n) ∨
      ∃ call ∈ c.trace, call.failure? = some f

theorem accountable_of_ne {f : Failure} (h : ∀ n w, f ≠ .commits n w) : c.Accountable limit f :=
  fun n w hf => absurd hf (h n w)

theorem accountable_of_call {call : Call} {f : Failure} (hf : call.failure? = some f) (s : S) :
    (c.noting call s).Accountable limit f :=
  fun _ _ _ => .inr ⟨call, List.mem_append_right _ (List.mem_singleton_self call), hf⟩

/-- Calls that are no commits have no bearing on patience. -/
theorem Patient.call (h : c.Patient limit) (call : Call)
    (hcall : ∀ n, call.countFailure n = n) (s : S) : (c.noting call s).Patient limit := by
  refine ⟨?_, h.within⟩
  rw [trace_noting, Trace.failuresInARow_concat, hcall]
  exact h.counted

theorem Patient.committed {w : Nat} (h : c.Patient limit) (s : S) :
    (c.noting (.flush w (.ok true)) s).committed.Patient limit := by
  refine ⟨(Trace.failuresInARow_concat c.trace (.flush w (.ok true))).symm, ?_⟩
  have hwithin := h.within
  show ((0 : Nat) : Int) ≤ limit
  omega

theorem Patient.failuresInARow_failed {w : Nat} (h : c.Patient limit) (s : S) :
    (c.noting (.flush w (.ok false)) s).failedOnce.trace.failuresInARow =
      c.window.failures + 1 := by
  rw [h.counted]
  exact Trace.failuresInARow_concat _ _

theorem getOrCreate_patient (schema : Avro.Schema) (h : c.Patient limit) :
    (getOrCreate b.tracing schema).Ends c (fun _ c' => c'.Patient limit ∧ c'.window = c.window)
      (fun f c' => c'.Accountable limit f) := by
  apply getOrCreate_cases
  case hopen => exact fun _ _ => ⟨h, rfl⟩
  case hok =>
    intro w s _
    have hcalled := h.call (.create schema (.ok ())) (fun _ => rfl) s
    exact ⟨⟨hcalled.counted, hcalled.within⟩, rfl⟩
  case herror => exact fun f s _ => accountable_of_ne fun _ _ he => by cases he

theorem write_patient (row : Value) (h : c.Patient limit) :
    (write b.tracing row).Ends c (fun _ c' => c'.Patient limit ∧ c'.window = c.window)
      (fun f c' => c'.Accountable limit f) := by
  apply write_cases
  case hnone => exact fun _ => accountable_of_ne fun _ _ he => by cases he
  case hok =>
    intro w w' s _
    have hcalled := h.call (.write w.1 row (.ok ())) (fun _ => rfl) s
    exact ⟨⟨hcalled.counted, hcalled.within⟩, rfl⟩
  case herror => exact fun w f w' s _ => accountable_of_call (c := c) rfl s

/-- A commit that is not done is one failure more, and the last straw if the limit was reached. -/
theorem flush_patient (hv : v.asInt? = some limit) (h : c.Patient limit) :
    (flush b.tracing v).Ends c
      (fun done c' => c'.Patient limit ∧ c'.window.records = c.window.records ∧
        c'.window.failures = if done then 0 else c.window.failures + 1)
      (fun f c' => c'.Accountable limit f) := by
  apply flush_cases
  case hnone => exact fun _ => accountable_of_ne fun _ _ he => by cases he
  case hdone =>
    intro w w' s _
    have hcommitted := h.committed (w := w.1) s
    exact ⟨⟨hcommitted.counted, hcommitted.within⟩, rfl, rfl⟩
  case hfailed =>
    intro w w' s _
    have hrow := h.failuresInARow_failed (w := w.1) s
    have hwithin := h.within
    have hexceeds : Value.exceeds (.int (c.window.failures + 1 : Nat)) v =
        .ok (decide (limit < (c.window.failures + 1 : Nat))) := Value.exceeds_of_asInt rfl hv
    apply commitFailed_cases
    case hwithin =>
      intro he
      have := of_decide_eq_false (Except.ok.inj (hexceeds.symm.trans he))
      exact ⟨⟨hrow.symm, Int.not_lt.mp this⟩, rfl, rfl⟩
    case hbeyond =>
      intro he
      have := of_decide_eq_true (Except.ok.inj (hexceeds.symm.trans he))
      intro n u hf
      obtain ⟨rfl, -⟩ := Failure.commits.inj hf
      refine .inl ⟨?_, rfl, hrow⟩
      show ((c.window.failures + 1 : Nat) : Int) = limit + 1
      omega
    case hincomparable => exact fun fault => accountable_of_ne fun _ _ he => by cases he
  case herror => exact fun w f w' s _ => accountable_of_call (c := c) rfl s

theorem flushUntilDone_patient (hv : v.asInt? = some limit) (tries : Nat) :
    ∀ c : Coordinator (Nat × W) (Trace × S), c.Patient limit →
      limit + 1 ≤ tries + c.window.failures →
      (flushUntilDone b.tracing v tries).Ends c
        (fun _ c' => c'.Patient limit ∧ c'.window.failures = 0)
        (fun f c' => c'.Accountable limit f) := by
  -- Each attempt that is left makes up for one failure that is not met yet, so that the attempts
  -- cannot run out before the limit is exceeded.
  induction tries with
  | zero =>
    intro c h henough
    have := h.within
    omega
  | succ tries ih =>
    intro c h henough
    rw [flushUntilDone, ends_bind]
    refine (flush_patient hv h).mono (fun done c' hc => ?_) fun _ _ hc => hc
    obtain ⟨hpatient, -, hfailures⟩ := hc
    cases done with
    | true => exact ⟨hpatient, hfailures⟩
    | false =>
      have hmore : c'.window.failures = c.window.failures + 1 := hfailures
      exact ih c' hpatient (by omega)

/-- The patience that is left is that of the limit. -/
theorem patience_of_asInt (hv : v.asInt? = some limit) (failures : Nat) :
    limit + 1 ≤ patience v failures + failures := by
  have hpatience : patience v failures = (limit - failures).toNat + 1 := by
    cases v with
    | int k =>
      obtain rfl := Option.some.inj hv
      rfl
    | bool k =>
      obtain rfl := Option.some.inj hv
      rfl
    | _ => cases hv
  omega

theorem close_patient (h : c.Patient limit) :
    (close b.tracing).Ends c (fun _ c' => c'.Patient limit ∧ c'.window = c.window)
      (fun f c' => c'.Accountable limit f) := by
  apply close_cases
  case hnone => exact fun _ => ⟨h, rfl⟩
  case hok =>
    intro w s _
    have hcalled := h.call (.close w.1 (.ok ())) (fun _ => rfl) s
    exact ⟨⟨hcalled.counted, hcalled.within⟩, rfl⟩
  case herror => exact fun w f s _ => accountable_of_call (c := c) rfl s

theorem commitPending_patient (hv : v.asInt? = some limit) (h : c.Patient limit) {pending : Nat}
    (hpending : 0 < c.window.failures → 0 < pending) :
    (commitPending b.tracing v c.window.failures pending).Ends c
      (fun _ c' => c'.Patient limit ∧ c'.window.failures = 0)
      (fun f c' => c'.Accountable limit f) := by
  rw [commitPending, ends_ite]
  constructor
  · exact fun _ => flushUntilDone_patient hv _ c h (patience_of_asInt hv _)
  · intro hnone
    have hzero : c.window.failures = 0 := by omega
    exact ⟨h, hzero⟩

theorem replace_patient (schema : Avro.Schema) (h : c.Patient limit) :
    (replace b.tracing schema).Ends c (fun _ c' => c'.Patient limit ∧ c'.window = c.window)
      (fun f c' => c'.Accountable limit f) := by
  rw [replace, ends_bind]
  refine (close_patient h).mono (fun _ c₁ h₁ => ?_) fun _ _ h₁ => h₁
  refine (getOrCreate_patient schema h₁.1).mono (fun _ c₂ h₂ => ?_) fun _ _ h₂ => h₂
  exact ⟨h₂.1, h₂.2.trans h₁.2⟩

/-- A writer that is replaced has no failed commits left behind it. -/
theorem updateSchema_patient (hv : v.asInt? = some limit) (schema : Avro.Schema) {pending : Nat}
    (h : c.Patient limit) (hpending : 0 < c.window.failures → 0 < pending) :
    (updateSchema b.tracing v schema pending).Ends c
      (fun replaced c' => c'.Patient limit ∧
        if replaced then c'.window.failures = 0 else c'.window = c.window)
      (fun f c' => c'.Accountable limit f) := by
  apply updateSchema_cases
  case hnone => exact fun _ => getOrCreate_patient schema h
  case hkept =>
    intro w w' s _
    have hcalled := h.call (.updateSchema w.1 schema (.ok false)) (fun _ => rfl) s
    exact ⟨⟨hcalled.counted, hcalled.within⟩, rfl⟩
  case herror => exact fun w f w' s _ => accountable_of_call (c := c) rfl s
  case hreplaced =>
    intro w w' s c₁ _ hc₁
    have hcalled := h.call (.updateSchema w.1 schema (.ok true)) (fun _ => rfl) s
    have h₁ : c₁.Patient limit := hc₁ ▸ ⟨hcalled.counted, hcalled.within⟩
    have hfailures : c.window.failures = c₁.window.failures := by rw [hc₁]; rfl
    rw [hfailures] at hpending ⊢
    rw [ends_bind]
    refine (commitPending_patient hv h₁ hpending).mono (fun _ c₂ h₂ => ?_) fun _ _ h₂ => h₂
    refine (replace_patient schema h₂.1).mono (fun _ c₃ h₃ => ⟨h₃.1, ?_⟩) fun _ _ h₃ => h₃
    show c₃.window.failures = 0
    rw [h₃.2]
    exact h₂.2

/-- The failures are counted, some rows are pending if there are any, and the pending rows exceed a
bound by no more than the failures. -/
structure Paced (bound limit : Int) (c : Coordinator (Nat × W) (Trace × S)) : Prop
    extends c.Patient limit where
  pending : 0 < c.window.failures → 0 < c.window.records
  backlog : (c.window.records : Int) ≤ bound + c.window.failures

theorem Paced.weaken {bound bound' : Int} (h : c.Paced bound limit) (hb : bound ≤ bound') :
    c.Paced bound' limit := by
  have hbacklog := h.backlog
  exact ⟨h.toPatient, h.pending, by omega⟩

end Coordinator

/-! ## The loop -/

theorem Thresholds.not_due {t : Thresholds} (ht : t.maxRecords.asInt? = some rows) {now : Double}
    {w : Window} (h : t.isDue now w = .ok false) : (w.records : Int) < rows := by
  rw [isDue, reached] at h
  split at h
  · cases h
  · rw [Value.atLeast_of_asInt rfl ht] at h
    have := of_decide_eq_false (Except.ok.inj h)
    omega

namespace Loop

open Coordinator (accountable_of_ne accountable_of_call)

variable {p : Plan} {clock : Readings} {l : Loop (Nat × W) (Trace × S)}

theorem reset_paced (now : Double) (hrows : 1 ≤ rows) (h : l.coordinator.Patient limit)
    (hnone : l.coordinator.window.failures = 0) :
    (reset b.tracing now).Ends l (fun _ l' => l'.coordinator.Paced (rows - 1) limit)
      (fun f l' => l'.coordinator.Accountable limit f) := by
  have hfresh : ∀ c : Coordinator (Nat × W) (Trace × S), c.Patient limit → c.window.failures = 0 →
      Coordinator.Paced (rows - 1) limit { c with window := .opened now } := by
    intro c hc hzero
    have hwithin := hc.within
    refine ⟨⟨?_, ?_⟩, fun hpos => absurd hpos (Nat.lt_irrefl 0), ?_⟩
    · exact hzero.symm.trans hc.counted
    · show ((0 : Nat) : Int) ≤ limit
      omega
    · show ((0 : Nat) : Int) ≤ rows - 1 + (0 : Nat)
      omega
  apply reset_cases
  case hquiet => exact hfresh _ h hnone
  case hok => exact fun r s => hfresh _ (h.call _ (fun _ => rfl) s) hnone
  case herror => exact fun r f s => accountable_of_call (c := l.coordinator) rfl s

/-- One row too many makes a commit due, and if it is not done there is one failure more. -/
theorem commitIfDue_paced (hp : p.thresholds.maxRecords.asInt? = some rows) (hrows : 1 ≤ rows)
    (hv : p.limit.asInt? = some limit) (h : l.coordinator.Paced rows limit) :
    (commitIfDue p b.tracing clock).Ends l (fun _ l' => l'.coordinator.Paced (rows - 1) limit)
      (fun f l' => l'.coordinator.Accountable limit f) := by
  have hbacklog := h.backlog
  apply commitIfDue_cases
  case hidle =>
    intro hidle
    have hrecords : l.coordinator.window.records = 0 := hidle
    exact ⟨h.toPatient, h.pending, by omega⟩
  case hlater =>
    intro _ hdue
    have hrecords : (l.coordinator.window.records : Int) < rows := Thresholds.not_due hp hdue
    exact ⟨h.toPatient, h.pending, by omega⟩
  case hdue =>
    intro hpending _
    refine (Coordinator.flush_patient hv h.toPatient).mono (fun done c hc => ?_) fun _ _ hc => hc
    obtain ⟨hpatient, hrecords, hfailures⟩ := hc
    cases done with
    | true =>
      exact reset_paced (l := { l with coordinator := c }) clock.committed hrows hpatient hfailures
    | false =>
      have hmore : c.window.failures = l.coordinator.window.failures + 1 := hfailures
      refine ⟨hpatient, fun _ => ?_, ?_⟩
      · show 0 < c.window.records
        rw [hrecords]
        exact hpending
      · show (c.window.records : Int) ≤ rows - 1 + c.window.failures
        omega
  case hfault => exact fun fault _ => accountable_of_ne fun _ _ he => by cases he

theorem bind_paced (hrows : 1 ≤ rows) (hv : p.limit.asInt? = some limit) (schema : Avro.Schema)
    (binding : Binding) (h : l.coordinator.Paced (rows - 1) limit) :
    (bind p b.tracing clock schema binding).Ends l
      (fun _ l' => l'.coordinator.Paced (rows - 1) limit)
      (fun f l' => l'.coordinator.Accountable limit f) := by
  simp only [bind, ends_bind, ends_get]
  rw [ends_ite]
  refine ⟨fun _ => ?_, fun _ => h⟩
  simp only [ends_bind, ends_onCoordinator, ends_modify]
  refine (Coordinator.updateSchema_patient hv schema h.toPatient h.pending).mono
    (fun replaced c hc => ?_) fun _ _ hc => hc
  obtain ⟨hpatient, hwindow⟩ := hc
  cases replaced with
  | true => exact reset_paced _ hrows hpatient hwindow
  | false =>
    have hsame : c.window = l.coordinator.window := hwindow
    refine ⟨hpatient, ?_, ?_⟩
    · show 0 < c.window.failures → 0 < c.window.records
      rw [hsame]
      exact h.pending
    · show (c.window.records : Int) ≤ rows - 1 + c.window.failures
      rw [hsame]
      exact h.backlog

/-- A row that is written may be one too many. -/
theorem store_paced (r : Record) (schema : Avro.Schema) (row : Value)
    (h : l.coordinator.Paced (rows - 1) limit) :
    (store b.tracing r schema row).Ends l (fun _ l' => l'.coordinator.Paced rows limit)
      (fun f l' => l'.coordinator.Accountable limit f) := by
  simp only [store, ends_bind, ends_onCoordinator, ends_modify, ends_count]
  refine (Coordinator.getOrCreate_patient schema h.toPatient).mono (fun _ c hc => ?_)
    fun _ _ hc => hc
  refine (Coordinator.write_patient row hc.1).mono (fun _ c' hc' => ?_) fun _ _ hc' => hc'
  have hsame : c'.window = l.coordinator.window := hc'.2.trans hc.2
  have hbacklog := h.backlog
  refine ⟨⟨hc'.1.counted, hc'.1.within⟩, fun _ => Nat.succ_pos _, ?_⟩
  show ((c'.window.records + 1 : Nat) : Int) ≤ rows + c'.window.failures
  rw [hsame]
  omega

/-- Counts of records and the active schema do not matter. -/
theorem following_paced {changed : Bool} {a : ActiveSchema} {bound : Int}
    (h : l.coordinator.Paced bound limit) :
    (l.following changed a).coordinator.Paced bound limit :=
  ⟨⟨h.counted, h.within⟩, h.pending, h.backlog⟩

theorem handle_paced (hp : p.thresholds.maxRecords.asInt? = some rows) (hrows : 1 ≤ rows)
    (hv : p.limit.asInt? = some limit) (r : Record) (h : l.coordinator.Paced (rows - 1) limit) :
    (handle p b.tracing clock r).Ends l (fun _ l' => l'.coordinator.Paced (rows - 1) limit)
      (fun f l' => l'.coordinator.Accountable limit f) := by
  apply handle_ends rfl
  case hskipped => exact fun _ => ⟨⟨h.counted, h.within⟩, h.pending, h.backlog⟩
  case hrefused =>
    intro f hf
    refine accountable_of_ne fun n w he => ?_
    have hschema := ActiveSchema.receive_refused_ofSchema hf
    rw [he] at hschema
    cases hschema
  case hadmitted =>
    intro schema binding _
    apply deliver_cases
    refine (bind_paced hrows hv schema binding (following_paced h)).mono (fun _ l₁ h₁ => ?_)
      fun _ _ h₁ => h₁
    have hdecoding : (l₁.decoding p r schema).coordinator.Paced (rows - 1) limit := h₁
    split
    · exact ⟨⟨h₁.counted, h₁.within⟩, h₁.pending, h₁.backlog⟩
    · exact (store_paced r schema _ hdecoding).mono (fun _ _ h₂ => commitIfDue_paced hp hrows hv h₂)
        fun _ _ h₂ => h₂

theorem iterate_paced (hp : p.thresholds.maxRecords.asInt? = some rows) (hrows : 1 ≤ rows)
    (hv : p.limit.asInt? = some limit) (timeout : Double)
    (h : l.coordinator.Paced (rows - 1) limit) :
    (iterate p b.tracing clock timeout).Ends l
      (fun _ l' => l'.coordinator.Paced (rows - 1) limit)
      (fun f l' => l'.coordinator.Accountable limit f) := by
  refine iterate_cases (fun _ _ => accountable_of_ne fun _ _ he => by cases he) (fun _ => ?_)
    fun r rest _ => ?_
  · exact commitIfDue_paced hp hrows hv (h.weaken (by omega))
  · exact handle_paced (l := { l with queue := rest }) hp hrows hv r h

/-- What holds of a loop at all times: it is paced while it runs, and a failure to commit that has
stopped it is accounted for. -/
structure Temperate (rows limit : Int) (l : Loop (Nat × W) (Trace × S)) : Prop where
  healthy : l.Healthy
  paced : l.running = true → l.coordinator.Paced (rows - 1) limit
  accountable : ∀ f, l.lastError = some f → l.coordinator.Accountable limit f

theorem start_temperate (hrows : 1 ≤ rows) (hlimit : 0 ≤ limit) (world : S) (now : Double) :
    Temperate rows limit (start ([], world) now : Loop (Nat × W) (Trace × S)) := by
  refine ⟨start_healthy _ now, fun _ => ⟨⟨rfl, hlimit⟩, fun h => absurd h (Nat.lt_irrefl 0), ?_⟩,
    fun f hf => by cases hf⟩
  show ((0 : Nat) : Int) ≤ rows - 1 + (0 : Nat)
  omega

theorem advance_temperate (hp : p.thresholds.maxRecords.asInt? = some rows) (hrows : 1 ≤ rows)
    (hv : p.limit.asInt? = some limit) (timeout : Double) :
    (advance p b.tracing clock timeout).Maintains (Temperate rows limit) := by
  intro l h
  refine advance_cases (fun _ => h) fun hrunning => ?_
  have hhealthy : (iterate p b.tracing clock timeout).Ends l (fun _ l' => l'.Healthy)
      (fun _ l' => l'.Healthy) := iterate_healthy timeout h.healthy
  have hstanding := (iterate_standing (p := p) (b := b.tracing) clock timeout).ends l
  refine (((iterate_paced hp hrows hv timeout (h.paced hrunning)).and hhealthy).and hstanding).mono
    (fun _ l' hl' => ?_) fun f l' hl' => ?_
  · obtain ⟨⟨hpaced, hhealthy⟩, hstanding⟩ := hl'
    have hrunning' : l'.running = true := (congrArg Prod.fst hstanding).trans hrunning
    refine ⟨hhealthy, fun _ => hpaced, fun f hf => ?_⟩
    rw [hhealthy.lastError hrunning'] at hf
    cases hf
  · obtain ⟨⟨haccountable, hhealthy⟩, -⟩ := hl'
    refine ⟨⟨hhealthy.active, fun hr => by cases hr⟩, fun hr => (by cases hr), fun g hg => ?_⟩
    obtain rfl := Option.some.inj hg
    exact haccountable

theorem after_temperate (hp : p.thresholds.maxRecords.asInt? = some rows) (hrows : 1 ≤ rows)
    (hv : p.limit.asInt? = some limit) (events : List Event) (h : l.Temperate rows limit) :
    (after p b.tracing events l).Temperate rows limit := by
  induction events generalizing l with
  | nil => exact h
  | cons e events ih =>
    refine ih ?_
    cases e with
    | put r => exact ⟨⟨h.healthy.active, h.healthy.lastError⟩, h.paced, h.accountable⟩
    | iterate clock timeout => exact advance_temperate hp hrows hv timeout l h

/-- Whatever the table writers answer and wherever they fail, under settings that were checked and
whose limits are integers: while a loop runs, its window counts the commits that were not done since
the last one that was, as a trace of the calls shows them.  They are no more than the limit, there
are none unless rows are pending, and the pending rows are fewer than make a commit due, but for one
more with each failure.  A loop that a failure to commit has stopped has met one failure more than
the limit, if no table writer failed in that way itself. -/
theorem patience_and_backlog_bounded {s : Settings} (hs : s.validate = .ok ())
    (hp : Plan.ofSettings s = .ok p) (hrows : s.maxRecordsPerCommit.asInt? = some rows)
    (hlimit : s.maxCommitFailedTimes.asInt? = some limit) (b : Backend W S) (events : List Event)
    (world : S) (now : Double) :
    let l := after p b events (start world now)
    let traced := after p b.tracing events (start ([], world) now)
    traced.map Prod.snd Prod.snd = l ∧
      (l.running = true →
        l.window.failures = traced.trace.failuresInARow ∧
        (l.window.failures : Int) ≤ limit ∧
        (0 < l.window.failures → 0 < l.window.records) ∧
        (l.window.records : Int) ≤ rows - 1 + l.window.failures) ∧
      ∀ n v, l.lastError = some (.commits n v) →
        ((n : Int) = limit + 1 ∧ l.window.failures = n ∧ traced.trace.failuresInARow = n) ∨
          ∃ call ∈ traced.trace, call.failure? = some (.commits n v) := by
  intro l traced
  have hmap : traced.map Prod.snd Prod.snd = l := map_after b.tracing_mirrors events _
  obtain ⟨-, hmax, hv⟩ := Plan.ofSettings_ok hp
  obtain ⟨hone, hnatural⟩ := Settings.bounds hs hrows hlimit
  have htemperate : traced.Temperate rows limit :=
    after_temperate (hmax ▸ hrows) hone (hv ▸ hlimit) events
      (start_temperate hone hnatural world now)
  refine ⟨hmap, fun hrunning => ?_, fun n v hstopped => ?_⟩
  · rw [← hmap] at hrunning ⊢
    have hpaced := htemperate.paced hrunning
    exact ⟨hpaced.counted, hpaced.within, hpaced.pending, hpaced.backlog⟩
  · rw [← hmap] at hstopped ⊢
    exact htemperate.accountable _ hstopped n v rfl

end Loop

/-! ## Patience that runs out -/

/-- Table writers that take every row and never commit. -/
def Backend.unwilling : Backend Unit Unit where
  create _ := Pure.pure ()
  name _ := "unwilling"
  updateSchema _ := Pure.pure false
  write _ := Pure.pure ()
  flush := Pure.pure false
  close := Pure.pure ()

/-- Settings that ask for a commit after each row, and put up with one failure. -/
def Settings.impatient : Settings :=
  { Settings.default with maxRecordsPerCommit := .int 1, maxCommitFailedTimes := .int 1 }

namespace Loop

/-- A record is written, and two commits are not done. -/
def unwillingEvents : List Event :=
  [.put ordinary, .iterate (.still .zero) .zero, .iterate (.still .zero) .zero]

theorem patience_exhausted : ∃ p, Plan.ofSettings Settings.impatient = .ok p ∧
    let l := after p .unwilling unwillingEvents (start () .zero)
    (∃ n v, l.lastError = some (.commits n v) ∧ (n : Int) = 1 + 1 ∧ l.window.failures = n) ∧
      l.running = false := by
  have hvalid : Except.passes (fun _ => true) Settings.impatient.validate = true := by
    decide +kernel
  have hrun : Except.passes (fun p =>
      let l := after p .unwilling unwillingEvents (start () .zero)
      let traced := after p (Backend.unwilling.tracing) unwillingEvents (start ([], ()) .zero)
      (l.lastError.any fun f => match f with | .commits .. => true | _ => false) ∧
        l.running = false ∧ traced.trace.all (fun call => call.failure?.isNone) = true)
      (Plan.ofSettings Settings.impatient) = true := by
    decide +kernel
  obtain ⟨⟨⟩, hvalid, -⟩ := Except.of_passes hvalid
  obtain ⟨p, hp, hrun⟩ := Except.of_passes hrun
  obtain ⟨hstopped, hrunning, hquiet⟩ := of_decide_eq_true hrun
  have h := patience_and_backlog_bounded hvalid hp rfl rfl .unwilling unwillingEvents () .zero
  refine ⟨p, hp, ?_, hrunning⟩
  obtain ⟨f, hf, hcommits⟩ := (Option.any_eq_true _ _).mp hstopped
  cases f with
  | commits n v =>
    refine ⟨n, v, hf, ?_⟩
    obtain ⟨hn, hfailures, -⟩ | ⟨call, hcall, hfailure⟩ := h.2.2 n v hf
    · exact ⟨hn, hfailures⟩
    · have := List.all_eq_true.mp hquiet call hcall
      rw [hfailure] at this
      cases this
  | _ => cases hcommits

end Loop
end StreamTable
