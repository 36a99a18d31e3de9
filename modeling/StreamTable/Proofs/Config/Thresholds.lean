/-
The check of the numbers among the settings, which looks at one after another.  A number that is
out of range is refused by name; a value that is no number cannot be compared, and ends the check in
another way; and a number that passes is in range, unless it is NaN, which is in no order with zero.
-/
import Mathlib.Tactic.SplitIfs
import StreamTable.Config.Settings
import StreamTable.Proofs.Action.Ends

namespace StreamTable

theorem Double.compareInt?_eq_none {x : Double} {n : Int} :
    x.compareInt? n = none ↔ x.isNaN = true := by
  rw [compareInt?]
  split_ifs with hnan <;> simp [hnan]

/-! ## Numbers and zero -/

namespace Value

/-- A number, whether in an order with others or a floating point NaN. -/
def IsDefined (v : Value) : Prop := v.isNumber = true ∧ v.isUndefinedDecimal = false

def IsNaN (v : Value) : Prop := ∃ x, v = .float x ∧ x.isNaN = true

variable {v : Value}

theorem IsDefined.compared (h : v.IsDefined) (accept : Ordering → Bool) (n : Int) :
    Value.compared accept v (.int n) = .ok ((compareNumbers? v (.int n)).any accept) := by
  rw [Value.compared, h.1, h.2]
  rfl

theorem compared_of_not_isDefined (h : ¬v.IsDefined) (accept : Ordering → Bool) (n : Int) :
    ∃ fault, Value.compared accept v (.int n) = .error fault := by
  rw [Value.compared]
  cases hnumber : v.isNumber with
  | false => exact ⟨_, rfl⟩
  | true =>
    cases hundefined : v.isUndefinedDecimal with
    | true => exact ⟨_, rfl⟩
    | false => exact absurd ⟨hnumber, hundefined⟩ h

theorem IsNaN.isDefined (h : v.IsNaN) : v.IsDefined := by
  obtain ⟨x, rfl, -⟩ := h
  exact ⟨rfl, rfl⟩

/-- Only NaN is in no order with an integer. -/
theorem IsDefined.compareNumbers?_eq_none (h : v.IsDefined) (n : Int) :
    compareNumbers? v (.int n) = none ↔ v.IsNaN := by
  obtain ⟨hnumber, hundefined⟩ := h
  match v with
  | .bool b => simp [compareNumbers?, asInt?, IsNaN]
  | .int m => simp [compareNumbers?, asInt?, IsNaN]
  | .float x =>
    have hcompare : compareNumbers? (.float x) (.int n) = x.compareInt? n := rfl
    simp [hcompare, Double.compareInt?_eq_none, IsNaN]
  | .decimal (.finite ..) =>
    simp [compareNumbers?, asInt?, compareNumbers?.ofInteger, Decimal.compare?, IsNaN]
  | .decimal (.infinite _) =>
    simp [compareNumbers?, asInt?, compareNumbers?.ofInteger, Decimal.compare?, IsNaN]
  | .decimal (.nan ..) => cases hundefined

end Value

namespace Settings

/-! ## One number -/

/-- A number among the settings: its name, its value, and whether it may be zero. -/
structure Threshold where
  name : String
  value : Value
  mayBeZero : Bool

namespace Threshold

variable {t : Threshold}

def check (t : Threshold) : Except Failure Unit :=
  if t.mayBeZero then requireNatural t.name t.value else requirePositive t.name t.value

/-- A number is in range: more than zero, or at least zero. -/
def Sound (t : Threshold) : Prop :=
  if t.mayBeZero then Value.atLeast t.value (.int 0) = .ok true
  else Value.exceeds t.value (.int 0) = .ok true

/-- The orders with zero that are in range. -/
def accepts (t : Threshold) (o : Ordering) : Bool := if t.mayBeZero then o != .lt else o == .gt

theorem sound_iff : t.Sound ↔ Value.compared t.accepts t.value (.int 0) = .ok true := by
  rw [Sound]
  split
  case isTrue h =>
    have haccepts : t.accepts = (· != .lt) := funext fun o => if_pos h
    rw [haccepts]
    rfl
  case isFalse h =>
    have haccepts : t.accepts = (· == .gt) := funext fun o => if_neg h
    rw [haccepts]
    rfl

instance (t : Threshold) : Decidable t.Sound :=
  decidable_of_iff (Except.passes id (Value.compared t.accepts t.value (.int 0)) = true) <| by
    rw [sound_iff]
    constructor
    · intro h
      obtain ⟨x, hx, hpasses⟩ := Except.of_passes h
      rw [hx, show x = true from hpasses]
    · intro h
      rw [h]
      rfl

/-- The check refuses the other orders. -/
theorem check_eq (t : Threshold) :
    ∃ fault, t.check = (Value.compared (fun o => !t.accepts o) t.value (.int 0)).mapError
      Failure.data >>= fun refused => if refused then .error (.config fault) else .ok () := by
  rw [check]
  split
  case isTrue h =>
    have hrefuses : (fun o => !t.accepts o) = (· == .lt) := by
      funext o
      rw [accepts, if_pos h]
      exact Bool.not_not _
    exact ⟨.negative t.name, by rw [hrefuses]; rfl⟩
  case isFalse h =>
    have hrefuses : (fun o => !t.accepts o) = (· != .gt) := by
      funext o
      rw [accepts, if_neg h]
      rfl
    exact ⟨.notPositive t.name, by rw [hrefuses]; rfl⟩

theorem check_of_not_isDefined (h : ¬t.value.IsDefined) :
    ∃ fault, t.check = .error (.data fault) := by
  obtain ⟨_, hcheck⟩ := t.check_eq
  obtain ⟨fault, hfault⟩ := Value.compared_of_not_isDefined h (fun o => !t.accepts o) 0
  rw [hfault] at hcheck
  exact ⟨fault, hcheck⟩

theorem check_of_isDefined (h : t.value.IsDefined) :
    t.check = .ok () ∨ ∃ fault, t.check = .error (.config fault) := by
  obtain ⟨fault, hcheck⟩ := t.check_eq
  rw [h.compared] at hcheck
  cases hrefused : (Value.compareNumbers? t.value (.int 0)).any fun o => !t.accepts o with
  | true => exact .inr ⟨fault, by rw [hcheck, hrefused]; rfl⟩
  | false => exact .inl (by rw [hcheck, hrefused]; rfl)

/-- What is in range passes, and beside that only NaN does. -/
theorem check_iff : t.check = .ok () ↔ t.Sound ∨ t.value.IsNaN := by
  by_cases hdefined : t.value.IsDefined
  · obtain ⟨fault, hcheck⟩ := t.check_eq
    rw [hdefined.compared] at hcheck
    rw [sound_iff, hdefined.compared, ← hdefined.compareNumbers?_eq_none 0, hcheck]
    cases Value.compareNumbers? t.value (.int 0) with
    | none => exact iff_of_true rfl (.inr rfl)
    | some o => cases haccepts : t.accepts o <;> simp [haccepts, Except.mapError, bind, Except.bind]
  · obtain ⟨fault, hcheck⟩ := check_of_not_isDefined hdefined
    obtain ⟨fault', hsound⟩ := Value.compared_of_not_isDefined hdefined t.accepts 0
    rw [hcheck, sound_iff, hsound]
    exact iff_of_false nofun fun h => h.elim nofun fun hnan => hdefined hnan.isDefined

end Threshold

/-! ## One after another -/

def checkAll : List Threshold → Except Failure Unit
  | [] => .ok ()
  | t :: ts => t.check >>= fun _ => checkAll ts

/-- The check comes to a value that cannot be compared: what stands before it passes. -/
inductive Stuck : List Threshold → Prop
  | here {t : Threshold} {ts : List Threshold} (h : ¬t.value.IsDefined) : Stuck (t :: ts)
  | later {t : Threshold} {ts : List Threshold} (ht : t.check = .ok ()) (h : Stuck ts) :
      Stuck (t :: ts)

variable {ts : List Threshold}

theorem Stuck.checkAll (h : Stuck ts) : ∃ fault, checkAll ts = .error (.data fault) := by
  induction h with
  | here h =>
    obtain ⟨fault, hfault⟩ := Threshold.check_of_not_isDefined h
    exact ⟨fault, by rw [Settings.checkAll, hfault]; rfl⟩
  | later ht _ ih =>
    obtain ⟨fault, hfault⟩ := ih
    exact ⟨fault, by rw [Settings.checkAll, ht]; exact hfault⟩

theorem checkAll_of_not_stuck (h : ¬Stuck ts) :
    checkAll ts = .ok () ∧ (∀ t ∈ ts, t.check = .ok ()) ∨
      ∃ fault, checkAll ts = .error (.config fault) := by
  induction ts with
  | nil => exact .inl ⟨rfl, List.forall_mem_nil _⟩
  | cons t ts ih =>
    have hdefined : t.value.IsDefined := by
      by_cases ht : t.value.IsDefined
      · exact ht
      · exact absurd (.here ht) h
    obtain ht | ⟨fault, ht⟩ := Threshold.check_of_isDefined hdefined
    · obtain ⟨hall, hpass⟩ | ⟨fault, hall⟩ := ih fun hts => h (.later ht hts)
      · exact .inl ⟨by rw [checkAll, ht]; exact hall, List.forall_mem_cons.mpr ⟨ht, hpass⟩⟩
      · exact .inr ⟨fault, by rw [checkAll, ht]; exact hall⟩
    · exact .inr ⟨fault, by rw [checkAll, ht]; rfl⟩

/-! ## Settings -/

/-- The numbers that are checked, in their order. -/
def thresholds (s : Settings) : List Threshold :=
  [⟨"max_commit_interval", s.maxCommitInterval, false⟩,
    ⟨"max_records_per_commit", s.maxRecordsPerCommit, false⟩,
    ⟨"max_commit_failed_times", s.maxCommitFailedTimes, true⟩,
    ⟨"queue_size", s.queueSize, false⟩, ⟨"poll_timeout_ms", s.pollTimeoutMs, false⟩]

/-- The numbers are in range, and a kind of storage is named. -/
structure Sound (s : Settings) : Prop where
  maxCommitInterval : Value.exceeds s.maxCommitInterval (.int 0) = .ok true
  maxRecordsPerCommit : Value.exceeds s.maxRecordsPerCommit (.int 0) = .ok true
  maxCommitFailedTimes : Value.atLeast s.maxCommitFailedTimes (.int 0) = .ok true
  queueSize : Value.exceeds s.queueSize (.int 0) = .ok true
  pollTimeoutMs : Value.exceeds s.pollTimeoutMs (.int 0) = .ok true
  storageType : (s.storageSetting "type").isTruthy = true

variable {s : Settings}

theorem sound_iff :
    s.Sound ↔ (∀ t ∈ s.thresholds, t.Sound) ∧ (s.storageSetting "type").isTruthy = true := by
  simp only [thresholds, List.forall_mem_cons, Threshold.Sound, Bool.false_eq_true, if_false,
    if_true]
  constructor
  · intro h
    exact ⟨⟨h.1, h.2, h.3, h.4, h.5, List.forall_mem_nil _⟩, h.6⟩
  · rintro ⟨⟨h₁, h₂, h₃, h₄, h₅, -⟩, h₆⟩
    exact ⟨h₁, h₂, h₃, h₄, h₅, h₆⟩

instance (s : Settings) : Decidable s.Sound := decidable_of_iff _ sound_iff.symm

theorem validate_eq (s : Settings) : s.validate = checkAll s.thresholds >>= fun _ =>
    if (s.storageSetting "type").isTruthy then .ok ()
    else .error (.config .storageTypeMissing) := by
  simp only [checkAll, thresholds, bind_assoc]
  rw [validate]
  cases (s.storageSetting "type").isTruthy <;> rfl

/-- What the check should not let happen: that it gets stuck, or that NaN passes for a number. -/
inductive Flawed (s : Settings) : Prop
  | stuck (h : Stuck s.thresholds)
  | nan {t : Threshold} (h : s.validate = .ok ()) (ht : t ∈ s.thresholds) (hnan : t.value.IsNaN)

/-- NaN is not in range. -/
theorem Threshold.Sound.not_isNaN {t : Threshold} (h : t.Sound) : ¬t.value.IsNaN := by
  intro hnan
  rw [Threshold.sound_iff, hnan.isDefined.compared,
    (hnan.isDefined.compareNumbers?_eq_none 0).mpr hnan] at h
  cases h

/-- The check either refuses settings or finds them sound, unless they are flawed. -/
theorem validate_iff :
    (∃ fault, s.validate = .error (.config fault)) ∨ s.validate = .ok () ∧ s.Sound ↔
      ¬s.Flawed := by
  constructor
  · rintro (⟨fault, h⟩ | ⟨h, hsound⟩) hflawed
    · cases hflawed with
      | stuck hstuck =>
        obtain ⟨fault', hall⟩ := hstuck.checkAll
        rw [validate_eq, hall] at h
        cases h
      | nan hok => rw [hok] at h; cases h
    · cases hflawed with
      | stuck hstuck =>
        obtain ⟨fault', hall⟩ := hstuck.checkAll
        rw [validate_eq, hall] at h
        cases h
      | nan _ ht hnan => exact ((sound_iff.mp hsound).1 _ ht).not_isNaN hnan
  · intro hflawed
    have hstuck : ¬Stuck s.thresholds := fun h => hflawed (.stuck h)
    obtain ⟨hall, hpass⟩ | ⟨fault, hall⟩ := checkAll_of_not_stuck hstuck
    · by_cases htype : (s.storageSetting "type").isTruthy = true
      · have hok : s.validate = .ok () := by
          rw [validate_eq, hall, if_pos htype]
          rfl
        refine .inr ⟨hok, sound_iff.mpr ⟨fun t ht => ?_, htype⟩⟩
        exact (Threshold.check_iff.mp (hpass t ht)).resolve_right fun hnan =>
          hflawed (.nan hok ht hnan)
      · refine .inl ⟨.storageTypeMissing, ?_⟩
        rw [validate_eq, hall, if_neg htype]
        rfl
    · exact .inl ⟨fault, by rw [validate_eq, hall]; rfl⟩

end Settings
end StreamTable
