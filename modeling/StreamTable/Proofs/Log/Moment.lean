/-
The time that a line tells.  Seconds are turned into microseconds with two roundings, one of the
product and one to the nearest integer, and yet the result is less than a microsecond away from the
exact time (`toMicros_close`).  There is a time to tell as long as the calendar reaches it.
-/
import Mathlib.Tactic.Ring
import StreamTable.Log.Line

namespace StreamTable
namespace Double

/-! ## Microseconds -/

/-- The nearest integer is at most half a unit away. -/
theorem roundFraction_close (n : Int) {d : Nat} (hd : 0 < d) :
    2 * (roundFraction (n, d) * d - n).natAbs ≤ d := by
  have hdiv : d * Int.fdiv n d + Int.fmod n d = n := Int.mul_fdiv_add_fmod n d
  have hlow : 0 ≤ Int.fmod n d := Int.fmod_nonneg_of_pos n (by omega)
  have hhigh : Int.fmod n d < d := Int.fmod_lt_of_pos n (by omega)
  have hround : roundFraction (n, d) = Int.fdiv n d ∧ 2 * Int.fmod n d ≤ d ∨
      roundFraction (n, d) = Int.fdiv n d + 1 ∧ d ≤ 2 * Int.fmod n d := by
    rw [roundFraction]
    dsimp only
    split
    case h_1 h => exact .inl ⟨rfl, (compare_lt_iff_lt.mp h).le⟩
    case h_2 h => exact .inr ⟨rfl, (compare_gt_iff_gt.mp h).le⟩
    case h_3 h =>
      have hhalf := compare_eq_iff_eq.mp h
      split
      · exact .inl ⟨rfl, hhalf.le⟩
      · exact .inr ⟨rfl, hhalf.ge⟩
  obtain ⟨hq, hr⟩ | ⟨hq, hr⟩ := hround
  · rw [hq, Int.mul_comm]
    omega
  · rw [hq, Int.add_mul, Int.mul_comm, Int.one_mul]
    omega

/-- What the first 53 binary digits leave of an integer is small beside it. -/
theorem leadingBits_close {n : Int} {d : Nat} (h : n.natAbs < Nat.pow 2 52 * d) :
    2 * (leadingBits n - n).natAbs < d := by
  have hclose : 2 * (leadingBits n - n).natAbs ≤ Nat.pow 2 (Nat.log2 n.natAbs - 52) :=
    roundFraction_close n (Nat.pow_pos (by decide))
  by_cases hlog : Nat.log2 n.natAbs ≤ 52
  · -- nothing is rounded away
    rw [Nat.sub_eq_zero_of_le hlog] at hclose
    have hone : Nat.pow 2 0 = 1 := rfl
    have hd : 0 < d := Nat.pos_of_mul_pos_left (Nat.zero_lt_of_lt h)
    omega
  · have hn : n.natAbs ≠ 0 := by
      intro hzero
      rw [hzero] at hlog
      exact hlog (by decide)
    have hsplit : Nat.pow 2 52 * Nat.pow 2 (Nat.log2 n.natAbs - 52) =
        Nat.pow 2 (Nat.log2 n.natAbs) :=
      (Nat.pow_add 2 52 _).symm.trans (congrArg (Nat.pow 2) (by omega))
    have hself : Nat.pow 2 (Nat.log2 n.natAbs) ≤ n.natAbs := Nat.log2_self_le hn
    have hunit : Nat.pow 2 (Nat.log2 n.natAbs - 52) < d :=
      Nat.lt_of_mul_lt_mul_left (a := Nat.pow 2 52) (by omega)
    omega

/-- A number of seconds and its microseconds are less than a microsecond apart. -/
theorem toMicros_close (x : Double) :
    (x.toMicros * x.fraction.2 - x.fraction.1 * 1000000).natAbs < x.fraction.2 := by
  have hd : 0 < x.fraction.2 := Nat.pow_pos (by decide)
  have hrest : (Int.tmod x.fraction.1 x.fraction.2).natAbs < x.fraction.2 := by
    rw [Int.natAbs_tmod]
    exact Nat.mod_lt _ hd
  have hbits : 2 * (leadingBits (Int.tmod x.fraction.1 x.fraction.2 * 1000000) -
      Int.tmod x.fraction.1 x.fraction.2 * 1000000).natAbs < x.fraction.2 := by
    refine leadingBits_close ?_
    change _ < 4503599627370496 * x.fraction.2
    omega
  have hround := roundFraction_close
    (leadingBits (Int.tmod x.fraction.1 x.fraction.2 * 1000000)) hd
  have hwhole := Int.mul_tdiv_add_tmod x.fraction.1 x.fraction.2
  have hmicros : x.toMicros * x.fraction.2 - x.fraction.1 * 1000000 =
      roundFraction (leadingBits (Int.tmod x.fraction.1 x.fraction.2 * 1000000), x.fraction.2) *
        x.fraction.2 - Int.tmod x.fraction.1 x.fraction.2 * 1000000 := by
    calc x.toMicros * x.fraction.2 - x.fraction.1 * 1000000
        = x.toMicros * x.fraction.2 - (x.fraction.2 * Int.tdiv x.fraction.1 x.fraction.2 +
            Int.tmod x.fraction.1 x.fraction.2) * 1000000 := by rw [hwhole]
      _ = _ := by
        rw [toMicros, truncate]
        ring
  rw [hmicros]
  omega

end Double

/-! ## Moments -/

theorem Date.isSome_ofOrdinal? {n : Int} : (ofOrdinal? n).isSome ↔ 1 ≤ n ∧ n ≤ maxOrdinal := by
  rw [ofOrdinal?]
  split
  case isTrue h => exact iff_of_true rfl h
  case isFalse h => exact iff_of_false nofun h

theorem Date.ordinal_of_ofOrdinal? {n : Int} {d : Date} (h : ofOrdinal? n = some d) :
    (d.ordinal : Int) = n := by
  rw [ofOrdinal?] at h
  split at h
  case isTrue hn =>
    cases h
    exact Int.toNat_of_nonneg (by omega)
  case isFalse => cases h

namespace DateTime

/-- The calendar reaches from the first day of the year 1 to the last of the year 9999. -/
theorem isSome_ofMicros? {micros : Int} {offset : Option Offset} :
    (ofMicros? micros offset).isSome ↔
      -62135596800000000 ≤ micros ∧ micros < 253402300800000000 := by
  have hday : 86400000000 * Int.fdiv micros 86400000000 + Int.fmod micros 86400000000 = micros :=
    Int.mul_fdiv_add_fmod micros 86400000000
  have hlow : 0 ≤ Int.fmod micros 86400000000 := Int.fmod_nonneg_of_pos micros (by decide)
  have hhigh : Int.fmod micros 86400000000 < 86400000000 := Int.fmod_lt_of_pos micros (by decide)
  have hdate : (ofMicros? micros offset).isSome =
      (Date.ofOrdinal? (Int.fdiv micros Clock.microsPerDay + Date.epochOrdinal)).isSome := by
    rw [ofMicros?]
    cases Date.ofOrdinal? (Int.fdiv micros Clock.microsPerDay + Date.epochOrdinal) <;> rfl
  rw [hdate, Date.isSome_ofOrdinal?]
  change 1 ≤ Int.fdiv micros 86400000000 + 719163 ∧
    Int.fdiv micros 86400000000 + 719163 ≤ 3652059 ↔ _
  omega

theorem instant_of_ofMicros? {micros : Int} {offset : Offset} {t : DateTime}
    (h : ofMicros? micros (some offset) = some t) :
    t.instant = micros - offset.micros ∧ t.clock.offset = some offset := by
  obtain ⟨date, hdate, h⟩ := Option.bind_eq_some_iff.mp h
  have hordinal := Date.ordinal_of_ofOrdinal? hdate
  cases h
  have hday := Int.mul_fdiv_add_fmod micros Clock.microsPerDay
  have hlow := Int.fmod_nonneg_of_pos micros (b := Clock.microsPerDay) (by decide)
  refine ⟨?_, rfl⟩
  rw [instant, localMicros, Date.sinceEpoch, hordinal]
  simp only [Clock.afterMidnight, Clock.lead, Option.map_some, Option.getD_some]
  rw [Int.toNat_of_nonneg hlow, Int.add_sub_cancel, Int.mul_comm]
  omega

end DateTime

namespace Log
namespace Event

/-- Whether the calendar reaches a time that is given in seconds after the epoch. -/
def OnCalendar (seconds : Double) : Prop :=
  seconds.isFinite = true ∧ -62135596800000000 ≤ seconds.toMicros ∧
    seconds.toMicros < 253402300800000000

instance (seconds : Double) : Decidable (OnCalendar seconds) := inferInstanceAs (Decidable (_ ∧ _))

/-- There is a time to tell if the calendar reaches it. -/
theorem isSome_momentOf? {seconds : Double} : (momentOf? seconds).isSome ↔ OnCalendar seconds := by
  rw [momentOf?, OnCalendar, ← @DateTime.isSome_ofMicros? _ (some .universal)]
  split
  case isTrue hfinite => simp [hfinite]
  case isFalse hinfinite => simp [hinfinite]

/-- Whether a point in time is that of an event, in universal time and to less than a
microsecond. -/
def Dates (seconds : Double) (t : DateTime) : Prop :=
  t.clock.offset = some .universal ∧
    (t.instant * seconds.fraction.2 - seconds.fraction.1 * 1000000).natAbs < seconds.fraction.2

/-- The time that is told is that of the event. -/
theorem dates_of_momentOf? {seconds : Double} {t : DateTime} (h : momentOf? seconds = some t) :
    Dates seconds t := by
  rw [momentOf?] at h
  split at h
  case isFalse => cases h
  case isTrue =>
    obtain ⟨hinstant, hoffset⟩ := DateTime.instant_of_ofMicros? h
    refine ⟨hoffset, ?_⟩
    rw [hinstant, Offset.universal, Int.sub_zero]
    exact seconds.toMicros_close

end Event
end Log
end StreamTable
