import DistributedNas.Schedualer.Timer

/-
This file compares the milliseconds that `Timer::Arm` sets with those that `Timer::CheckDeadline` gives back.
-/

namespace DistributedNas.Timing

/-- The kernel takes a time with a fraction below one second. -/
structure Timespec.Valid (value : Timespec) : Prop where
  seconds : 0 ≤ value.tvSec
  nonnegative : 0 ≤ value.tvNsec
  below : value.tvNsec < 1000000000

instance (value : Timespec) : Decidable value.Valid :=
  decidable_of_iff (0 ≤ value.tvSec ∧ 0 ≤ value.tvNsec ∧ value.tvNsec < 1000000000)
    ⟨fun parts => ⟨parts.1, parts.2.1, parts.2.2⟩, fun valid => ⟨valid.seconds, valid.nonnegative, valid.below⟩⟩

/-- This is the time in nanoseconds. -/
def Timespec.nanoseconds (value : Timespec) : Int := value.tvSec * 1000000000 + value.tvNsec

/-- This is the number of whole milliseconds in the time. -/
def Timespec.wholeMilliseconds (value : Timespec) : Int := value.nanoseconds / 1000000

/-- A timer has a time until its next expiry and an interval after it. -/
structure Itimerspec where
  itInterval : Timespec
  itValue : Timespec
  deriving DecidableEq, Repr

/-- `Timer::Arm` fills this structure and passes it to `timer_settime`. -/
def itime (milli : Int) : Itimerspec where
  itInterval := ⟨0, 0⟩
  itValue := if 0 < milli then ⟨milli / 1000, milli % 1000 * 1000000⟩ else ⟨0, 1⟩

theorem arm_eq_timerSettime (now milli : Int) : arm now milli = timerSettime now (itime milli).itValue := rfl

section
variable {value smaller : Timespec}

/-- A timer gives back the valid time to which it was set, and zero for the zero time. -/
theorem timerGettime_timerSettime (valid : value.Valid) (now : Int) :
    timerGettime (timerSettime now value) now = value := by
  obtain ⟨seconds, nonnegative, below⟩ := valid
  unfold timerSettime
  split
  · next zero =>
      obtain ⟨tvSec, tvNsec⟩ := value
      obtain ⟨rfl, rfl⟩ : tvSec = 0 ∧ tvNsec = 0 := zero
      rfl
  · have whole : max 0 (now + value.tvSec * 1000000000 + value.tvNsec - now) =
        value.tvNsec + value.tvSec * 1000000000 := by omega
    simp only [timerGettime, whole]
    rw [Int.add_mul_ediv_right _ _ (by decide), Int.ediv_eq_zero_of_lt nonnegative below, zero_add,
      Int.add_mul_emod_self_right, Int.emod_eq_of_lt nonnegative below]

/-- `CheckDeadline` counts each whole second of the remaining time as one millisecond. -/
theorem checkDeadline_timerSettime (valid : value.Valid) (now : Int) :
    checkDeadline (timerSettime now value) now = value.tvNsec / 1000000 + value.tvSec := by
  rw [checkDeadline, timerGettime_timerSettime valid]

theorem wholeMilliseconds_eq (value : Timespec) :
    value.wholeMilliseconds = value.tvNsec / 1000000 + value.tvSec * 1000 := by
  have regrouped : value.nanoseconds = value.tvNsec + value.tvSec * 1000 * 1000000 := by
    unfold Timespec.nanoseconds
    ring
  rw [Timespec.wholeMilliseconds, regrouped, Int.add_mul_ediv_right _ _ (by decide)]

/-- `CheckDeadline` falls short of the remaining milliseconds by 999 for each second. -/
theorem checkDeadline_add (valid : value.Valid) (now : Int) :
    checkDeadline (timerSettime now value) now + value.tvSec * 999 = value.wholeMilliseconds := by
  rw [checkDeadline_timerSettime valid, wholeMilliseconds_eq]
  ring

/-- The whole milliseconds come back exactly when less than a second remains. -/
theorem checkDeadline_eq_wholeMilliseconds_iff (valid : value.Valid) (now : Int) :
    checkDeadline (timerSettime now value) now = value.wholeMilliseconds ↔ value.tvSec = 0 := by
  have short := checkDeadline_add valid now
  omega

/-- `Arm` installs a valid time that is not zero. -/
theorem itime_valid (milli : Int) : (itime milli).itValue.Valid ∧ (itime milli).itValue ≠ ⟨0, 0⟩ := by
  unfold itime
  split
  · next positive =>
      have cut := Int.emod_add_mul_ediv milli 1000
      have fraction := Int.emod_nonneg milli (show (1000 : Int) ≠ 0 by decide)
      have bounded := Int.emod_lt_of_pos milli (show (0 : Int) < 1000 by decide)
      refine ⟨⟨Int.ediv_nonneg positive.le (by decide), by simp only; omega, by simp only; omega⟩, ?_⟩
      intro zero
      obtain ⟨seconds, nanoseconds⟩ := Timespec.mk.inj zero
      omega
  · exact ⟨by decide, by decide⟩

/-- A positive delay is installed without a loss. -/
theorem itime_nanoseconds {milli : Int} (positive : 0 < milli) :
    (itime milli).itValue.nanoseconds = milli * 1000000 := by
  have cut := Int.emod_add_mul_ediv milli 1000
  rw [itime, if_pos positive]
  unfold Timespec.nanoseconds
  simp only
  omega

theorem itime_wholeMilliseconds {milli : Int} (positive : 0 < milli) :
    (itime milli).itValue.wholeMilliseconds = milli := by
  rw [Timespec.wholeMilliseconds, itime_nanoseconds positive]
  exact Int.mul_ediv_cancel _ (by decide)

/-- The installed seconds vanish exactly below one second. -/
theorem itime_tvSec {milli : Int} (positive : 0 < milli) : (itime milli).itValue.tvSec = 0 ↔ milli < 1000 := by
  rw [itime, if_pos positive]
  simp only
  omega

/-- `Arm` installs a valid time, and `CheckDeadline` gives a positive delay back. -/
structure Inverse (now milli : Int) : Prop where
  valid : (itime milli).itValue.Valid
  arms : (itime milli).itValue ≠ ⟨0, 0⟩
  exact : 0 < milli → (itime milli).itValue.nanoseconds = milli * 1000000
  returned : 0 < milli → checkDeadline (arm now milli) now = milli

/-- `CheckDeadline` gives the whole milliseconds of a remaining time, and no more for a smaller one. -/
structure ReadsMilliseconds (now : Int) (value : Timespec) : Prop where
  whole : checkDeadline (timerSettime now value) now = value.wholeMilliseconds
  monotone : ∀ smaller : Timespec, smaller.Valid → smaller.nanoseconds ≤ value.nanoseconds →
    checkDeadline (timerSettime now smaller) now ≤ checkDeadline (timerSettime now value) now

/-- A delay comes back from the timer exactly when it is below one second. -/
theorem inverse_iff (now milli : Int) : Inverse now milli ↔ milli < 1000 := by
  have ⟨valid, arms⟩ := itime_valid milli
  by_cases positive : 0 < milli
  · have back := checkDeadline_eq_wholeMilliseconds_iff valid now
    rw [itime_wholeMilliseconds positive, itime_tvSec positive, ← arm_eq_timerSettime] at back
    constructor
    · intro inverse
      exact back.mp (inverse.returned positive)
    · intro small
      exact ⟨valid, arms, itime_nanoseconds, fun _ => back.mpr small⟩
  · have early : milli < 1000 := by omega
    exact iff_of_true ⟨valid, arms, fun wrong => absurd wrong positive, fun wrong => absurd wrong positive⟩ early

/-- A remaining time is read right exactly when it is below one second. -/
theorem readsMilliseconds_iff (valid : value.Valid) (now : Int) : ReadsMilliseconds now value ↔ value.tvSec = 0 := by
  have whole := checkDeadline_eq_wholeMilliseconds_iff valid now
  refine ⟨fun reads => whole.mp reads.whole, fun zero => ⟨whole.mpr zero, ?_⟩⟩
  intro smaller other least
  have fewer : smaller.wholeMilliseconds ≤ value.wholeMilliseconds := Int.ediv_le_ediv (by decide) least
  have seconds := other.seconds
  have short := checkDeadline_add other now
  rw [whole.mpr zero]
  omega

/-- No smaller time reads higher exactly below one second and from the 998th millisecond of each later second on. -/
theorem checkDeadline_monotone_iff (valid : value.Valid) (now : Int) :
    (∀ smaller : Timespec, smaller.Valid → smaller.nanoseconds ≤ value.nanoseconds →
        checkDeadline (timerSettime now smaller) now ≤ checkDeadline (timerSettime now value) now) ↔
      value.tvSec = 0 ∨ 998000000 ≤ value.tvNsec := by
  obtain ⟨seconds, nonnegative, below⟩ := valid
  constructor
  · intro monotone
    by_contra both
    have highest : (⟨value.tvSec - 1, 999999999⟩ : Timespec).Valid := ⟨by simp only; omega, by simp, by simp⟩
    have read := monotone _ highest (by simp only [Timespec.nanoseconds]; omega)
    rw [checkDeadline_timerSettime highest, checkDeadline_timerSettime ⟨seconds, nonnegative, below⟩] at read
    simp only at read
    omega
  · intro either smaller other least
    obtain ⟨lower, fraction, bounded⟩ := other
    rw [checkDeadline_timerSettime ⟨lower, fraction, bounded⟩, checkDeadline_timerSettime ⟨seconds, nonnegative, below⟩]
    unfold Timespec.nanoseconds at least
    omega

/-- Both conversions of the timer are right exactly below one second. -/
theorem conversions_iff (now : Int) :
    (∀ milli, Inverse now milli ↔ milli < 1000) ∧
      ∀ value : Timespec, value.Valid → (ReadsMilliseconds now value ↔ value.tvSec = 0) :=
  ⟨inverse_iff now, fun _ valid => readsMilliseconds_iff valid now⟩

end

/-- The timer is right for 999 milliseconds. -/
theorem conversions_fraction : Inverse 0 999 ∧ ReadsMilliseconds 0 ⟨0, 999000000⟩ :=
  ⟨((conversions_iff 0).1 999).mpr (by decide), ((conversions_iff 0).2 ⟨0, 999000000⟩ (by decide)).mpr rfl⟩

/-- One second reads as one millisecond, which is less than what a smaller time reads as. -/
theorem conversions_second :
    checkDeadline (arm 0 1000) 0 = 1 ∧
      checkDeadline (timerSettime 0 ⟨1, 0⟩) 0 < checkDeadline (timerSettime 0 ⟨0, 999000000⟩) 0 := by
  decide

end DistributedNas.Timing
