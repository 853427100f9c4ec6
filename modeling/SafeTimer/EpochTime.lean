/-
Times and epochs (sample_hb/helper.c).  Epoch e is the half-open interval from
base_time + (e - 1) * timeout_interval to base_time + e * timeout_interval; the receiver
and the sender go from one to the other with `time_to_epoch` and `epoch_to_time`, in
`long`s.
-/
import SafeTimer.CValues

namespace SafeTimer

/-- `struct timespec` -/
structure Timespec where
  tvSec : Int
  tvNsec : Int
deriving DecidableEq

/-- `time_to_timespec`, from milliseconds. -/
def timeToTimespec (timeMs : Int64) : Timespec :=
  ⟨timeMs.toInt.tdiv 1000, timeMs.toInt.tmod 1000 * 1000000⟩

/-- The length of a timespec in nanoseconds. -/
def Timespec.nanoseconds (ts : Timespec) : Int :=
  ts.tvSec * 1000000000 + ts.tvNsec

theorem nanoseconds_timeToTimespec (timeMs : Int64) :
    (timeToTimespec timeMs).nanoseconds = timeMs.toInt * 1000000 := by
  have hsplit := Int.tmod_add_mul_tdiv timeMs.toInt 1000
  simp only [timeToTimespec, Timespec.nanoseconds]
  omega

/-- A thread that reads `now` and then sleeps for `ts` reads no less than this when it is
awake again; both are in milliseconds. -/
def wakeTime (now : Int64) (ts : Timespec) : Int64 :=
  Int64.ofInt ((now.toInt * 1000000 + ts.nanoseconds) / 1000000)

/-- A sleep for the difference to a time ends at that time. -/
theorem wakeTime_timeToTimespec {now timeout diffTime : Int64}
    (hdiff : longOf (timeout.toInt - now.toInt) = some diffTime) :
    wakeTime now (timeToTimespec diffTime) = timeout := by
  rw [wakeTime, nanoseconds_timeToTimespec, toInt_of_longOf hdiff, ← Int.add_mul,
    Int.mul_ediv_cancel _ (by decide), Int.add_comm, Int.sub_add_cancel, Int64.ofInt_toInt]

/-- The wait for a time: `diff_time` is computed, and if it is positive the thread sleeps
until the returned time.  The outer `none` is an overflow. -/
def sleepUntil (timeout now : Int64) : Option (Option Int64) :=
  (longOf (timeout.toInt - now.toInt)).map fun diffTime =>
    if 0 < diffTime then some (wakeTime now (timeToTimespec diffTime)) else none

theorem sleepUntil_eq_some {timeout now : Int64} {wake : Option Int64}
    (hsleep : sleepUntil timeout now = some wake) :
    (now < timeout ∧ wake = some timeout) ∨ (timeout ≤ now ∧ wake = none) := by
  obtain ⟨diffTime, hdiff, rfl⟩ := Option.map_eq_some_iff.mp hsleep
  have hdiffInt := toInt_of_longOf hdiff
  rw [Int64.lt_iff_toInt_lt, Int64.le_iff_toInt_le]
  split
  · rename_i hearly
    rw [Int64.lt_iff_toInt_lt, Int64.toInt_zero] at hearly
    exact Or.inl ⟨by omega, by rw [wakeTime_timeToTimespec hdiff]⟩
  · rename_i hdue
    rw [Int64.lt_iff_toInt_lt, Int64.toInt_zero] at hdue
    exact Or.inr ⟨by omega, rfl⟩

/-- The globals behind the conversions. -/
structure EpochClock where
  baseTime : Int64
  timeoutInterval : Int64
deriving DecidableEq

/-- `time_to_epoch` -/
def EpochClock.timeToEpoch (c : EpochClock) (time : Int64) : Option Int64 :=
  if c.timeoutInterval = 0 then some (-1)
  else
    (longOf (time.toInt - c.baseTime.toInt)).bind fun time =>
      if time < 0 then some (-1)
      else longOf (time.toInt.tdiv c.timeoutInterval.toInt + 1)

/-- `epoch_to_time` -/
def EpochClock.epochToTime (c : EpochClock) (id : Int64) : Option Int64 := do
  let product ← longOf (id.toInt * c.timeoutInterval.toInt)
  longOf (c.baseTime.toInt + product.toInt)

/-- Where an epoch ends and the next one begins, whether or not it fits a `long`. -/
def EpochClock.endOf (c : EpochClock) (epoch : Int) : Int :=
  c.baseTime.toInt + epoch * c.timeoutInterval.toInt

/-- The number of the interval in which a time lies; it is not positive before
`base_time`. -/
def EpochClock.epochOf (c : EpochClock) (time : Int64) : Int :=
  (time.toInt - c.baseTime.toInt) / c.timeoutInterval.toInt + 1

/-- The time lies in the epoch. -/
def EpochClock.Contains (c : EpochClock) (epoch time : Int64) : Prop :=
  c.endOf (epoch.toInt - 1) ≤ time.toInt ∧ time.toInt < c.endOf epoch.toInt

instance (c : EpochClock) (epoch time : Int64) : Decidable (c.Contains epoch time) :=
  inferInstanceAs (Decidable (_ ∧ _))

namespace EpochClock

variable {c : EpochClock} {time time' epoch stop : Int64}

theorem toInt_of_epochToTime (hstop : c.epochToTime epoch = some stop) :
    stop.toInt = c.endOf epoch.toInt := by
  obtain ⟨product, hproduct, hsum⟩ := Option.bind_eq_some_iff.mp hstop
  rw [toInt_of_longOf hsum, toInt_of_longOf hproduct, endOf]

/-- What `time_to_epoch` returns: the error value before `base_time`, and the number of
the interval from there on. -/
theorem timeToEpoch_eq_some (hpos : 0 < c.timeoutInterval)
    (hepoch : c.timeToEpoch time = some epoch) :
    (time < c.baseTime ∧ epoch = -1) ∨
      (c.baseTime ≤ time ∧ epoch.toInt = c.epochOf time) := by
  have hne : c.timeoutInterval ≠ 0 := by
    intro hzero
    rw [hzero] at hpos
    exact absurd hpos (by decide)
  rw [timeToEpoch, if_neg hne] at hepoch
  obtain ⟨diff, hdiff, hepoch⟩ := Option.bind_eq_some_iff.mp hepoch
  have hdiffInt := toInt_of_longOf hdiff
  rw [Int64.lt_iff_toInt_lt, Int64.le_iff_toInt_le]
  split at hepoch
  · rename_i hbefore
    rw [Int64.lt_iff_toInt_lt, Int64.toInt_zero] at hbefore
    cases hepoch
    exact Or.inl ⟨by omega, rfl⟩
  · rename_i hafter
    rw [Int64.lt_iff_toInt_lt, Int64.toInt_zero] at hafter
    refine Or.inr ⟨by omega, ?_⟩
    rw [toInt_of_longOf hepoch, Int.tdiv_eq_ediv_of_nonneg (by omega), hdiffInt, epochOf]

theorem toInt_of_timeToEpoch (hpos : 0 < c.timeoutInterval)
    (hepoch : c.timeToEpoch time = some epoch) (hafter : c.baseTime ≤ time) :
    epoch.toInt = c.epochOf time := by
  rcases timeToEpoch_eq_some hpos hepoch with ⟨hbefore, _⟩ | ⟨_, hvalue⟩
  · exact absurd hbefore (Int64.not_lt.mpr hafter)
  · exact hvalue

/-- The end of an epoch separates the times up to it from the later ones. -/
theorem epochOf_le_iff (hpos : 0 < c.timeoutInterval) (bound : Int) :
    c.epochOf time ≤ bound ↔ time.toInt < c.endOf bound := by
  rw [Int64.lt_iff_toInt_lt, Int64.toInt_zero] at hpos
  rw [epochOf, Int.add_one_le_iff, Int.ediv_lt_iff_lt_mul hpos, endOf]
  omega

/-- After an epoch has ended, the clock is in a later one. -/
theorem lt_epochOf_of_endOf_le (hpos : 0 < c.timeoutInterval) {bound : Int}
    (hended : c.endOf bound ≤ time.toInt) : bound < c.epochOf time := by
  have hle : c.epochOf time ≤ bound ↔ _ := epochOf_le_iff hpos bound
  omega

theorem epochOf_mono (hpos : 0 < c.timeoutInterval) (hle : time ≤ time') :
    c.epochOf time ≤ c.epochOf time' := by
  rw [Int64.le_iff_toInt_le] at hle
  rw [epochOf_le_iff hpos]
  exact Int.lt_of_le_of_lt hle ((epochOf_le_iff hpos _).mp (Int.le_refl _))

theorem one_le_epochOf_iff (hpos : 0 < c.timeoutInterval) :
    1 ≤ c.epochOf time ↔ c.baseTime ≤ time := by
  have hzero : c.epochOf time ≤ 0 ↔ _ := epochOf_le_iff hpos 0
  rw [endOf] at hzero
  rw [Int64.le_iff_toInt_le]
  omega

theorem contains_iff (hpos : 0 < c.timeoutInterval) :
    c.Contains epoch time ↔ epoch.toInt = c.epochOf time := by
  have hlow : c.epochOf time ≤ epoch.toInt - 1 ↔ _ := epochOf_le_iff hpos _
  have hhigh : c.epochOf time ≤ epoch.toInt ↔ _ := epochOf_le_iff hpos _
  rw [Contains]
  omega

end EpochClock

end SafeTimer
