/-
The thread `expire_checker` of the sample receivers (sample_hb/receiver.c and
test/correctness/normal-hb/nhb_receiver.c): which epochs it passes to
`expiration_check_for_epoch`, and when, by the readings of its clock.
-/
import SafeTimer.ClockedThread
import SafeTimer.EpochTime

namespace SafeTimer

/-- Where the thread is when it needs the clock next. -/
inductive CheckerControl where
  /-- at the head of the outer loop -/
  | outer
  /-- `epoch_to_check` and `timeout` are set -/
  | waiting (epochToCheck timeout : Int64)
  /-- in `nanosleep` -/
  | sleeping (epochToCheck wake : Int64)
  /-- `expiration_check_for_epoch(epoch_to_check)` has returned -/
  | checked (epochToCheck : Int64)
deriving DecidableEq

/-- `expire_checker` from one value of the clock to the next.  The output is the epoch
that is passed to `expiration_check_for_epoch` in between. -/
def EpochClock.expireChecker (c : EpochClock) :
    ClockedThread Int64 CheckerControl (Option Int64) where
  sleepsUntil
    | .sleeping _ wake => some wake
    | _ => none
  next
    | .outer, now => do
        let epochToCheck ← c.timeToEpoch now
        let timeout ← c.epochToTime epochToCheck
        return (.waiting epochToCheck timeout, none)
    | .waiting epochToCheck timeout, now => do
        match ← sleepUntil timeout now with
        | some wake => return (.sleeping epochToCheck wake, none)
        | none => return (.checked epochToCheck, some epochToCheck)
    | .sleeping epochToCheck _, _ => some (.checked epochToCheck, some epochToCheck)
    | .checked epochToCheck, now => do
        let epochNow ← c.timeToEpoch now
        let epochToCheck ← longOf (epochToCheck.toInt + 1)
        -- the do-while loop goes on for the epochs that have ended meanwhile
        if epochToCheck < epochNow then return (.checked epochToCheck, some epochToCheck)
        else return (.outer, none)

/-- The thread starts after `base_time` has been read. -/
def EpochClock.checkerStart (c : EpochClock) : Clocked Int64 CheckerControl :=
  ⟨.outer, c.baseTime⟩

/-- What a step can do. -/
inductive CheckerStep (c : EpochClock) (now : Int64) :
    CheckerControl → CheckerControl → Option Int64 → Prop where
  | outer {epoch timeout : Int64} (hepoch : c.timeToEpoch now = some epoch)
      (htimeout : c.epochToTime epoch = some timeout) :
      CheckerStep c now .outer (.waiting epoch timeout) none
  | sleep {epoch timeout : Int64} (hearly : now < timeout) :
      CheckerStep c now (.waiting epoch timeout) (.sleeping epoch timeout) none
  | due {epoch timeout : Int64} (hdue : timeout ≤ now) :
      CheckerStep c now (.waiting epoch timeout) (.checked epoch) (some epoch)
  | wake {epoch wake : Int64} (hwake : wake ≤ now) :
      CheckerStep c now (.sleeping epoch wake) (.checked epoch) (some epoch)
  | behind {epoch next epochNow : Int64} (hnow : c.timeToEpoch now = some epochNow)
      (hnext : next.toInt = epoch.toInt + 1) (hbehind : next < epochNow) :
      CheckerStep c now (.checked epoch) (.checked next) (some next)
  | caughtUp {epoch next epochNow : Int64} (hnow : c.timeToEpoch now = some epochNow)
      (hnext : next.toInt = epoch.toInt + 1) (hcaught : epochNow ≤ next) :
      CheckerStep c now (.checked epoch) .outer none

namespace EpochClock

variable {c : EpochClock} {state state' : Clocked Int64 CheckerControl} {now : Int64}
  {output : Option Int64}

theorem expireChecker_step_eq_ok
    (hstep : c.expireChecker.step state now = .ok (state', output)) :
    state.clock ≤ now ∧ state'.clock = now ∧
      CheckerStep c now state.control state'.control output := by
  obtain ⟨hforward, hawake, hnext, hclock⟩ := ClockedThread.step_eq_ok hstep
  refine ⟨Int64.not_lt.mp hforward, hclock, ?_⟩
  generalize state'.control = control' at hnext
  generalize state.control = control at hnext hawake
  cases control with
  | outer =>
      obtain ⟨epoch, hepoch, hnext⟩ := Option.bind_eq_some_iff.mp hnext
      obtain ⟨timeout, htimeout, hnext⟩ := Option.bind_eq_some_iff.mp hnext
      cases hnext
      exact .outer hepoch htimeout
  | waiting epoch timeout =>
      obtain ⟨wake, hsleep, hnext⟩ := Option.bind_eq_some_iff.mp hnext
      rcases sleepUntil_eq_some hsleep with ⟨hearly, rfl⟩ | ⟨hdue, rfl⟩
      · cases hnext
        exact .sleep hearly
      · cases hnext
        exact .due hdue
  | sleeping epoch wake =>
      cases hnext
      exact .wake (Int64.not_lt.mp (hawake wake rfl))
  | checked epoch =>
      obtain ⟨epochNow, hnow, hnext⟩ := Option.bind_eq_some_iff.mp hnext
      obtain ⟨next, hsucc, hnext⟩ := Option.bind_eq_some_iff.mp hnext
      split at hnext
      · rename_i hbehind
        cases hnext
        exact .behind hnow (toInt_of_longOf hsucc) hbehind
      · rename_i hcaught
        cases hnext
        exact .caughtUp hnow (toInt_of_longOf hsucc) (Int64.not_lt.mp hcaught)

/-- The thread waits for the end of its epoch, and an epoch that is checked has ended. -/
def OnTime (c : EpochClock) (clock : Int64) : CheckerControl → Prop
  | .outer => True
  | .waiting epoch timeout => timeout.toInt = c.endOf epoch.toInt
  | .sleeping epoch wake => wake.toInt = c.endOf epoch.toInt
  | .checked epoch => c.endOf epoch.toInt ≤ clock.toInt

structure Punctual (c : EpochClock) (state : Clocked Int64 CheckerControl) : Prop where
  started : c.baseTime ≤ state.clock
  onTime : c.OnTime state.clock state.control

theorem checkerStart_punctual : c.Punctual c.checkerStart :=
  ⟨Int64.le_refl _, trivial⟩

/-- The least epoch that can be passed to `expiration_check_for_epoch` next. -/
def frontier (c : EpochClock) (state : Clocked Int64 CheckerControl) : Int :=
  match state.control with
  | .outer => c.epochOf state.clock
  | .waiting epoch _ => epoch.toInt
  | .sleeping epoch _ => epoch.toInt
  | .checked epoch => epoch.toInt + 1

/-- An epoch that had ended by an earlier reading lies before the one of this reading. -/
theorem lt_epochOf_of_ended (hpos : 0 < c.timeoutInterval) {epoch clock : Int64}
    (hended : c.endOf epoch.toInt ≤ clock.toInt) (hforward : clock ≤ now) :
    epoch.toInt < c.epochOf now :=
  lt_epochOf_of_endOf_le hpos (Int.le_trans hended (Int64.le_iff_toInt_le.mp hforward))

theorem Punctual.step (hpos : 0 < c.timeoutInterval) (hpunctual : c.Punctual state)
    (hstep : c.expireChecker.step state now = .ok (state', output)) :
    c.Punctual state' ∧ c.frontier state ≤ c.frontier state' ∧
      ∀ epoch, output = some epoch → c.endOf epoch.toInt ≤ now.toInt ∧
        c.frontier state ≤ epoch.toInt ∧ epoch.toInt < c.frontier state' := by
  obtain ⟨hforward, hclock, hcases⟩ := expireChecker_step_eq_ok hstep
  obtain ⟨hstarted, honTime⟩ := hpunctual
  obtain ⟨control, clock⟩ := state
  obtain ⟨control', clock'⟩ := state'
  have hstarted' : c.baseTime ≤ now := Int64.le_trans hstarted hforward
  simp only at hclock hcases honTime
  subst clock'
  cases hcases with
  | outer hepoch htimeout =>
      refine ⟨⟨hstarted', toInt_of_epochToTime htimeout⟩, ?_, by simp⟩
      rw [frontier, frontier]
      simp only [toInt_of_timeToEpoch hpos hepoch hstarted']
      exact epochOf_mono hpos hforward
  | sleep hearly => exact ⟨⟨hstarted', honTime⟩, Int.le_refl _, by simp⟩
  | due hdue =>
      rw [OnTime] at honTime
      rw [Int64.le_iff_toInt_le, honTime] at hdue
      refine ⟨⟨hstarted', hdue⟩, by simp [frontier], ?_⟩
      rintro epoch ⟨⟩
      exact ⟨hdue, by simp [frontier], by simp [frontier]⟩
  | wake hwake =>
      rw [OnTime] at honTime
      rw [Int64.le_iff_toInt_le, honTime] at hwake
      refine ⟨⟨hstarted', hwake⟩, by simp [frontier], ?_⟩
      rintro epoch ⟨⟩
      exact ⟨hwake, by simp [frontier], by simp [frontier]⟩
  | @behind epoch next epochNow hnow hnext hbehind =>
      rw [Int64.lt_iff_toInt_lt, toInt_of_timeToEpoch hpos hnow hstarted'] at hbehind
      have hle : c.epochOf now ≤ next.toInt ↔ _ := epochOf_le_iff hpos next.toInt
      have hended : c.endOf next.toInt ≤ now.toInt := by omega
      refine ⟨⟨hstarted', hended⟩, by simp [frontier, hnext], ?_⟩
      rintro epoch ⟨⟩
      exact ⟨hended, by simp [frontier, hnext], by simp [frontier]⟩
  | @caughtUp epoch next epochNow hnow hnext hcaught =>
      have hlater := lt_epochOf_of_ended hpos honTime hforward
      exact ⟨⟨hstarted', trivial⟩, Int.add_one_le_of_lt hlater, by simp⟩

theorem punctual_of_run (hpos : 0 < c.timeoutInterval) {readings : List Int64}
    {outputs : List (Option Int64)}
    (hrun : runEvents c.expireChecker.step c.checkerStart readings = .ok (state, outputs)) :
    c.Punctual state :=
  runEvents_invariant (fun _ state _ => c.Punctual state) checkerStart_punctual
    (fun _ _ _ _ _ _ _ hpunctual hstep => (hpunctual.step hpos hstep).1) hrun

/-- An epoch is passed to `expiration_check_for_epoch` when the clock has reached its
end. -/
def NeverEarly (c : EpochClock) (readings : List Int64) : Prop :=
  EveryStep c.expireChecker.step (fun _ state now => ∀ state' epoch,
    c.expireChecker.step state now = .ok (state', some epoch) →
    c.endOf epoch.toInt ≤ now.toInt) c.checkerStart readings

/-- The inner loop does not run ahead of its own last reading, and it ends when it has
caught up with it. -/
def CatchesUp (c : EpochClock) (readings : List Int64) : Prop :=
  EveryStep c.expireChecker.step (fun _ state now => ∀ epoch state' output,
    state.control = .checked epoch →
    c.expireChecker.step state now = .ok (state', output) →
    ∃ epochNow, c.timeToEpoch now = some epochNow ∧ epoch.toInt + 1 ≤ epochNow.toInt ∧
      (state'.control = .outer ↔ epoch.toInt + 1 = epochNow.toInt)) c.checkerStart readings

theorem catchesUp_of_pos (hpos : 0 < c.timeoutInterval) (readings : List Int64) :
    c.CatchesUp readings := by
  intro pre now post state outputs _ hpre epoch state' output hcontrol hstep
  obtain ⟨hstarted, honTime⟩ := punctual_of_run hpos hpre
  obtain ⟨hforward, -, hcases⟩ := expireChecker_step_eq_ok hstep
  have hstarted' : c.baseTime ≤ now := Int64.le_trans hstarted hforward
  rw [hcontrol, OnTime] at honTime
  have hlater := lt_epochOf_of_ended hpos honTime hforward
  rw [hcontrol] at hcases
  generalize state'.control = control' at hcases ⊢
  cases hcases with
  | behind hnow hnext hbehind =>
      have hvalue := toInt_of_timeToEpoch hpos hnow hstarted'
      rw [Int64.lt_iff_toInt_lt] at hbehind
      refine ⟨_, hnow, by omega, ?_⟩
      simp only [reduceCtorEq, false_iff]
      omega
  | caughtUp hnow hnext hcaught =>
      have hvalue := toInt_of_timeToEpoch hpos hnow hstarted'
      rw [Int64.le_iff_toInt_le] at hcaught
      refine ⟨_, hnow, by omega, ?_⟩
      simp only [true_iff]
      omega

end EpochClock

/-- The epochs that are checked increase over the whole run, none is checked before it has
ended, and the inner loop stops where its clock stands. -/
theorem checks_increase_and_never_early (c : EpochClock) (hpos : 0 < c.timeoutInterval)
    {readings : List Int64} {final : Clocked Int64 CheckerControl}
    {outputs : List (Option Int64)}
    (hrun : runEvents c.expireChecker.step c.checkerStart readings = .ok (final, outputs)) :
    outputs.reduceOption.Pairwise (· < ·) ∧ c.NeverEarly readings ∧ c.CatchesUp readings := by
  refine ⟨?_, ?_, EpochClock.catchesUp_of_pos hpos readings⟩
  · have hevery : EveryStep c.expireChecker.step (fun _ _ _ => True) c.checkerStart readings :=
      fun _ _ _ _ _ _ _ => trivial
    have hincrease := (hevery.outputs_increase c.Punctual EpochClock.checkerStart_punctual
      c.frontier Int64.toInt (fun _ _ _ _ _ hpunctual _ hstep => by
        obtain ⟨hpunctual', hforward, houtput⟩ := hpunctual.step hpos hstep
        exact ⟨hpunctual', hforward, fun epoch hsome => (houtput epoch hsome).2⟩) hrun).2.2
    exact (List.pairwise_map.mp hincrease).imp Int64.lt_iff_toInt_lt.mpr
  · intro pre now post state early _ hpre state' epoch hstep
    have hpunctual := EpochClock.punctual_of_run hpos hpre
    exact ((hpunctual.step hpos hstep).2.2 epoch rfl).1

/-- A checker that wakes up two epochs late catches up. -/
theorem checks_increase_after_late_wake :
    let c : EpochClock := ⟨1700000000000, 1000⟩
    let readings : List Int64 := [1700000000000, 1700000000000, 1700000003500, 1700000003500,
      1700000003500, 1700000003600]
    ∃ final, runEvents c.expireChecker.step c.checkerStart readings =
        .ok (final, [none, none, some 1, some 2, some 3, none]) ∧
      [(1 : Int64), 2, 3].Pairwise (· < ·) ∧ c.NeverEarly readings ∧ c.CatchesUp readings := by
  intro c readings
  have hrun : ∃ final, runEvents c.expireChecker.step c.checkerStart readings =
      .ok (final, [none, none, some 1, some 2, some 3, none]) :=
    exists_run_of_outputs (by decide)
  obtain ⟨final, hrun⟩ := hrun
  exact ⟨final, hrun, checks_increase_and_never_early c (by decide) hrun⟩

namespace EpochClock

variable {c : EpochClock} {state state' : Clocked Int64 CheckerControl} {now : Int64}
  {output : Option Int64}

/-- The epochs are checked one by one from 1 on, and at the head of the outer loop every
epoch that has ended before the reading has been checked. -/
def NoEpochSkipped (c : EpochClock) (readings : List Int64) : Prop :=
  ∀ final outputs,
    runEvents c.expireChecker.step c.checkerStart readings = .ok (final, outputs) →
    outputs.reduceOption.map Int64.toInt =
        (List.range outputs.reduceOption.length).map (fun i : Nat => (i : Int) + 1) ∧
      ∀ pre now post state early, readings = pre ++ now :: post →
        runEvents c.expireChecker.step c.checkerStart pre = .ok (state, early) →
        state.control = .outer → ∀ epoch : Int64, 1 ≤ epoch →
          c.endOf epoch.toInt < now.toInt → epoch ∈ early.reduceOption

/-- The reading at the head of the outer loop lies in the epoch of the reading before it:
the last one of the inner loop, or `base_time`. -/
def RestartsInEpoch (c : EpochClock) (state : Clocked Int64 CheckerControl) (now : Int64) :
    Prop :=
  state.control = .outer → c.timeToEpoch now = c.timeToEpoch state.clock

instance (c : EpochClock) (state : Clocked Int64 CheckerControl) (now : Int64) :
    Decidable (c.RestartsInEpoch state now) :=
  inferInstanceAs (Decidable (_ → _))

/-- The checker turns to the epoch that follows the `count` checked ones. -/
def Expects (c : EpochClock) (count : Nat) (clock : Int64) : CheckerControl → Prop
  | .outer => c.epochOf clock = count + 1
  | .waiting epoch _ => epoch.toInt = count + 1
  | .sleeping epoch _ => epoch.toInt = count + 1
  | .checked epoch => epoch.toInt = count

/-- The checked epochs are those from 1 to `count`. -/
def CheckedUpTo (count : Nat) (outputs : List (Option Int64)) : Prop :=
  outputs.reduceOption.map Int64.toInt = (List.range count).map (fun i : Nat => (i : Int) + 1)

theorem CheckedUpTo.concat {count : Nat} {outputs : List (Option Int64)}
    (hchecked : CheckedUpTo count outputs) {epoch : Int64} (hnext : epoch.toInt = count + 1) :
    CheckedUpTo (count + 1) (outputs ++ [some epoch]) := by
  rw [CheckedUpTo] at hchecked ⊢
  rw [List.reduceOption_append, List.reduceOption_singleton, Option.toList_some, List.map_append,
    hchecked, List.range_succ, List.map_append, List.map_singleton, List.map_singleton, hnext]

theorem CheckedUpTo.concat_none {count : Nat} {outputs : List (Option Int64)}
    (hchecked : CheckedUpTo count outputs) : CheckedUpTo count (outputs ++ [none]) := by
  rw [CheckedUpTo, List.reduceOption_append, List.reduceOption_singleton, Option.toList_none,
    List.append_nil]
  exact hchecked

theorem CheckedUpTo.mem_iff {count : Nat} {outputs : List (Option Int64)}
    (hchecked : CheckedUpTo count outputs) (epoch : Int64) :
    epoch ∈ outputs.reduceOption ↔ 1 ≤ epoch.toInt ∧ epoch.toInt ≤ count := by
  have hmem : epoch ∈ outputs.reduceOption ↔
      epoch.toInt ∈ outputs.reduceOption.map Int64.toInt :=
    (List.mem_map_of_injective fun _ _ => Int64.toInt_inj.mp).symm
  rw [hmem, hchecked, List.mem_map]
  constructor
  · rintro ⟨i, hi, hvalue⟩
    rw [List.mem_range] at hi
    omega
  · rintro ⟨hlow, hhigh⟩
    exact ⟨epoch.toInt.toNat - 1, List.mem_range.mpr (by omega), by omega⟩

/-- A step that restarts in its epoch passes the expected epoch or none. -/
theorem Expects.step (hpos : 0 < c.timeoutInterval) (hpunctual : c.Punctual state)
    {count : Nat} (hexpects : c.Expects count state.clock state.control)
    (hrestart : c.RestartsInEpoch state now)
    (hstep : c.expireChecker.step state now = .ok (state', output)) :
    (output = none ∧ c.Expects count state'.clock state'.control) ∨
      ∃ epoch, output = some epoch ∧ epoch.toInt = count + 1 ∧
        c.Expects (count + 1) state'.clock state'.control := by
  obtain ⟨hforward, hclock, hcases⟩ := expireChecker_step_eq_ok hstep
  obtain ⟨hstarted, honTime⟩ := hpunctual
  obtain ⟨control, clock⟩ := state
  obtain ⟨control', clock'⟩ := state'
  have hstarted' : c.baseTime ≤ now := Int64.le_trans hstarted hforward
  simp only at hclock hcases honTime hexpects hforward
  subst clock'
  cases hcases with
  | outer hepoch htimeout =>
      have hbefore : c.timeToEpoch clock = some _ := (hrestart rfl).symm.trans hepoch
      have hvalue := toInt_of_timeToEpoch hpos hbefore hstarted
      exact Or.inl ⟨rfl, hvalue.trans hexpects⟩
  | sleep hearly => exact Or.inl ⟨rfl, hexpects⟩
  | due hdue =>
      rw [Expects] at hexpects
      exact Or.inr ⟨_, rfl, hexpects, by simpa [Expects] using hexpects⟩
  | wake hwake =>
      rw [Expects] at hexpects
      exact Or.inr ⟨_, rfl, hexpects, by simpa [Expects] using hexpects⟩
  | behind hnow hnext hbehind =>
      rw [Expects] at hexpects
      have hvalue := hnext.trans (congrArg (· + 1) hexpects)
      exact Or.inr ⟨_, rfl, hvalue, by simpa [Expects] using hvalue⟩
  | caughtUp hnow hnext hcaught =>
      -- the epoch that was just checked has ended, so the clock is in the next one
      rw [Expects] at hexpects
      rw [Int64.le_iff_toInt_le] at hcaught
      have hlater := lt_epochOf_of_ended hpos honTime hforward
      have hvalue := toInt_of_timeToEpoch hpos hnow hstarted'
      refine Or.inl ⟨rfl, ?_⟩
      simp only [Expects]
      omega

/-- The run lemma behind the next result. -/
theorem expects_of_run (hpos : 0 < c.timeoutInterval) {readings : List Int64}
    (hrestarts : EveryStep c.expireChecker.step (fun _ => c.RestartsInEpoch) c.checkerStart
      readings) {outputs : List (Option Int64)}
    (hrun : runEvents c.expireChecker.step c.checkerStart readings = .ok (state, outputs)) :
    ∃ count, CheckedUpTo count outputs ∧ c.Expects count state.clock state.control := by
  refine hrestarts.invariant (fun _ state outputs => ∃ count, CheckedUpTo count outputs ∧
    c.Expects count state.clock state.control) ?_ ?_ hrun
  · refine ⟨0, rfl, ?_⟩
    simp [Expects, checkerStart, epochOf]
  · rintro pre state outputs now state' output hpre ⟨count, hchecked, hexpects⟩ hrestart hstep
    have hpunctual := punctual_of_run hpos hpre
    rcases hexpects.step hpos hpunctual hrestart hstep with
      ⟨rfl, hexpects'⟩ | ⟨epoch, rfl, hvalue, hexpects'⟩
    · exact ⟨count, hchecked.concat_none, hexpects'⟩
    · exact ⟨count + 1, hchecked.concat hvalue, hexpects'⟩

end EpochClock

/-- No epoch is skipped as long as no epoch ends between the last reading of the inner
loop and the next one of the outer loop. -/
theorem noEpochSkipped_of_restartsInEpoch (c : EpochClock) (hpos : 0 < c.timeoutInterval)
    {readings : List Int64}
    (hrestarts : EveryStep c.expireChecker.step (fun _ => c.RestartsInEpoch) c.checkerStart
      readings) : c.NoEpochSkipped readings := by
  intro final outputs hrun
  constructor
  · obtain ⟨count, hchecked, _⟩ := EpochClock.expects_of_run hpos hrestarts hrun
    have hcount := congrArg List.length hchecked
    rw [List.length_map, List.length_map, List.length_range] at hcount
    rw [hcount]
    exact hchecked
  · intro pre now post state early hsplit hpre hcontrol epoch hone hended
    subst hsplit
    obtain ⟨count, hchecked, hexpects⟩ :=
      EpochClock.expects_of_run hpos hrestarts.of_append hpre
    obtain ⟨next, output, _, hstep, _⟩ := runEvents_step_of_split hrun hpre
    obtain ⟨hforward, _, hcases⟩ := EpochClock.expireChecker_step_eq_ok hstep
    have hstarted := (EpochClock.punctual_of_run hpos hpre).started
    have hrestart := hrestarts pre now post state early rfl hpre hcontrol
    rw [hcontrol] at hcases hexpects
    rw [Int64.le_iff_toInt_le, toInt_one] at hone
    generalize next.control = control' at hcases
    cases hcases with
    | outer hepoch htimeout =>
        have hnow := EpochClock.toInt_of_timeToEpoch hpos hepoch
          (Int64.le_trans hstarted hforward)
        have hclock := EpochClock.toInt_of_timeToEpoch hpos (hrestart.symm.trans hepoch) hstarted
        have hlater := EpochClock.lt_epochOf_of_endOf_le hpos (Int.le_of_lt hended)
        rw [EpochClock.Expects] at hexpects
        rw [hchecked.mem_iff]
        omega

/-- A checker that is never delayed. -/
theorem noEpochSkipped_undelayed :
    EpochClock.NoEpochSkipped ⟨1700000000000, 1000⟩ [1700000000000, 1700000000000, 1700000001000,
      1700000001000, 1700000001001, 1700000001001, 1700000002000] :=
  noEpochSkipped_of_restartsInEpoch ⟨1700000000000, 1000⟩ (by decide)
    (everyStep_iff_checkSteps.mpr (by decide))

/-- A delay of four seconds between the end of the inner loop and the next outer
iteration: the epochs 2 to 5 are never checked. -/
theorem delayed_checker_skips_epochs :
    ¬ EpochClock.NoEpochSkipped ⟨1700000000000, 1000⟩ [1700000000000, 1700000000000,
      1700000001000, 1700000001000, 1700000005000, 1700000005000, 1700000006000] := by
  intro hnone
  have hrun : ∃ final, runEvents (EpochClock.expireChecker ⟨1700000000000, 1000⟩).step
      (EpochClock.checkerStart ⟨1700000000000, 1000⟩) [1700000000000, 1700000000000,
        1700000001000, 1700000001000, 1700000005000, 1700000005000, 1700000006000] =
      .ok (final, [none, none, some 1, none, none, none, some 6]) :=
    exists_run_of_outputs (by decide)
  obtain ⟨final, hrun⟩ := hrun
  exact absurd (hnone final _ hrun).1 (by decide)

end SafeTimer
