/-
The heartbeat loop of the sample sender (sample_hb/sender.c): it waits for the end of the
epoch of its first reading and stamps the heartbeat with the epoch of another reading.
The sender takes base_time from the receiver, so that its own clock may be behind it.
`nanosleep` may return early; the inner loop then reads the clock again.
-/
import SafeTimer.ClockedThread
import SafeTimer.EpochLists
import SafeTimer.EpochTime

namespace SafeTimer

/-- Where `run_hb_loop` is when it needs the clock next. -/
inductive HbLoopControl where
  /-- at the head of the outer loop -/
  | outer
  /-- at the head of the inner loop, perhaps after a `nanosleep` -/
  | waiting (timeout : Int64)
  /-- about to compute `sending_epoch` -/
  | stamping
deriving DecidableEq

/-- `run_hb_loop` from one value of `now_time()` to the next.  The output is the epoch of the
heartbeat that is sent in between.  Nothing is assumed of the value behind a `nanosleep`. -/
def EpochClock.runHbLoop (c : EpochClock) :
    ClockedThread Int64 HbLoopControl (Option Int64) where
  sleepsUntil _ := none
  next
    | .outer, now => do
        let currentEpoch ← c.timeToEpoch now
        let timeout ← c.epochToTime currentEpoch
        return (.waiting timeout, none)
    | .waiting timeout, now => do
        match ← sleepUntil timeout now with
        | some _ => return (.waiting timeout, none)
        | none => return (.stamping, none)
    | .stamping, now => do
        let sendingEpoch ← c.timeToEpoch now
        return (.outer, some sendingEpoch)

/-- The clock may show anything when the loop starts. -/
def hbLoopStart : Clocked Int64 HbLoopControl :=
  ⟨.outer, Int64.minValue⟩

/-- What a step can do. -/
inductive HbLoopStep (c : EpochClock) (now : Int64) :
    HbLoopControl → HbLoopControl → Option Int64 → Prop where
  | outer {epoch timeout : Int64} (hepoch : c.timeToEpoch now = some epoch)
      (htimeout : c.epochToTime epoch = some timeout) :
      HbLoopStep c now .outer (.waiting timeout) none
  | sleep {timeout : Int64} (hearly : now < timeout) :
      HbLoopStep c now (.waiting timeout) (.waiting timeout) none
  | ended {timeout : Int64} (hover : timeout ≤ now) :
      HbLoopStep c now (.waiting timeout) .stamping none
  | stamp {epoch : Int64} (hepoch : c.timeToEpoch now = some epoch) :
      HbLoopStep c now .stamping .outer (some epoch)

namespace EpochClock

variable {c : EpochClock} {state state' : Clocked Int64 HbLoopControl} {now : Int64}
  {output : Option Int64}

theorem runHbLoop_step_eq_ok (hstep : c.runHbLoop.step state now = .ok (state', output)) :
    state.clock ≤ now ∧ state'.clock = now ∧
      HbLoopStep c now state.control state'.control output := by
  obtain ⟨hforward, _, hnext, hclock⟩ := ClockedThread.step_eq_ok hstep
  refine ⟨Int64.not_lt.mp hforward, hclock, ?_⟩
  generalize state'.control = control' at hnext
  generalize state.control = control at hnext
  cases control with
  | outer =>
      obtain ⟨epoch, hepoch, hnext⟩ := Option.bind_eq_some_iff.mp hnext
      obtain ⟨timeout, htimeout, hnext⟩ := Option.bind_eq_some_iff.mp hnext
      cases hnext
      exact .outer hepoch htimeout
  | waiting timeout =>
      obtain ⟨wake, hsleep, hnext⟩ := Option.bind_eq_some_iff.mp hnext
      rcases sleepUntil_eq_some hsleep with ⟨hearly, rfl⟩ | ⟨hover, rfl⟩
      · cases hnext
        exact .sleep hearly
      · cases hnext
        exact .ended hover
  | stamping =>
      obtain ⟨epoch, hepoch, hnext⟩ := Option.bind_eq_some_iff.mp hnext
      cases hnext
      exact .stamp hepoch

/-- The epochs that the heartbeats of a run carry are valid and increase, each is that of
the reading before it, and the receiver takes none of them for an error. -/
structure StampsValid (c : EpochClock) (readings : List Int64) (outputs : List (Option Int64)) :
    Prop where
  positive : ∀ epoch ∈ outputs.reduceOption, 1 ≤ epoch
  increasing : outputs.reduceOption.Pairwise (· < ·)
  contained : EveryStep c.runHbLoop.step (fun _ state now => ∀ state' epoch,
    c.runHbLoop.step state now = .ok (state', some epoch) → c.Contains epoch now) hbLoopStart
    readings
  received : ∀ epoch ∈ outputs.reduceOption, ∀ (Table : Type → Type) (L : Type)
    (ht : RemovalTable Table) (lib : ListLib L) (r : EpochReceiver Table L) (saddr : CString),
    epochStep ht lib r (.heartbeat saddr epoch) ≠ .error .negativeEpoch

/-- The clock has reached `base_time` when a heartbeat is stamped. -/
def StampsAfterBase (c : EpochClock) (state : Clocked Int64 HbLoopControl) (now : Int64) :
    Prop :=
  state.control = .stamping → c.baseTime ≤ now

instance (c : EpochClock) (state : Clocked Int64 HbLoopControl) (now : Int64) :
    Decidable (c.StampsAfterBase state now) :=
  inferInstanceAs (Decidable (_ → _))

/-- The least epoch that the next heartbeat can carry, if it is a valid one. -/
def sendFrontier (c : EpochClock) (state : Clocked Int64 HbLoopControl) : Int :=
  match state.control with
  | .outer => max 1 (c.epochOf state.clock + 1)
  | .waiting timeout => max 1 (c.epochOf timeout)
  | .stamping => max 1 (c.epochOf state.clock)

theorem sendFrontier_step (hpos : 0 < c.timeoutInterval)
    (hafter : c.StampsAfterBase state now)
    (hstep : c.runHbLoop.step state now = .ok (state', output)) :
    c.sendFrontier state ≤ c.sendFrontier state' ∧
      ∀ epoch, output = some epoch →
        c.sendFrontier state ≤ epoch.toInt ∧ epoch.toInt < c.sendFrontier state' := by
  obtain ⟨hforward, hclock, hcases⟩ := runHbLoop_step_eq_ok hstep
  obtain ⟨control, clock⟩ := state
  obtain ⟨control', clock'⟩ := state'
  simp only at hclock hcases hforward
  subst clock'
  have hmono : c.epochOf clock ≤ c.epochOf now := epochOf_mono hpos hforward
  cases hcases with
  | outer hepoch htimeout =>
      refine ⟨?_, by simp⟩
      simp only [sendFrontier]
      rcases timeToEpoch_eq_some hpos hepoch with ⟨hbefore, _⟩ | ⟨_, hvalue⟩
      · -- before `base_time` the loop waits in vain, but it has sent nothing
        have hnow := (one_le_epochOf_iff hpos).not.mpr (Int64.not_le.mpr hbefore)
        omega
      · have hend := lt_epochOf_of_endOf_le hpos (Int.le_of_eq (toInt_of_epochToTime htimeout).symm)
        omega
  | sleep hearly => exact ⟨Int.le_refl _, by simp⟩
  | ended hover =>
      refine ⟨?_, by simp⟩
      have htimeout := epochOf_mono hpos hover
      simp only [sendFrontier]
      omega
  | stamp hepoch =>
      have hstarted : c.baseTime ≤ now := hafter rfl
      have hvalue := toInt_of_timeToEpoch hpos hepoch hstarted
      have hone := (one_le_epochOf_iff hpos).mpr hstarted
      simp only [sendFrontier]
      refine ⟨by omega, ?_⟩
      rintro epoch ⟨⟩
      omega

/-- A stamp from `base_time` on is the epoch of its reading. -/
theorem stamp_of_stampsAfterBase (hpos : 0 < c.timeoutInterval)
    (hafter : c.StampsAfterBase state now) {epoch : Int64}
    (hstep : c.runHbLoop.step state now = .ok (state', some epoch)) :
    1 ≤ epoch ∧ c.Contains epoch now := by
  obtain ⟨_, _, hcases⟩ := runHbLoop_step_eq_ok hstep
  rw [StampsAfterBase] at hafter
  generalize state.control = control at hcases hafter
  generalize state'.control = control' at hcases
  cases hcases with
  | stamp hepoch =>
      have hvalue := toInt_of_timeToEpoch hpos hepoch (hafter rfl)
      have hone := (one_le_epochOf_iff hpos).mpr (hafter rfl)
      refine ⟨?_, (contains_iff hpos).mpr hvalue⟩
      rw [Int64.le_iff_toInt_le, toInt_one, hvalue]
      exact hone

end EpochClock

/-- `hb_server` goes on after a heartbeat whose epoch is not negative. -/
theorem epochStep_ne_negativeEpoch {Table : Type → Type} {L : Type} (ht : RemovalTable Table)
    (lib : ListLib L) (r : EpochReceiver Table L) (saddr : CString) {epoch : Int64}
    (hnonneg : 0 ≤ epoch) :
    epochStep ht lib r (.heartbeat saddr epoch) ≠ .error .negativeEpoch := by
  rw [epochStep, if_neg (Int64.not_lt.mpr hnonneg)]
  split <;> simp

/-- The epochs of the heartbeats are valid exactly when the sender's clock has reached
`base_time` at every stamp. -/
theorem stampsValid_iff (c : EpochClock) (hpos : 0 < c.timeoutInterval) {readings : List Int64}
    {final : Clocked Int64 HbLoopControl} {outputs : List (Option Int64)}
    (hrun : runEvents c.runHbLoop.step hbLoopStart readings = .ok (final, outputs)) :
    c.StampsValid readings outputs ↔
      EveryStep c.runHbLoop.step (fun _ => c.StampsAfterBase) hbLoopStart readings := by
  constructor
  · intro hvalid pre now post state early hsplit hpre hstamping
    subst hsplit
    obtain ⟨next, output, tail, hstep, rfl⟩ := runEvents_step_of_split hrun hpre
    obtain ⟨_, _, hcases⟩ := EpochClock.runHbLoop_step_eq_ok hstep
    rw [hstamping] at hcases
    generalize next.control = control' at hcases
    cases hcases with
    | stamp hepoch =>
        rename_i epoch
        have hsent : epoch ∈ (early ++ some epoch :: tail).reduceOption :=
          List.reduceOption_mem_iff.mpr (by simp)
        have hone := hvalid.positive epoch hsent
        rcases EpochClock.timeToEpoch_eq_some hpos hepoch with ⟨_, rfl⟩ | ⟨hafter, _⟩
        · exact absurd hone (by decide)
        · exact hafter
  · intro hafter
    obtain ⟨-, -, hincrease⟩ := hafter.outputs_increase (fun _ => True) trivial c.sendFrontier
      Int64.toInt (fun _ _ _ _ _ _ hcond hstep =>
        ⟨trivial, EpochClock.sendFrontier_step hpos hcond hstep⟩) hrun
    have hpositive : ∀ epoch ∈ outputs.reduceOption, 1 ≤ epoch := by
      intro epoch hsent
      obtain ⟨pre, now, post, state, early, next, hsplit, hpre, hstep⟩ :=
        exists_step_of_mem_outputs hrun (List.reduceOption_mem_iff.mp hsent)
      exact (EpochClock.stamp_of_stampsAfterBase hpos (hafter pre now post state early hsplit hpre)
        hstep).1
    constructor
    case positive => exact hpositive
    case increasing => exact (List.pairwise_map.mp hincrease).imp Int64.lt_iff_toInt_lt.mpr
    case contained =>
      intro pre now post state early hsplit hpre state' epoch hstep
      exact (EpochClock.stamp_of_stampsAfterBase hpos (hafter pre now post state early hsplit hpre)
        hstep).2
    case received =>
      intro epoch hsent Table L ht lib r saddr
      exact epochStep_ne_negativeEpoch ht lib r saddr (Int64.le_trans (by decide)
        (hpositive epoch hsent))

/-- A sender that starts half an epoch after `base_time`.  Its first `nanosleep` is cut
short, and the inner loop takes another turn. -/
theorem stampsValid_two_heartbeats :
    let readings : List Int64 := [1700000000500, 1700000000500, 1700000000700, 1700000001000,
      1700000001000, 1700000001001, 1700000001001, 1700000002300, 1700000002300]
    ∃ final, runEvents (EpochClock.runHbLoop ⟨1700000000000, 1000⟩).step hbLoopStart readings =
        .ok (final, [none, none, none, none, some 2, none, none, none, some 3]) ∧
      EpochClock.StampsValid ⟨1700000000000, 1000⟩ readings
        [none, none, none, none, some 2, none, none, none, some 3] := by
  intro readings
  have hrun : ∃ final, runEvents (EpochClock.runHbLoop ⟨1700000000000, 1000⟩).step hbLoopStart
      readings = .ok (final, [none, none, none, none, some 2, none, none, none, some 3]) :=
    exists_run_of_outputs (by decide)
  obtain ⟨final, hrun⟩ := hrun
  exact ⟨final, hrun, (stampsValid_iff _ (by decide) hrun).mpr
    (everyStep_iff_checkSteps.mpr (by decide))⟩

/-- A sender whose clock is 200 ms behind `base_time` stamps the error value -1, and does it
again at once. -/
theorem early_sender_stamps_minus_one :
    let readings : List Int64 := [1699999999800, 1699999999800, 1699999999800, 1699999999801,
      1699999999801, 1699999999801]
    (∃ final, runEvents (EpochClock.runHbLoop ⟨1700000000000, 1000⟩).step hbLoopStart readings =
        .ok (final, [none, none, some (-1), none, none, some (-1)])) ∧
      ¬ EpochClock.StampsValid ⟨1700000000000, 1000⟩ readings
        [none, none, some (-1), none, none, some (-1)] := by
  intro readings
  refine ⟨exists_run_of_outputs (by decide), ?_⟩
  intro hvalid
  exact absurd (hvalid.positive (-1) (by decide)) (by decide)

end SafeTimer
