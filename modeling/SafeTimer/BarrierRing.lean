/-
The barrier bookkeeping of `process_packet` (src/queue.c, TCP branch): a ring of
`ARRAY_SIZE` rows with one slot per rx queue.  The array is never cleared; a
slot counts as set when it holds the current round number.
-/
import SafeTimer.EventRun
import SafeTimer.CValues
import Mathlib.Logic.Function.Basic
import Mathlib.Data.Fintype.Basic

namespace SafeTimer

/-- `ARRAY_SIZE` of src/queue.c. -/
abbrev arraySize : Nat := 100

/-- `IRQ_NUM` of include/hb_common.h, the number of rx queues. -/
abbrev irqNum : Nat := 4

/-- `INT_MAX`, the last value `array_round` can hold. -/
abbrev intMax : Int := 2 ^ 31 - 1

/-- The static variables of src/queue.c under `CONFIG_BARRIER`. -/
structure BarrierState where
  receivedBarrierMsgArray : Fin arraySize → Fin irqNum → Int
  arrayRound : Int
  epochNoSemPost : Int

/-- The values the variables are initialised with. -/
def BarrierState.initial : BarrierState :=
  ⟨fun _ _ => 0, 1, 0⟩

/-- `received_barrier_msg_array[array_index][queue_index] = array_round` -/
def BarrierState.mark (s : BarrierState) (row : Fin arraySize)
    (queue : Fin irqNum) : BarrierState :=
  { s with
    receivedBarrierMsgArray :=
      Function.update s.receivedBarrierMsgArray row
        (Function.update (s.receivedBarrierMsgArray row) queue s.arrayRound) }

/-- The `for` loop over the row runs to its end. -/
def BarrierState.RowComplete (s : BarrierState) (row : Fin arraySize) : Prop :=
  ∀ queue, s.receivedBarrierMsgArray row queue = s.arrayRound

instance (s : BarrierState) (row : Fin arraySize) : Decidable (s.RowComplete row) :=
  inferInstanceAs (Decidable (∀ _, _))

/-- `sem_post` is reached unless the epoch is outdated. -/
def BarrierState.posts (s : BarrierState) (epoch : Int) : Bool :=
  !decide (s.epochNoSemPost ≠ 0 ∧ epoch ≤ s.epochNoSemPost)

/-- What follows the loop: the round ends with its last row, then the semaphore
is posted.  The Boolean tells whether `sem_post` was executed. -/
def completeRow (s : BarrierState) (epoch : Int) (row : Fin arraySize) :
    Except Fault (BarrierState × Bool) :=
  if row.val = arraySize - 1 then
    if s.arrayRound = intMax then .error .intOverflow
    else .ok ({ s with arrayRound := s.arrayRound + 1 }, s.posts epoch)
  else .ok (s, s.posts epoch)

/-- The array part of the TCP branch, for indices within the bounds. -/
def recordBarrier (s : BarrierState) (epoch : Int) (row : Fin arraySize)
    (queue : Fin irqNum) : Except Fault (BarrierState × Bool) :=
  if s.receivedBarrierMsgArray row queue ≠ s.arrayRound then
    if (s.mark row queue).RowComplete row then
      completeRow (s.mark row queue) epoch row
    else .ok (s.mark row queue, false)
  else .ok (s, false)

/-- The TCP branch behind the payload check.  C's `%` truncates towards zero,
so a negative epoch gives a negative index. -/
def barrierArray (s : BarrierState) (epoch queueIndex : Int) :
    Except Fault (BarrierState × Bool) :=
  let arrayIndex := epoch.tmod arraySize
  if h : (0 ≤ arrayIndex ∧ arrayIndex < arraySize) ∧
      0 ≤ queueIndex ∧ queueIndex < irqNum then
    recordBarrier s epoch ⟨arrayIndex.toNat, by omega⟩ ⟨queueIndex.toNat, by omega⟩
  else .error .arrayAccess

/-- The TCP branch of `process_packet`.  `none` stands for a payload shorter
than two longs: the code prints an error and goes on with both values at -1. -/
def tcpBranch (s : BarrierState) :
    Option (Int × Int) → Except Fault (BarrierState × Bool)
  | some (epoch, queueIndex) =>
      if epoch ≤ 0 ∨ queueIndex < 0 then .ok (s, false)
      else barrierArray s epoch queueIndex
  | none => barrierArray s (-1) (-1)

/-- A well-formed barrier message. -/
structure BarrierMsg where
  epoch : Int
  queueIndex : Fin irqNum
  epoch_pos : 1 ≤ epoch
deriving DecidableEq

/-- The row a message belongs to. -/
def BarrierMsg.row (m : BarrierMsg) : Fin arraySize :=
  ⟨(m.epoch % arraySize).toNat,
    (Int.toNat_lt (Int.emod_nonneg _ (by decide))).mpr
      (Int.emod_lt_of_pos _ (by decide))⟩

/-- Process one well-formed barrier message. -/
def feedBarrier (s : BarrierState) (m : BarrierMsg) :
    Except Fault (BarrierState × Bool) :=
  tcpBranch s (some (m.epoch, m.queueIndex.val))

/-- Process a sequence of barrier messages from the initial state. -/
def feedBarriers (msgs : List BarrierMsg) :
    Except Fault (BarrierState × List Bool) :=
  runEvents feedBarrier .initial msgs

theorem feedBarrier_eq_recordBarrier (s : BarrierState) (m : BarrierMsg) :
    feedBarrier s m = recordBarrier s m.epoch m.row m.queueIndex := by
  have hpos := m.epoch_pos
  have hmod : m.epoch.tmod arraySize = m.epoch % arraySize :=
    Int.tmod_eq_emod_of_nonneg (by omega)
  have hqueue := m.queueIndex.isLt
  have hguard : ¬ (m.epoch ≤ 0 ∨ ((m.queueIndex.val : Nat) : Int) < 0) := by omega
  have hbounds : (0 ≤ m.epoch.tmod arraySize ∧ m.epoch.tmod arraySize < arraySize) ∧
      0 ≤ ((m.queueIndex.val : Nat) : Int) ∧
      ((m.queueIndex.val : Nat) : Int) < irqNum := by
    rw [hmod]
    exact ⟨⟨Int.emod_nonneg _ (by decide), Int.emod_lt_of_pos _ (by decide)⟩,
      by omega, by omega⟩
  simp only [feedBarrier, tcpBranch, if_neg hguard, barrierArray, dif_pos hbounds]
  congr 1
  simp only [BarrierMsg.row, hmod]

@[simp] theorem BarrierState.mark_arrayRound (s : BarrierState)
    (row : Fin arraySize) (queue : Fin irqNum) :
    (s.mark row queue).arrayRound = s.arrayRound := rfl

@[simp] theorem BarrierState.mark_slot_self (s : BarrierState)
    (row : Fin arraySize) (queue : Fin irqNum) :
    (s.mark row queue).receivedBarrierMsgArray row queue = s.arrayRound := by
  simp [BarrierState.mark]

theorem BarrierState.mark_slot_of_ne (s : BarrierState)
    {row row' : Fin arraySize} {queue queue' : Fin irqNum}
    (hne : ¬ (row' = row ∧ queue' = queue)) :
    (s.mark row queue).receivedBarrierMsgArray row' queue' =
      s.receivedBarrierMsgArray row' queue' := by
  by_cases hrow : row' = row
  · subst hrow
    have hqueue : queue' ≠ queue := fun heq => hne ⟨rfl, heq⟩
    simp [BarrierState.mark, hqueue]
  · simp [BarrierState.mark, hrow]

/-- The message is judged redundant: its slot already holds the round. -/
def BarrierState.Redundant (s : BarrierState) (m : BarrierMsg) : Prop :=
  s.receivedBarrierMsgArray m.row m.queueIndex = s.arrayRound

instance (s : BarrierState) (m : BarrierMsg) : Decidable (s.Redundant m) :=
  inferInstanceAs (Decidable (_ = _))

/-- The slot of a message filled in. -/
abbrev BarrierState.record (s : BarrierState) (m : BarrierMsg) : BarrierState :=
  s.mark m.row m.queueIndex

/-- The round after a complete row. -/
def BarrierState.closeRow (s : BarrierState) (row : Fin arraySize) : BarrierState :=
  if row.val = arraySize - 1 then { s with arrayRound := s.arrayRound + 1 } else s

/-- Everything a step on a well-formed message can do. -/
theorem feedBarrier_ok_cases {s s' : BarrierState} {m : BarrierMsg} {posted : Bool}
    (hstep : feedBarrier s m = .ok (s', posted)) :
    (s.Redundant m ∧ s' = s ∧ posted = false) ∨
    (¬ s.Redundant m ∧ ¬ (s.record m).RowComplete m.row ∧
      s' = s.record m ∧ posted = false) ∨
    (¬ s.Redundant m ∧ (s.record m).RowComplete m.row ∧
      (m.row.val = arraySize - 1 → s.arrayRound ≠ intMax) ∧
      s' = (s.record m).closeRow m.row ∧ posted = s.posts m.epoch) := by
  rw [feedBarrier_eq_recordBarrier] at hstep
  simp only [recordBarrier, ne_eq, ite_not] at hstep
  by_cases hred : s.Redundant m
  · simp only [BarrierState.Redundant] at hred
    simp only [if_pos hred, Except.ok.injEq, Prod.mk.injEq] at hstep
    exact Or.inl ⟨hred, hstep.1.symm, hstep.2.symm⟩
  · have hslot := hred
    simp only [BarrierState.Redundant] at hslot
    simp only [if_neg hslot] at hstep
    by_cases hrow : (s.record m).RowComplete m.row
    · refine Or.inr (Or.inr ⟨hred, hrow, ?_⟩)
      simp only [if_pos hrow, completeRow] at hstep
      split at hstep
      · rename_i hlast
        split at hstep
        · cases hstep
        · rename_i hmax
          simp only [Except.ok.injEq, Prod.mk.injEq] at hstep
          rw [BarrierState.closeRow, if_pos hlast]
          exact ⟨fun _ => hmax, hstep.1.symm, hstep.2.symm⟩
      · rename_i hlast
        simp only [Except.ok.injEq, Prod.mk.injEq] at hstep
        rw [BarrierState.closeRow, if_neg hlast]
        exact ⟨fun heq => absurd heq hlast, hstep.1.symm, hstep.2.symm⟩
    · simp only [if_neg hrow, Except.ok.injEq, Prod.mk.injEq] at hstep
      exact Or.inr (Or.inl ⟨hred, hrow, hstep.1.symm, hstep.2.symm⟩)

theorem feedBarrier_of_redundant {s : BarrierState} {m : BarrierMsg}
    (hred : s.Redundant m) : feedBarrier s m = .ok (s, false) := by
  have hslot : s.receivedBarrierMsgArray m.row m.queueIndex = s.arrayRound := hred
  rw [feedBarrier_eq_recordBarrier, recordBarrier, if_neg (not_not_intro hslot)]

theorem feedBarrier_of_incomplete {s : BarrierState} {m : BarrierMsg}
    (hnew : ¬ s.Redundant m) (hrow : ¬ (s.record m).RowComplete m.row) :
    feedBarrier s m = .ok (s.record m, false) := by
  have hslot : s.receivedBarrierMsgArray m.row m.queueIndex ≠ s.arrayRound := hnew
  rw [feedBarrier_eq_recordBarrier, recordBarrier, if_pos hslot, if_neg hrow]

/-- A complete row is announced, except where the round counter overflows. -/
theorem feedBarrier_of_complete {s : BarrierState} {m : BarrierMsg}
    (hnew : ¬ s.Redundant m) (hrow : (s.record m).RowComplete m.row)
    (hround : m.row.val = arraySize - 1 → s.arrayRound ≠ intMax) :
    feedBarrier s m = .ok ((s.record m).closeRow m.row, s.posts m.epoch) := by
  have hslot : s.receivedBarrierMsgArray m.row m.queueIndex ≠ s.arrayRound := hnew
  rw [feedBarrier_eq_recordBarrier, recordBarrier, if_pos hslot, if_pos hrow,
    completeRow, BarrierState.closeRow]
  by_cases hlast : m.row.val = arraySize - 1
  · have hmax : (s.record m).arrayRound ≠ intMax := hround hlast
    rw [if_pos hlast, if_pos hlast, if_neg hmax]
    rfl
  · rw [if_neg hlast, if_neg hlast]
    rfl

/-- Between two rounds the row decides whether `array_round` moves. -/
theorem BarrierState.closeRow_arrayRound (s : BarrierState) (row : Fin arraySize) :
    (s.closeRow row).arrayRound =
      if row.val = arraySize - 1 then s.arrayRound + 1 else s.arrayRound := by
  unfold BarrierState.closeRow
  split <;> rfl

@[simp] theorem BarrierState.closeRow_array (s : BarrierState) (row : Fin arraySize) :
    (s.closeRow row).receivedBarrierMsgArray = s.receivedBarrierMsgArray := by
  unfold BarrierState.closeRow
  split <;> rfl

@[simp] theorem BarrierState.closeRow_epochNoSemPost (s : BarrierState)
    (row : Fin arraySize) : (s.closeRow row).epochNoSemPost = s.epochNoSemPost := by
  unfold BarrierState.closeRow
  split <;> rfl

/-- The invariant of every run: the round fits an `int`, no slot is ahead of it,
and no epoch is declared outdated. -/
structure BarrierState.Sound (s : BarrierState) : Prop where
  round_pos : 1 ≤ s.arrayRound
  round_le : s.arrayRound ≤ intMax
  slot_le : ∀ row queue, s.receivedBarrierMsgArray row queue ≤ s.arrayRound
  never_outdated : s.epochNoSemPost = 0

theorem BarrierState.initial_sound : BarrierState.initial.Sound :=
  ⟨Int.le_refl 1, by decide, fun _ _ => Int.zero_le_ofNat 1, rfl⟩

theorem BarrierState.Sound.posts_eq_true {s : BarrierState} (hs : s.Sound)
    (epoch : Int) : s.posts epoch = true := by
  simp [BarrierState.posts, hs.never_outdated]

theorem BarrierState.Sound.record {s : BarrierState} (hs : s.Sound)
    (m : BarrierMsg) : (s.record m).Sound := by
  refine ⟨hs.round_pos, hs.round_le, ?_, hs.never_outdated⟩
  intro row queue
  by_cases hslot : row = m.row ∧ queue = m.queueIndex
  · obtain ⟨rfl, rfl⟩ := hslot
    simp
  · rw [BarrierState.mark_slot_of_ne s hslot]
    exact hs.slot_le row queue

theorem BarrierState.Sound.closeRow {s : BarrierState} (hs : s.Sound)
    {row : Fin arraySize} (hmax : row.val = arraySize - 1 → s.arrayRound ≠ intMax) :
    (s.closeRow row).Sound := by
  have hround := s.closeRow_arrayRound row
  have hpos := hs.round_pos
  have hlimit := hs.round_le
  refine ⟨?_, ?_, ?_, by simpa using hs.never_outdated⟩
  · rw [hround]
    split <;> omega
  · rw [hround]
    split
    · rename_i hlast
      have hne := hmax hlast
      omega
    · exact hlimit
  · intro row' queue
    have hle := hs.slot_le row' queue
    rw [hround, BarrierState.closeRow_array]
    split <;> omega

theorem feedBarrier_sound {s s' : BarrierState} {m : BarrierMsg} {posted : Bool}
    (hs : s.Sound) (hstep : feedBarrier s m = .ok (s', posted)) : s'.Sound := by
  rcases feedBarrier_ok_cases hstep with ⟨_, rfl, _⟩ | ⟨_, _, rfl, _⟩ |
    ⟨_, _, hmax, rfl, _⟩
  · exact hs
  · exact hs.record m
  · exact (hs.record m).closeRow hmax

theorem feedBarriers_sound {msgs : List BarrierMsg} {s : BarrierState}
    {posts : List Bool} (hrun : feedBarriers msgs = .ok (s, posts)) : s.Sound := by
  refine runEvents_invariant (fun _ state _ => state.Sound)
    BarrierState.initial_sound ?_ hrun
  intro pre state early m next posted _ hs hstep
  exact feedBarrier_sound hs hstep

theorem BarrierState.Sound.record_slot_ge {s : BarrierState} (hs : s.Sound)
    (m : BarrierMsg) (row : Fin arraySize) (queue : Fin irqNum) :
    s.receivedBarrierMsgArray row queue ≤
      (s.record m).receivedBarrierMsgArray row queue := by
  by_cases hslot : row = m.row ∧ queue = m.queueIndex
  · obtain ⟨rfl, rfl⟩ := hslot
    rw [BarrierState.mark_slot_self]
    exact hs.slot_le m.row m.queueIndex
  · rw [BarrierState.mark_slot_of_ne s hslot]

/-- A slot never goes back to an earlier round. -/
theorem runEvents_feedBarrier_slot_ge {s s' : BarrierState} {msgs : List BarrierMsg}
    {posts : List Bool} (hs : s.Sound)
    (hrun : runEvents feedBarrier s msgs = .ok (s', posts)) :
    s'.Sound ∧ ∀ row queue, s.receivedBarrierMsgArray row queue ≤
      s'.receivedBarrierMsgArray row queue := by
  refine runEvents_invariant (fun _ state _ => state.Sound ∧ ∀ row queue,
    s.receivedBarrierMsgArray row queue ≤ state.receivedBarrierMsgArray row queue)
    ⟨hs, fun _ _ => Int.le_refl _⟩ ?_ hrun
  intro pre state early m next posted _ hinv hstep
  obtain ⟨hstate, hge⟩ := hinv
  refine ⟨feedBarrier_sound hstate hstep, ?_⟩
  intro row queue
  have hrecord := Int.le_trans (hge row queue) (hstate.record_slot_ge m row queue)
  rcases feedBarrier_ok_cases hstep with ⟨_, rfl, _⟩ | ⟨_, _, rfl, _⟩ |
    ⟨_, _, _, rfl, _⟩
  · exact hge row queue
  · exact hrecord
  · rw [BarrierState.closeRow_array]
    exact hrecord

/-- The message was recorded in the array while `array_round` was `round`. -/
def RecordedAt (msgs : List BarrierMsg) (round : Int) (m : BarrierMsg) : Prop :=
  ∃ before after s posts, msgs = before ++ m :: after ∧
    feedBarriers before = .ok (s, posts) ∧ s.arrayRound = round ∧ ¬ s.Redundant m

theorem RecordedAt.mem {msgs : List BarrierMsg} {round : Int} {m : BarrierMsg}
    (hrec : RecordedAt msgs round m) : m ∈ msgs := by
  obtain ⟨before, after, _, _, rfl, _⟩ := hrec
  simp

theorem RecordedAt.append {msgs : List BarrierMsg} {round : Int} {m : BarrierMsg}
    (hrec : RecordedAt msgs round m) (more : List BarrierMsg) :
    RecordedAt (msgs ++ more) round m := by
  obtain ⟨before, after, s, posts, rfl, hrun, hround, hnew⟩ := hrec
  exact ⟨before, after ++ more, s, posts, by simp, hrun, hround, hnew⟩

/-- Every slot that holds the current round was filled in this round by a
message of its own row and queue. -/
def SlotsRecorded (msgs : List BarrierMsg) (s : BarrierState) : Prop :=
  ∀ row queue, s.receivedBarrierMsgArray row queue = s.arrayRound →
    ∃ m, RecordedAt msgs s.arrayRound m ∧ m.row = row ∧ m.queueIndex = queue

theorem SlotsRecorded.record {msgs : List BarrierMsg} {s : BarrierState}
    {posts : List Bool} {m : BarrierMsg} (hslots : SlotsRecorded msgs s)
    (hrun : feedBarriers msgs = .ok (s, posts)) (hnew : ¬ s.Redundant m) :
    SlotsRecorded (msgs ++ [m]) (s.record m) := by
  intro row queue hslot
  by_cases hsame : row = m.row ∧ queue = m.queueIndex
  · exact ⟨m, ⟨msgs, [], s, posts, rfl, hrun, rfl, hnew⟩, hsame.1.symm, hsame.2.symm⟩
  · rw [BarrierState.mark_slot_of_ne s hsame] at hslot
    obtain ⟨m', hrec, hrow, hqueue⟩ := hslots row queue hslot
    exact ⟨m', hrec.append [m], hrow, hqueue⟩

/-- A new round starts with no slot set. -/
theorem SlotsRecorded.closeRow {msgs : List BarrierMsg} {s : BarrierState}
    (hs : s.Sound) (hslots : SlotsRecorded msgs s) (row : Fin arraySize) :
    SlotsRecorded msgs (s.closeRow row) := by
  intro row' queue hslot
  have hround := s.closeRow_arrayRound row
  have hle := hs.slot_le row' queue
  rw [BarrierState.closeRow_array] at hslot
  by_cases hlast : row.val = arraySize - 1
  · rw [if_pos hlast] at hround
    omega
  · rw [if_neg hlast] at hround
    rw [hround] at hslot ⊢
    exact hslots row' queue hslot

theorem feedBarriers_slotsRecorded {msgs : List BarrierMsg} {s : BarrierState}
    {posts : List Bool} (hrun : feedBarriers msgs = .ok (s, posts)) :
    SlotsRecorded msgs s := by
  refine runEvents_invariant (fun pre state _ => SlotsRecorded pre state) ?_ ?_ hrun
  · intro row queue hslot
    cases hslot
  · intro pre state early m next posted hpre hslots hstep
    have hs : state.Sound := feedBarriers_sound hpre
    rcases feedBarrier_ok_cases hstep with ⟨_, rfl, _⟩ | ⟨hnew, _, rfl, _⟩ |
      ⟨hnew, _, _, rfl, _⟩
    · intro row queue hslot
      obtain ⟨m', hrec, hrow, hqueue⟩ := hslots row queue hslot
      exact ⟨m', hrec.append [m], hrow, hqueue⟩
    · exact hslots.record hpre hnew
    · exact (hslots.record hpre hnew).closeRow (hs.record m) m.row

end SafeTimer
