/-
What the semaphore of the barrier means.  First the messages that may mix in
one row, then the runs in which consecutive epochs follow one another.
-/
import SafeTimer.BarrierRing

namespace SafeTimer

/-- Each flow delivers its epochs in increasing order, except that a message
delivered before may be delivered again.  `pre` has already been delivered. -/
def FlowOrderedFrom (pre : List BarrierMsg) : List BarrierMsg → Prop
  | [] => True
  | m :: rest =>
      (m ∈ pre ∨ ∀ m' ∈ pre, m'.queueIndex = m.queueIndex → m'.epoch < m.epoch) ∧
        FlowOrderedFrom (pre ++ [m]) rest

instance decidableFlowOrderedFrom (pre msgs : List BarrierMsg) :
    Decidable (FlowOrderedFrom pre msgs) :=
  match msgs with
  | [] => isTrue trivial
  | m :: rest =>
      have := decidableFlowOrderedFrom (pre ++ [m]) rest
      inferInstanceAs (Decidable (_ ∧ _))

/-- The traffic of the barrier flows, retransmissions included. -/
def FlowOrdered (msgs : List BarrierMsg) : Prop :=
  FlowOrderedFrom [] msgs

instance (msgs : List BarrierMsg) : Decidable (FlowOrdered msgs) :=
  decidableFlowOrderedFrom [] msgs

/-- Whenever a message executes `sem_post`, its epoch has been processed for
every queue index. -/
def NoPrematureCompletion (msgs : List BarrierMsg) : Prop :=
  ∀ pre m post s posts, msgs = pre ++ m :: post →
    feedBarriers (pre ++ [m]) = .ok (s, posts ++ [true]) →
    ∀ queue, ∃ m' ∈ pre ++ [m], m'.epoch = m.epoch ∧ m'.queueIndex = queue

/-- No two messages of different epochs are recorded in the same row while
`array_round` has the same value. -/
def RowsUnmixed (msgs : List BarrierMsg) : Prop :=
  EveryStep feedBarrier
    (fun pre s m => ¬ s.Redundant m → ∀ m', RecordedAt pre s.arrayRound m' →
      m'.row = m.row → m'.epoch = m.epoch) .initial msgs

/-- A posting step completes its row with the message's own slot. -/
theorem feedBarrier_posted {s s' : BarrierState} {m : BarrierMsg}
    (hstep : feedBarrier s m = .ok (s', true)) :
    ¬ s.Redundant m ∧ (s.record m).RowComplete m.row := by
  rcases feedBarrier_ok_cases hstep with ⟨_, _, hfalse⟩ | ⟨_, _, _, hfalse⟩ |
    ⟨hnew, hrow, _⟩
  · cases hfalse
  · cases hfalse
  · exact ⟨hnew, hrow⟩

/-- The other slots of a completed row held the round before the last message. -/
theorem BarrierState.RowComplete.slot_of_ne {s : BarrierState} {m : BarrierMsg}
    (hrow : (s.record m).RowComplete m.row) {queue : Fin irqNum}
    (hne : queue ≠ m.queueIndex) :
    s.receivedBarrierMsgArray m.row queue = s.arrayRound := by
  have hslot := hrow queue
  rw [BarrierState.mark_slot_of_ne s (fun hsame => hne hsame.2)] at hslot
  exact hslot

/-- As long as a row is filled by one epoch in each round, its completion means
that this epoch has been processed for every queue. -/
theorem noPrematureCompletion_of_rowsUnmixed (msgs : List BarrierMsg)
    (hrows : RowsUnmixed msgs) : NoPrematureCompletion msgs := by
  intro pre m post s posts hsplit hrun queue
  obtain ⟨before, early, posted, hpre, hstep, hposts⟩ :=
    runEvents_concat_eq_ok_iff.mp hrun
  have hposted : [true] = [posted] := (List.append_inj' hposts rfl).2
  rw [← List.singleton_inj.mp hposted] at hstep
  obtain ⟨hnew, hrow⟩ := feedBarrier_posted hstep
  by_cases hqueue : queue = m.queueIndex
  · exact ⟨m, by simp, rfl, hqueue.symm⟩
  · obtain ⟨m', hrec, hsame, hindex⟩ :=
      feedBarriers_slotsRecorded hpre m.row queue (hrow.slot_of_ne hqueue)
    have hepoch : m'.epoch = m.epoch :=
      hrows pre m post before early hsplit hpre hnew m' hrec hsame
    exact ⟨m', List.mem_append_left _ hrec.mem, hepoch, hindex⟩

/-- Traffic whose epochs all have rows of their own never mixes. -/
theorem rowsUnmixed_of_rows_distinct {msgs : List BarrierMsg}
    (hdistinct : ∀ m ∈ msgs, ∀ m' ∈ msgs, m'.row = m.row → m'.epoch = m.epoch) :
    RowsUnmixed msgs := by
  intro pre m post s posts hsplit _ _ m' hrec hrow
  subst hsplit
  exact hdistinct m (by simp) m' (List.mem_append_left _ hrec.mem) hrow

/-- Two epochs with a redelivered message between them. -/
theorem noPrematureCompletion_two_epochs :
    let msgs : List BarrierMsg :=
      [⟨7, 0, by decide⟩, ⟨7, 1, by decide⟩, ⟨8, 0, by decide⟩, ⟨7, 1, by decide⟩,
        ⟨7, 2, by decide⟩, ⟨7, 3, by decide⟩, ⟨8, 1, by decide⟩]
    RowsUnmixed msgs ∧ NoPrematureCompletion msgs := by
  intro msgs
  have hrows : RowsUnmixed msgs := rowsUnmixed_of_rows_distinct (by decide)
  exact ⟨hrows, noPrematureCompletion_of_rowsUnmixed msgs hrows⟩

/-- Epochs 5 and 99 are complete, so the second round has begun.  A retransmission
of epoch 5 on flow 0 then stands for the message of epoch 105 that flow 0 has
not delivered, and epoch 105 is announced on three messages. -/
theorem retransmission_completes_prematurely :
    ¬ ∀ msgs : List BarrierMsg, FlowOrdered msgs → NoPrematureCompletion msgs := by
  intro hproperty
  let pre : List BarrierMsg :=
    [⟨5, 0, by decide⟩, ⟨5, 1, by decide⟩, ⟨5, 2, by decide⟩, ⟨5, 3, by decide⟩,
      ⟨99, 0, by decide⟩, ⟨99, 1, by decide⟩, ⟨99, 2, by decide⟩, ⟨99, 3, by decide⟩,
      ⟨5, 0, by decide⟩, ⟨105, 1, by decide⟩, ⟨105, 2, by decide⟩]
  let last : BarrierMsg := ⟨105, 3, by decide⟩
  obtain ⟨s, hrun⟩ : ∃ s, feedBarriers (pre ++ [last]) = .ok (s,
      [false, false, false, true, false, false, false, true, false, false, false]
        ++ [true]) := exists_run_of_outputs (by rfl)
  have hpremature := hproperty (pre ++ [last]) (by decide) pre last [] s _ rfl hrun 0
  exact absurd hpremature (by decide)

/-- The messages of one epoch by queue index: `last` supplies the one index
that is still missing after `early`, in which any index may be repeated. -/
structure EpochBatch where
  early : List (Fin irqNum)
  last : Fin irqNum
  last_not_mem : last ∉ early
  mem_of_ne_last : ∀ queue, queue ≠ last → queue ∈ early

/-- The messages of a list of queue indices for one epoch. -/
def epochMessages (k : Nat) (queues : List (Fin irqNum)) : List BarrierMsg :=
  queues.map fun queue => ⟨(k : Int) + 1, queue, by omega⟩

def EpochBatch.messages (batch : EpochBatch) (k : Nat) : List BarrierMsg :=
  epochMessages k (batch.early ++ [batch.last])

/-- Only the message that supplies the missing index posts. -/
def EpochBatch.posts (batch : EpochBatch) : List Bool :=
  List.replicate batch.early.length false ++ [true]

/-- Epochs `k + 1`, `k + 2`, ... delivered one after the other. -/
def consecutiveEpochs : Nat → List EpochBatch → List BarrierMsg
  | _, [] => []
  | k, batch :: rest => batch.messages k ++ consecutiveEpochs (k + 1) rest

/-- The row of epoch `k + 1`. -/
def epochRow (k : Nat) : Fin arraySize :=
  ⟨(k + 1) % arraySize, Nat.mod_lt _ (by decide)⟩

/-- The ring after epochs `1, ..., k`: the round counts the wraps, and a slot
can hold it only in a row that this round has passed already. -/
structure RingAfter (k : Nat) (s : BarrierState) : Prop where
  sound : s.Sound
  round_eq : s.arrayRound = ((k + 1) / arraySize : Nat) + 1
  passed : ∀ row queue, s.receivedBarrierMsgArray row queue = s.arrayRound →
    arraySize * ((k + 1) / arraySize) + row.val ≤ k

theorem ringAfter_initial : RingAfter 0 .initial := by
  refine ⟨BarrierState.initial_sound, rfl, ?_⟩
  intro row queue hslot
  cases hslot

/-- The row of the next epoch is open in every slot. -/
theorem RingAfter.next_row_open {k : Nat} {s : BarrierState} (hring : RingAfter k s)
    (queue : Fin irqNum) :
    s.receivedBarrierMsgArray (epochRow k) queue ≠ s.arrayRound := by
  intro hslot
  have hpassed := hring.passed (epochRow k) queue hslot
  have hdiv := Nat.div_add_mod (k + 1) arraySize
  simp only [epochRow] at hpassed
  omega

/-- Mark a list of slots of one row. -/
def BarrierState.markAll (s : BarrierState) (row : Fin arraySize)
    (queues : List (Fin irqNum)) : BarrierState :=
  queues.foldl (fun state queue => state.mark row queue) s

@[simp] theorem BarrierState.markAll_arrayRound (s : BarrierState)
    (row : Fin arraySize) (queues : List (Fin irqNum)) :
    (s.markAll row queues).arrayRound = s.arrayRound := by
  induction queues generalizing s with
  | nil => rfl
  | cons queue rest ih => exact ih (s.mark row queue)

theorem BarrierState.markAll_slot_of_not_mem (s : BarrierState) (row : Fin arraySize)
    {queues : List (Fin irqNum)} {queue : Fin irqNum} (hqueue : queue ∉ queues) :
    (s.markAll row queues).receivedBarrierMsgArray row queue =
      s.receivedBarrierMsgArray row queue := by
  induction queues generalizing s with
  | nil => rfl
  | cons head rest ih =>
      simp only [List.mem_cons, not_or] at hqueue
      have hrest := ih (s.mark row head) hqueue.2
      rw [BarrierState.mark_slot_of_ne s (fun hsame => hqueue.1 hsame.2)] at hrest
      exact hrest

theorem BarrierState.markAll_slot_of_mem (s : BarrierState) (row : Fin arraySize)
    {queues : List (Fin irqNum)} {queue : Fin irqNum} (hqueue : queue ∈ queues) :
    (s.markAll row queues).receivedBarrierMsgArray row queue = s.arrayRound := by
  induction queues generalizing s with
  | nil => cases hqueue
  | cons head rest ih =>
      by_cases hrest : queue ∈ rest
      · exact ih (s.mark row head) hrest
      · rcases List.mem_cons.mp hqueue with rfl | hmem
        · have hkept := (s.mark row queue).markAll_slot_of_not_mem row hrest
          rw [BarrierState.mark_slot_self] at hkept
          exact hkept
        · exact absurd hmem hrest

theorem BarrierState.markAll_slot_of_row_ne (s : BarrierState)
    {row row' : Fin arraySize} (hrow : row' ≠ row) (queues : List (Fin irqNum))
    (queue : Fin irqNum) :
    (s.markAll row queues).receivedBarrierMsgArray row' queue =
      s.receivedBarrierMsgArray row' queue := by
  induction queues generalizing s with
  | nil => rfl
  | cons head rest ih =>
      have hrest := ih (s.mark row head)
      rw [BarrierState.mark_slot_of_ne s (fun hsame => hrow hsame.1)] at hrest
      exact hrest

/-- Marking a slot that is set already changes nothing. -/
theorem BarrierState.mark_of_set {s : BarrierState} {row : Fin arraySize}
    {queue : Fin irqNum}
    (hset : s.receivedBarrierMsgArray row queue = s.arrayRound) :
    s.mark row queue = s := by
  have hself : Function.update (s.receivedBarrierMsgArray row) queue s.arrayRound =
      s.receivedBarrierMsgArray row := by
    rw [← hset, Function.update_eq_self]
  rw [BarrierState.mark, hself, Function.update_eq_self]

theorem epochMessage_row (k : Nat) (queue : Fin irqNum) (hpos : 1 ≤ (k : Int) + 1) :
    (BarrierMsg.mk ((k : Int) + 1) queue hpos).row = epochRow k := by
  apply Fin.ext
  simp only [BarrierMsg.row, epochRow, arraySize]
  omega

/-- While one index is missing, every message is recorded or redundant, and
none of them posts. -/
theorem runEvents_early {s : BarrierState} {k : Nat} {early : List (Fin irqNum)}
    {last : Fin irqNum} (hlast : last ∉ early)
    (hopen : s.receivedBarrierMsgArray (epochRow k) last ≠ s.arrayRound) :
    runEvents feedBarrier s (epochMessages k early) =
      .ok (s.markAll (epochRow k) early, List.replicate early.length false) := by
  induction early generalizing s with
  | nil => rfl
  | cons queue rest ih =>
      simp only [List.mem_cons, not_or] at hlast
      have hne : ¬ (epochRow k = epochRow k ∧ last = queue) :=
        fun hsame => hlast.1 hsame.2
      have hkept : (s.mark (epochRow k) queue).receivedBarrierMsgArray
          (epochRow k) last ≠ s.arrayRound := by
        rw [BarrierState.mark_slot_of_ne s hne]
        exact hopen
      let m : BarrierMsg := ⟨(k : Int) + 1, queue, by omega⟩
      have hrow : m.row = epochRow k := epochMessage_row k queue (by omega)
      have hfeed : feedBarrier s m = .ok (s.mark (epochRow k) queue, false) := by
        by_cases hred : s.Redundant m
        · rw [feedBarrier_of_redundant hred]
          rw [BarrierState.Redundant, hrow] at hred
          rw [BarrierState.mark_of_set hred]
        · have hrecord : s.record m = s.mark (epochRow k) queue := by
            rw [BarrierState.record, hrow]
          rw [feedBarrier_of_incomplete hred, hrecord]
          rw [hrecord, hrow]
          exact fun hcomplete => hkept (hcomplete last)
      apply runEvents_cons_eq_ok_iff.mpr
      exact ⟨_, _, _, hfeed, ih hlast.2 hkept, rfl⟩

/-- Closing the row of epoch `k + 1`, once the rest of the array is as before. -/
theorem RingAfter.close {k : Nat} {s filled : BarrierState} (hring : RingAfter k s)
    (hsound : filled.Sound) (hround : filled.arrayRound = s.arrayRound)
    (hmax : (epochRow k).val = arraySize - 1 → filled.arrayRound ≠ intMax)
    (hrest : ∀ row, row ≠ epochRow k → ∀ queue,
      filled.receivedBarrierMsgArray row queue = s.receivedBarrierMsgArray row queue) :
    RingAfter (k + 1) (filled.closeRow (epochRow k)) := by
  have hcount := filled.closeRow_arrayRound (epochRow k)
  have hrow : (epochRow k).val = (k + 1) % 100 := rfl
  rw [hround, hring.round_eq] at hcount
  have hnext : (filled.closeRow (epochRow k)).arrayRound =
      ((k + 1 + 1) / arraySize : Nat) + 1 := by
    rw [hcount, hrow]
    simp only [arraySize]
    split <;> omega
  refine ⟨hsound.closeRow hmax, hnext, ?_⟩
  intro row queue hslot
  rw [BarrierState.closeRow_array] at hslot
  by_cases hlast : (epochRow k).val = arraySize - 1
  · -- the round has moved past every slot
    have hle := hsound.slot_le row queue
    rw [if_pos hlast] at hcount
    rw [hround, hring.round_eq] at hle
    omega
  · rw [if_neg hlast] at hcount
    simp only [hrow, arraySize] at hlast ⊢
    by_cases hsame : row = epochRow k
    · subst hsame
      rw [hrow]
      omega
    · rw [hrest row hsame queue, hcount, ← hring.round_eq] at hslot
      have hpassed := hring.passed row queue hslot
      simp only [arraySize] at hpassed
      omega

/-- One epoch: the message that supplies the missing index posts, and the round
moves on exactly when the row is the last one. -/
theorem RingAfter.epoch {k : Nat} {s : BarrierState} (hring : RingAfter k s)
    (batch : EpochBatch) (hrounds : (k + 2) / arraySize < 2 ^ 31 - 1) :
    ∃ s', runEvents feedBarrier s (batch.messages k) = .ok (s', batch.posts) ∧
      RingAfter (k + 1) s' := by
  let filled := s.markAll (epochRow k) batch.early
  let m : BarrierMsg := ⟨(k : Int) + 1, batch.last, by omega⟩
  have hrow : m.row = epochRow k := epochMessage_row k batch.last (by omega)
  have hearly : runEvents feedBarrier s (epochMessages k batch.early) =
      .ok (filled, List.replicate batch.early.length false) :=
    runEvents_early batch.last_not_mem (hring.next_row_open batch.last)
  have hsound : filled.Sound := by
    refine runEvents_invariant (fun _ state _ => state.Sound) hring.sound ?_ hearly
    intro _ _ _ _ _ _ _ hstate hstep
    exact feedBarrier_sound hstate hstep
  have hround : filled.arrayRound = s.arrayRound := s.markAll_arrayRound _ _
  have hnew : ¬ filled.Redundant m := by
    rw [BarrierState.Redundant, hrow, hround,
      s.markAll_slot_of_not_mem _ batch.last_not_mem]
    exact hring.next_row_open batch.last
  have hcomplete : (filled.record m).RowComplete m.row := by
    intro queue
    by_cases hqueue : queue = batch.last
    · subst hqueue
      exact filled.mark_slot_self m.row batch.last
    · rw [BarrierState.mark_slot_of_ne filled (fun hsame => hqueue hsame.2), hrow,
        BarrierState.mark_arrayRound, hround]
      exact s.markAll_slot_of_mem _ (batch.mem_of_ne_last queue hqueue)
  have hmax : m.row.val = arraySize - 1 → filled.arrayRound ≠ intMax := by
    intro hlast
    have hval : (k + 1) % 100 = 99 := by rw [hrow] at hlast; exact hlast
    rw [hround, hring.round_eq]
    simp only [arraySize, intMax] at hrounds ⊢
    omega
  have hfeed := feedBarrier_of_complete hnew hcomplete hmax
  rw [hsound.posts_eq_true] at hfeed
  refine ⟨(filled.record m).closeRow m.row, ?_, ?_⟩
  · rw [EpochBatch.messages, epochMessages, List.map_append]
    exact runEvents_concat_eq_ok_iff.mpr ⟨filled, _, true, hearly, hfeed, rfl⟩
  · rw [hrow]
    apply hring.close (hsound.record m) hround (hrow ▸ hmax)
    intro row hne queue
    rw [BarrierState.mark_slot_of_ne filled (fun hsame => hne (hsame.1.trans hrow))]
    exact s.markAll_slot_of_row_ne hne _ queue

theorem RingAfter.epochs {k : Nat} {s : BarrierState} (hring : RingAfter k s)
    (batches : List EpochBatch)
    (hrounds : (k + batches.length + 1) / arraySize < 2 ^ 31 - 1) :
    ∃ s', runEvents feedBarrier s (consecutiveEpochs k batches) =
        .ok (s', batches.flatMap EpochBatch.posts) ∧
      RingAfter (k + batches.length) s' := by
  induction batches generalizing k s with
  | nil => exact ⟨s, rfl, hring⟩
  | cons batch rest ih =>
      simp only [List.length_cons, arraySize] at hrounds
      obtain ⟨middle, hfirst, hmiddle⟩ := hring.epoch batch
        (by simp only [arraySize]; omega)
      obtain ⟨final, hrest, hfinal⟩ := ih hmiddle (by simp only [arraySize]; omega)
      refine ⟨final, ?_, ?_⟩
      · exact runEvents_append_eq_ok_iff.mpr
          ⟨middle, _, _, hfirst, hrest, List.flatMap_cons⟩
      · rw [List.length_cons, ← Nat.add_assoc, Nat.add_right_comm]
        exact hfinal

/-- Consecutive epochs with redundant messages: after every epoch `e` the round
is `(e + 1) / ARRAY_SIZE + 1`, no slot is ahead of it, and `sem_post` was
executed once per epoch, on the message that supplied the missing index. -/
theorem consecutiveEpochs_rounds_exact (batches : List EpochBatch)
    (hrounds : (batches.length + 1) / arraySize < 2 ^ 31 - 1) :
    ∀ done rest, batches = done ++ rest →
      ∃ s, feedBarriers (consecutiveEpochs 0 done) =
          .ok (s, done.flatMap EpochBatch.posts) ∧
        s.arrayRound = ((done.length + 1) / arraySize : Nat) + 1 ∧
        ∀ row queue, s.receivedBarrierMsgArray row queue ≤ s.arrayRound := by
  intro done rest hsplit
  have hbound : (0 + done.length + 1) / arraySize < 2 ^ 31 - 1 := by
    rw [hsplit, List.length_append] at hrounds
    simp only [arraySize] at hrounds ⊢
    omega
  obtain ⟨s, hrun, hring⟩ := ringAfter_initial.epochs done hbound
  rw [Nat.zero_add] at hring
  exact ⟨s, hrun, hring.round_eq, hring.sound.slot_le⟩

/-- Two epochs, the first of them with a repeated index. -/
theorem consecutiveEpochs_two :
    let batches : List EpochBatch :=
      [⟨[0, 1, 0, 2], 3, by decide, by decide⟩, ⟨[3, 2, 1], 0, by decide, by decide⟩]
    (batches.length + 1) / arraySize < 2 ^ 31 - 1 ∧
      ∃ s, feedBarriers (consecutiveEpochs 0 batches) =
          .ok (s, [false, false, false, false, true, false, false, false, true]) ∧
        s.arrayRound = 1 ∧
        ∀ row queue, s.receivedBarrierMsgArray row queue ≤ s.arrayRound := by
  intro batches
  have hrounds : (batches.length + 1) / arraySize < 2 ^ 31 - 1 := by decide
  obtain ⟨s, hrun, hround, hslots⟩ :=
    consecutiveEpochs_rounds_exact batches hrounds batches [] rfl
  exact ⟨hrounds, s, hrun, hround.trans (by decide), hslots⟩

end SafeTimer
