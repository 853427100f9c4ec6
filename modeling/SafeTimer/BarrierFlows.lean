/-
Merges of the barrier flows.  Every flow delivers the same increasing epochs in
order; which of these merges are announced exactly once per epoch is decided by
where the messages fall between the ends of the rounds.
-/
import SafeTimer.BarrierRounds
import Mathlib.Data.List.Sort
import Mathlib.Data.Set.Finite.Lattice

namespace SafeTimer

/-- A merge of the flows: every queue delivers `epochs` in this order, without
loss or duplication. -/
structure FlowMerge (epochs : List Int) (msgs : List BarrierMsg) : Prop where
  increasing : epochs.Pairwise (· < ·)
  flow : ∀ queue, (msgs.filter fun m => m.queueIndex = queue).map BarrierMsg.epoch =
    epochs

/-- Every queue has delivered the epoch. -/
def EpochComplete (msgs : List BarrierMsg) (epoch : Int) : Prop :=
  ∀ queue : Fin irqNum, ∃ m ∈ msgs, m.epoch = epoch ∧ m.queueIndex = queue

instance (msgs : List BarrierMsg) (epoch : Int) : Decidable (EpochComplete msgs epoch) :=
  inferInstanceAs (Decidable (∀ _, _))

/-- For each message whether it is the last one of its epoch. -/
def lastFlagsFrom (pre : List BarrierMsg) : List BarrierMsg → List Bool
  | [] => []
  | m :: rest =>
      decide (EpochComplete (pre ++ [m]) m.epoch) :: lastFlagsFrom (pre ++ [m]) rest

def lastFlags (msgs : List BarrierMsg) : List Bool :=
  lastFlagsFrom [] msgs

/-- The epochs for which `sem_post` was executed, in the order of execution. -/
def announced (msgs : List BarrierMsg) (posts : List Bool) : List Int :=
  ((msgs.zip posts).filter Prod.snd).map fun pair => pair.1.epoch

/-- `sem_post` is executed once for each epoch, on its last message. -/
def AnnouncedExactlyOnce (epochs : List Int) (msgs : List BarrierMsg) : Prop :=
  ∃ s posts, feedBarriers msgs = .ok (s, posts) ∧ posts = lastFlags msgs ∧
    announced msgs posts = epochs

/-- The message ends a round: it is the last one of an epoch in the last row. -/
def EndsRound (pre : List BarrierMsg) (m : BarrierMsg) : Prop :=
  EpochComplete (pre ++ [m]) m.epoch ∧ m.row.val = arraySize - 1

instance (pre : List BarrierMsg) (m : BarrierMsg) : Decidable (EndsRound pre m) :=
  inferInstanceAs (Decidable (_ ∧ _))

def roundEndsFrom (pre : List BarrierMsg) : List BarrierMsg → Nat
  | [] => 0
  | m :: rest => (if EndsRound pre m then 1 else 0) + roundEndsFrom (pre ++ [m]) rest

/-- How many messages of the list end a round. -/
def roundEnds (msgs : List BarrierMsg) : Nat :=
  roundEndsFrom [] msgs

/-- Two messages of the same row arrive between the same two round ends exactly
when they carry the same epoch. -/
def RoundsSeparated (msgs : List BarrierMsg) : Prop :=
  ∀ pre m pre' m', Occurs msgs pre m → Occurs msgs pre' m' → m.row = m'.row →
    (roundEnds pre = roundEnds pre' ↔ m.epoch = m'.epoch)

theorem roundEndsFrom_append (pre first second : List BarrierMsg) :
    roundEndsFrom pre (first ++ second) =
      roundEndsFrom pre first + roundEndsFrom (pre ++ first) second := by
  induction first generalizing pre with
  | nil => simp [roundEndsFrom]
  | cons m rest ih =>
      have hrest := ih (pre ++ [m])
      rw [List.append_assoc, List.singleton_append] at hrest
      simp only [List.cons_append, roundEndsFrom, hrest]
      omega

theorem roundEnds_append_le (first second : List BarrierMsg) :
    roundEnds first ≤ roundEnds (first ++ second) := by
  rw [roundEnds, roundEnds, roundEndsFrom_append]
  exact Nat.le_add_right _ _

theorem roundEnds_concat (msgs : List BarrierMsg) (m : BarrierMsg) :
    roundEnds (msgs ++ [m]) = roundEnds msgs + if EndsRound msgs m then 1 else 0 := by
  rw [roundEnds, roundEndsFrom_append]
  rfl

theorem Occurs.roundEnds_le {msgs pre : List BarrierMsg} {m : BarrierMsg}
    (hoccurs : Occurs msgs pre m) : roundEnds pre ≤ roundEnds msgs := by
  obtain ⟨post, rfl⟩ := hoccurs
  exact roundEnds_append_le pre (m :: post)

theorem lastFlagsFrom_append (pre first second : List BarrierMsg) :
    lastFlagsFrom pre (first ++ second) =
      lastFlagsFrom pre first ++ lastFlagsFrom (pre ++ first) second := by
  induction first generalizing pre with
  | nil => simp [lastFlagsFrom]
  | cons m rest ih =>
      have hrest := ih (pre ++ [m])
      rw [List.append_assoc, List.singleton_append] at hrest
      simp only [List.cons_append, lastFlagsFrom, hrest]

theorem lastFlags_concat (msgs : List BarrierMsg) (m : BarrierMsg) :
    lastFlags (msgs ++ [m]) =
      lastFlags msgs ++ [decide (EpochComplete (msgs ++ [m]) m.epoch)] := by
  rw [lastFlags, lastFlagsFrom_append]
  rfl

theorem lastFlags_length (msgs : List BarrierMsg) :
    (lastFlags msgs).length = msgs.length := by
  induction msgs using List.reverseRecOn with
  | nil => rfl
  | append_singleton msgs m ih => simp [lastFlags_concat, ih]

/-- Per queue the epochs of a merge increase. -/
theorem pairwise_of_flows {msgs : List BarrierMsg}
    (hflows : ∀ queue, ((msgs.filter fun m => m.queueIndex = queue).map
      BarrierMsg.epoch).Pairwise (· < ·)) :
    msgs.Pairwise fun m m' => m.queueIndex = m'.queueIndex → m.epoch < m'.epoch := by
  induction msgs with
  | nil => exact List.Pairwise.nil
  | cons m rest ih =>
      rw [List.pairwise_cons]
      constructor
      · intro m' hmem hqueue
        have hflow := hflows m.queueIndex
        simp only [List.filter_cons, decide_true, if_true, List.map_cons,
          List.pairwise_cons] at hflow
        apply hflow.1
        exact List.mem_map_of_mem (List.mem_filter.mpr ⟨hmem, by simp [hqueue]⟩)
      · apply ih
        intro queue
        have hflow := hflows queue
        by_cases hqueue : m.queueIndex = queue
        · simp only [List.filter_cons, hqueue, decide_true, if_true, List.map_cons,
            List.pairwise_cons] at hflow
          exact hflow.2
        · simpa [List.filter_cons, hqueue] using hflow

theorem FlowMerge.pairwise {epochs : List Int} {msgs : List BarrierMsg}
    (hmerge : FlowMerge epochs msgs) :
    msgs.Pairwise fun m m' => m.queueIndex = m'.queueIndex → m.epoch < m'.epoch := by
  apply pairwise_of_flows
  intro queue
  rw [hmerge.flow queue]
  exact hmerge.increasing

/-- What a queue delivered before a message has a smaller epoch. -/
theorem FlowMerge.epoch_lt {epochs : List Int} {msgs pre : List BarrierMsg}
    {m m' : BarrierMsg} (hmerge : FlowMerge epochs msgs) (hoccurs : Occurs msgs pre m)
    (hmem : m' ∈ pre) (hqueue : m'.queueIndex = m.queueIndex) : m'.epoch < m.epoch := by
  obtain ⟨post, rfl⟩ := hoccurs
  exact (List.pairwise_append.mp hmerge.pairwise).2.2 m' hmem m (by simp) hqueue

theorem FlowMerge.exists_mem {epochs : List Int} {msgs : List BarrierMsg}
    (hmerge : FlowMerge epochs msgs) {epoch : Int} (hepoch : epoch ∈ epochs)
    (queue : Fin irqNum) : ∃ m ∈ msgs, m.epoch = epoch ∧ m.queueIndex = queue := by
  rw [← hmerge.flow queue] at hepoch
  obtain ⟨m, hmem, rfl⟩ := List.mem_map.mp hepoch
  rw [List.mem_filter] at hmem
  exact ⟨m, hmem.1, rfl, by simpa using hmem.2⟩

theorem FlowMerge.epoch_mem {epochs : List Int} {msgs : List BarrierMsg}
    (hmerge : FlowMerge epochs msgs) {m : BarrierMsg} (hmem : m ∈ msgs) :
    m.epoch ∈ epochs := by
  rw [← hmerge.flow m.queueIndex]
  exact List.mem_map_of_mem (List.mem_filter.mpr ⟨hmem, by simp⟩)

/-- A merge carries each message once. -/
theorem FlowMerge.occurs_unique {epochs : List Int} {msgs pre pre' : List BarrierMsg}
    {m m' : BarrierMsg} (hmerge : FlowMerge epochs msgs) (hoccurs : Occurs msgs pre m)
    (hoccurs' : Occurs msgs pre' m') (hepoch : m.epoch = m'.epoch)
    (hqueue : m.queueIndex = m'.queueIndex) : pre = pre' := by
  rcases hoccurs.trichotomy hoccurs' with hsame | hbefore | hafter
  · exact hsame.1
  · have hlt := hmerge.epoch_lt hoccurs' hbefore.mem hqueue
    omega
  · have hlt := hmerge.epoch_lt hoccurs hafter.mem hqueue.symm
    omega

theorem epochComplete_concat_iff {msgs : List BarrierMsg} {m : BarrierMsg} {epoch : Int} :
    EpochComplete (msgs ++ [m]) epoch ↔
      EpochComplete msgs epoch ∨
        (m.epoch = epoch ∧ EpochComplete (msgs ++ [m]) m.epoch) := by
  constructor
  · intro hcomplete
    by_cases hepoch : m.epoch = epoch
    · exact Or.inr ⟨hepoch, hepoch ▸ hcomplete⟩
    · apply Or.inl
      intro queue
      obtain ⟨m', hmem, hsame, hqueue⟩ := hcomplete queue
      rcases List.mem_append.mp hmem with hold | hlast
      · exact ⟨m', hold, hsame, hqueue⟩
      · rw [List.mem_singleton.mp hlast] at hsame
        exact absurd hsame hepoch
  · rintro (hcomplete | ⟨rfl, hcomplete⟩)
    · intro queue
      obtain ⟨m', hmem, hsame⟩ := hcomplete queue
      exact ⟨m', List.mem_append_left _ hmem, hsame⟩
    · exact hcomplete

theorem announced_lastFlags_concat (msgs : List BarrierMsg) (m : BarrierMsg) :
    announced (msgs ++ [m]) (lastFlags (msgs ++ [m])) =
      announced msgs (lastFlags msgs) ++
        if EpochComplete (msgs ++ [m]) m.epoch then [m.epoch] else [] := by
  rw [lastFlags_concat, announced, List.zip_append (lastFlags_length msgs).symm,
    List.filter_append, List.map_append]
  by_cases hcomplete : EpochComplete (msgs ++ [m]) m.epoch
  · simp [announced, hcomplete]
  · simp [announced, hcomplete]

/-- An epoch has had its last message exactly when it is complete. -/
theorem mem_announced_lastFlags {msgs : List BarrierMsg} {epoch : Int} :
    epoch ∈ announced msgs (lastFlags msgs) ↔ EpochComplete msgs epoch := by
  induction msgs using List.reverseRecOn with
  | nil =>
      constructor
      · intro hmem
        cases hmem
      · intro hcomplete
        obtain ⟨m, hmem, _⟩ := hcomplete 0
        cases hmem
  | append_singleton msgs m ih =>
      have hconcat : EpochComplete (msgs ++ [m]) epoch ↔ _ := epochComplete_concat_iff
      rw [announced_lastFlags_concat, List.mem_append, ih, hconcat]
      by_cases hcomplete : EpochComplete (msgs ++ [m]) m.epoch
      · simp [hcomplete, eq_comm]
      · simp [hcomplete]

theorem FlowMerge.announced_pairwise {epochs : List Int} {msgs : List BarrierMsg}
    (hmerge : FlowMerge epochs msgs) (pre post : List BarrierMsg)
    (hsplit : msgs = pre ++ post) :
    (announced pre (lastFlags pre)).Pairwise (· < ·) := by
  induction pre using List.reverseRecOn generalizing post with
  | nil => exact List.Pairwise.nil
  | append_singleton pre m ih =>
      rw [List.append_assoc, List.singleton_append] at hsplit
      rw [announced_lastFlags_concat, List.pairwise_append]
      refine ⟨ih (m :: post) hsplit, ?_, ?_⟩
      · split
        · exact List.pairwise_singleton _ _
        · exact List.Pairwise.nil
      · intro epoch hepoch last hlast
        have heq : last = m.epoch := by
          split at hlast
          · exact List.mem_singleton.mp hlast
          · cases hlast
        -- the queue of `m` has delivered the complete epoch before
        obtain ⟨m', hmem, hsame, hqueue⟩ :=
          mem_announced_lastFlags.mp hepoch m.queueIndex
        have hlt := hmerge.epoch_lt ⟨post, hsplit⟩ hmem hqueue
        omega

/-- The last messages of a merge come in the order of the epochs. -/
theorem FlowMerge.announced_lastFlags {epochs : List Int} {msgs : List BarrierMsg}
    (hmerge : FlowMerge epochs msgs) : announced msgs (lastFlags msgs) = epochs := by
  have hincreasing := hmerge.announced_pairwise msgs [] (List.append_nil msgs).symm
  apply hincreasing.eq_of_mem_iff hmerge.increasing
  intro epoch
  rw [mem_announced_lastFlags]
  constructor
  · intro hcomplete
    obtain ⟨m, hmem, rfl, _⟩ := hcomplete 0
    exact hmerge.epoch_mem hmem
  · intro hepoch queue
    exact hmerge.exists_mem hepoch queue

/-- The state after a prefix of a merge with separated rounds: the round counts
the round ends, and a slot holds it exactly when one of the messages since the
last round end has filled it. -/
structure RingSeparated (pre : List BarrierMsg) (s : BarrierState) : Prop where
  sound : s.Sound
  round_eq : s.arrayRound = (roundEnds pre : Int) + 1
  slot_iff : ∀ row queue, s.receivedBarrierMsgArray row queue = s.arrayRound ↔
    ∃ before m, Occurs pre before m ∧ m.row = row ∧ m.queueIndex = queue ∧
      roundEnds before = roundEnds pre

theorem ringSeparated_initial : RingSeparated [] .initial := by
  refine ⟨BarrierState.initial_sound, rfl, ?_⟩
  intro row queue
  constructor
  · intro hslot
    cases hslot
  · rintro ⟨before, m, hoccurs, _⟩
    cases hoccurs.mem

section Separated

variable {epochs : List Int} {msgs pre : List BarrierMsg} {m : BarrierMsg}
  {s : BarrierState}

/-- The queue's slot is free: the same row was not filled since the last round
end by an earlier message of the queue. -/
theorem RingSeparated.not_redundant (hring : RingSeparated pre s)
    (hmerge : FlowMerge epochs msgs) (hseparated : RoundsSeparated msgs)
    (hoccurs : Occurs msgs pre m) : ¬ s.Redundant m := by
  intro hred
  obtain ⟨before, m', hbefore, hrow, hqueue, hends⟩ :=
    (hring.slot_iff m.row m.queueIndex).mp hred
  have hepoch : m'.epoch = m.epoch :=
    (hseparated before m' pre m (hoccurs.trans hbefore) hoccurs hrow).mp hends
  have hlt := hmerge.epoch_lt hoccurs hbefore.mem hqueue
  omega

theorem BarrierMsg.row_eq_of_epoch_eq {m m' : BarrierMsg} (hepoch : m.epoch = m'.epoch) :
    m.row = m'.row := by
  simp only [BarrierMsg.row, hepoch]

/-- The row is complete exactly when the epoch is. -/
theorem RingSeparated.rowComplete_iff (hring : RingSeparated pre s)
    (hseparated : RoundsSeparated msgs) (hoccurs : Occurs msgs pre m) :
    (s.record m).RowComplete m.row ↔ EpochComplete (pre ++ [m]) m.epoch := by
  constructor
  · intro hrow queue
    by_cases hqueue : queue = m.queueIndex
    · exact ⟨m, by simp, rfl, hqueue.symm⟩
    · obtain ⟨before, m', hbefore, hsame, hindex, hends⟩ :=
        (hring.slot_iff m.row queue).mp (hrow.slot_of_ne hqueue)
      have hepoch : m'.epoch = m.epoch :=
        (hseparated before m' pre m (hoccurs.trans hbefore) hoccurs hsame).mp hends
      exact ⟨m', List.mem_append_left _ hbefore.mem, hepoch, hindex⟩
  · intro hcomplete queue
    by_cases hqueue : queue = m.queueIndex
    · rw [hqueue]
      exact s.mark_slot_self m.row m.queueIndex
    · rw [BarrierState.mark_slot_of_ne s (fun hsame => hqueue hsame.2)]
      obtain ⟨m', hmem, hepoch, hindex⟩ := hcomplete queue
      rcases List.mem_append.mp hmem with hold | hlast
      · obtain ⟨before, hbefore⟩ := exists_occurs_of_mem hold
        have hrow : m'.row = m.row := BarrierMsg.row_eq_of_epoch_eq hepoch
        have hends : roundEnds before = roundEnds pre :=
          (hseparated before m' pre m (hoccurs.trans hbefore) hoccurs hrow).mpr hepoch
        exact (hring.slot_iff m.row queue).mpr ⟨before, m', hbefore, hrow, hindex, hends⟩
      · rw [List.mem_singleton.mp hlast] at hindex
        exact absurd hindex.symm hqueue

/-- Recording a message that does not end the round. -/
theorem RingSeparated.record (hring : RingSeparated pre s) (hends : ¬ EndsRound pre m) :
    RingSeparated (pre ++ [m]) (s.record m) := by
  have hcount : roundEnds (pre ++ [m]) = roundEnds pre := by
    rw [roundEnds_concat, if_neg hends, Nat.add_zero]
  refine ⟨hring.sound.record m, by rw [hcount]; exact hring.round_eq, ?_⟩
  intro row queue
  rw [hcount]
  by_cases hslot : row = m.row ∧ queue = m.queueIndex
  · obtain ⟨rfl, rfl⟩ := hslot
    simp only [BarrierState.mark_slot_self, BarrierState.mark_arrayRound, true_iff]
    exact ⟨pre, m, occurs_concat_iff.mpr (Or.inl ⟨rfl, rfl⟩), rfl, rfl, rfl⟩
  · rw [BarrierState.mark_slot_of_ne s hslot, BarrierState.mark_arrayRound,
      hring.slot_iff row queue]
    constructor
    · rintro ⟨before, m', hbefore, hrest⟩
      exact ⟨before, m', hbefore.append [m], hrest⟩
    · rintro ⟨before, m', hbefore, hrow, hqueue, hrest⟩
      rcases occurs_concat_iff.mp hbefore with ⟨rfl, rfl⟩ | hold
      · exact absurd ⟨hrow.symm, hqueue.symm⟩ hslot
      · exact ⟨before, m', hold, hrow, hqueue, hrest⟩

/-- The last message of a round leaves no slot set in the next one. -/
theorem RingSeparated.endRound (hring : RingSeparated pre s) (hends : EndsRound pre m)
    (hmax : s.arrayRound ≠ intMax) :
    RingSeparated (pre ++ [m]) ((s.record m).closeRow m.row) := by
  have hcount : roundEnds (pre ++ [m]) = roundEnds pre + 1 := by
    rw [roundEnds_concat, if_pos hends]
  have hround : ((s.record m).closeRow m.row).arrayRound = s.arrayRound + 1 := by
    rw [BarrierState.closeRow_arrayRound, if_pos hends.2, BarrierState.mark_arrayRound]
  have hsound := hring.sound.record m
  refine ⟨hsound.closeRow (fun _ => hmax), ?_, ?_⟩
  · rw [hround, hcount, hring.round_eq]
    omega
  · intro row queue
    rw [hround, hcount, BarrierState.closeRow_array]
    constructor
    · intro hslot
      have hle := hsound.slot_le row queue
      rw [BarrierState.mark_arrayRound] at hle
      omega
    · rintro ⟨before, m', hbefore, _, _, hequal⟩
      rcases occurs_concat_iff.mp hbefore with ⟨rfl, _⟩ | hold
      · omega
      · have hle := hold.roundEnds_le
        omega

/-- One message of a merge with separated rounds. -/
theorem RingSeparated.step (hring : RingSeparated pre s)
    (hmerge : FlowMerge epochs msgs) (hseparated : RoundsSeparated msgs)
    (hoccurs : Occurs msgs pre m) (hmax : (roundEnds msgs : Int) < intMax) :
    ∃ s', feedBarrier s m =
        .ok (s', decide (EpochComplete (pre ++ [m]) m.epoch)) ∧
      RingSeparated (pre ++ [m]) s' := by
  have hnew := hring.not_redundant hmerge hseparated hoccurs
  have hrow := hring.rowComplete_iff hseparated hoccurs
  by_cases hcomplete : EpochComplete (pre ++ [m]) m.epoch
  · have hbelow : m.row.val = arraySize - 1 → s.arrayRound ≠ intMax := by
      intro hlast
      have hprefix : roundEnds (pre ++ [m]) ≤ roundEnds msgs := by
        obtain ⟨post, rfl⟩ := hoccurs
        have hle := roundEnds_append_le (pre ++ [m]) post
        rwa [List.append_assoc, List.singleton_append] at hle
      rw [roundEnds_concat, if_pos ⟨hcomplete, hlast⟩] at hprefix
      rw [hring.round_eq]
      omega
    have hfeed := feedBarrier_of_complete hnew (hrow.mpr hcomplete) hbelow
    rw [hring.sound.posts_eq_true] at hfeed
    refine ⟨(s.record m).closeRow m.row, by simpa [hcomplete] using hfeed, ?_⟩
    by_cases hlast : m.row.val = arraySize - 1
    · exact hring.endRound ⟨hcomplete, hlast⟩ (hbelow hlast)
    · rw [BarrierState.closeRow, if_neg hlast]
      exact hring.record (fun hends => hlast hends.2)
  · have hfeed := feedBarrier_of_incomplete hnew (fun h => hcomplete (hrow.mp h))
    exact ⟨s.record m, by simpa [hcomplete] using hfeed,
      hring.record (fun hends => hcomplete hends.1)⟩

end Separated

/-- Separated rounds announce every epoch on its last message. -/
theorem announcedExactlyOnce_of_roundsSeparated {epochs : List Int}
    {msgs : List BarrierMsg} (hmerge : FlowMerge epochs msgs)
    (hseparated : RoundsSeparated msgs) (hmax : (roundEnds msgs : Int) < intMax) :
    AnnouncedExactlyOnce epochs msgs := by
  have hprefix : ∀ pre post, msgs = pre ++ post →
      ∃ s, feedBarriers pre = .ok (s, lastFlags pre) ∧ RingSeparated pre s := by
    intro pre
    induction pre using List.reverseRecOn with
    | nil =>
        intro post _
        exact ⟨.initial, rfl, ringSeparated_initial⟩
    | append_singleton pre m ih =>
        intro post hsplit
        rw [List.append_assoc, List.singleton_append] at hsplit
        obtain ⟨s, hrun, hring⟩ := ih (m :: post) hsplit
        obtain ⟨s', hfeed, hring'⟩ :=
          hring.step hmerge hseparated ⟨post, hsplit⟩ hmax
        exact ⟨s', runEvents_concat_eq_ok_iff.mpr
          ⟨s, _, _, hrun, hfeed, lastFlags_concat pre m⟩, hring'⟩
  obtain ⟨s, hrun, _⟩ := hprefix msgs [] (List.append_nil msgs).symm
  exact ⟨s, lastFlags msgs, hrun, rfl, hmerge.announced_lastFlags⟩

theorem feedBarriers_round_eq_roundEnds {pre : List BarrierMsg} {s : BarrierState}
    (hrun : feedBarriers pre = .ok (s, lastFlags pre)) :
    s.arrayRound = (roundEnds pre : Int) + 1 := by
  induction pre using List.reverseRecOn generalizing s with
  | nil =>
      cases hrun
      rfl
  | append_singleton pre m ih =>
      obtain ⟨before, early, posted, hpre, hstep, hposts⟩ :=
        runEvents_concat_eq_ok_iff.mp hrun
      rw [lastFlags_concat] at hposts
      obtain ⟨hearly, hposted⟩ := List.append_inj' hposts rfl
      have hposted := List.singleton_inj.mp hposted
      subst hearly hposted
      have hround := ih hpre
      have hsound : before.Sound := feedBarriers_sound hpre
      rw [roundEnds_concat]
      rcases feedBarrier_ok_cases hstep with ⟨_, rfl, hflag⟩ | ⟨_, _, rfl, hflag⟩ |
        ⟨_, _, _, rfl, hflag⟩
      · have hnot : ¬ EndsRound pre m := fun hends => of_decide_eq_false hflag hends.1
        rw [if_neg hnot, hround]
        rfl
      · have hnot : ¬ EndsRound pre m := fun hends => of_decide_eq_false hflag hends.1
        rw [if_neg hnot, BarrierState.mark_arrayRound, hround]
        rfl
      · rw [hsound.posts_eq_true, decide_eq_true_eq] at hflag
        rw [BarrierState.closeRow_arrayRound, BarrierState.mark_arrayRound, hround]
        simp only [EndsRound, hflag, true_and]
        split
        · omega
        · omega

/-- Every prefix of the traffic posts on the last messages of its epochs. -/
def PostsOnLast (msgs : List BarrierMsg) : Prop :=
  ∀ pre post, msgs = pre ++ post → ∃ s, feedBarriers pre = .ok (s, lastFlags pre)

theorem AnnouncedExactlyOnce.postsOnLast {epochs : List Int} {msgs : List BarrierMsg}
    (hannounced : AnnouncedExactlyOnce epochs msgs) : PostsOnLast msgs := by
  obtain ⟨final, posts, hrun, rfl, _⟩ := hannounced
  intro pre post hsplit
  subst hsplit
  obtain ⟨s, early, late, hpre, _, hposts⟩ := runEvents_append_eq_ok_iff.mp hrun
  have hlength : (lastFlags pre).length = early.length := by
    rw [lastFlags_length, runEvents_outputs_length hpre]
  rw [lastFlags, lastFlagsFrom_append] at hposts
  have hearly : lastFlags pre = early := (List.append_inj hposts hlength).1
  exact ⟨s, by rw [hearly]; exact hpre⟩

/-- The message is the last one of its epoch. -/
def LastOfEpoch (msgs pre : List BarrierMsg) (m : BarrierMsg) : Prop :=
  Occurs msgs pre m ∧ EpochComplete (pre ++ [m]) m.epoch

theorem exists_lastOfEpoch {msgs : List BarrierMsg} {epoch : Int}
    (hcomplete : EpochComplete msgs epoch) :
    ∃ pre m, LastOfEpoch msgs pre m ∧ m.epoch = epoch := by
  induction msgs using List.reverseRecOn with
  | nil =>
      obtain ⟨m, hmem, _⟩ := hcomplete 0
      cases hmem
  | append_singleton msgs m ih =>
      rcases epochComplete_concat_iff.mp hcomplete with hold | ⟨hepoch, hlast⟩
      · obtain ⟨pre, m', hlast, hepoch⟩ := ih hold
        exact ⟨pre, m', ⟨hlast.1.append [m], hlast.2⟩, hepoch⟩
      · exact ⟨msgs, m, ⟨⟨[], rfl⟩, hlast⟩, hepoch⟩

section Announced

variable {epochs : List Int} {msgs pre pre' : List BarrierMsg} {m m' : BarrierMsg}

/-- At the last message of an epoch the row lacks exactly this message, and
afterwards all its slots hold the round. -/
theorem PostsOnLast.at_last (hposts : PostsOnLast msgs) (hlast : LastOfEpoch msgs pre m) :
    ∃ s s' early late, feedBarriers pre = .ok (s, early) ∧
      feedBarriers (pre ++ [m]) = .ok (s', late) ∧
      s.arrayRound = (roundEnds pre : Int) + 1 ∧ ¬ s.Redundant m ∧
      (∀ queue, queue ≠ m.queueIndex →
        s.receivedBarrierMsgArray m.row queue = s.arrayRound) ∧
      ∀ queue, s'.receivedBarrierMsgArray m.row queue = s.arrayRound := by
  obtain ⟨⟨post, hsplit⟩, hcomplete⟩ := hlast
  obtain ⟨s', hrun⟩ := hposts (pre ++ [m]) post (by simp [hsplit])
  obtain ⟨s, early, posted, hpre, hstep, hflags⟩ := runEvents_concat_eq_ok_iff.mp hrun
  rw [lastFlags_concat] at hflags
  obtain ⟨hearly, hposted⟩ := List.append_inj' hflags rfl
  have hposted := List.singleton_inj.mp hposted
  rw [decide_eq_true hcomplete] at hposted
  subst hearly hposted
  have hround := feedBarriers_round_eq_roundEnds hpre
  rcases feedBarrier_ok_cases hstep with ⟨_, _, hfalse⟩ | ⟨_, _, _, hfalse⟩ |
    ⟨hnew, hrow, _, rfl, _⟩
  · cases hfalse
  · cases hfalse
  · refine ⟨s, _, _, _, hpre, hrun, hround, hnew, fun queue hne => hrow.slot_of_ne hne, ?_⟩
    intro queue
    rw [BarrierState.closeRow_array]
    exact hrow queue

/-- The last message of an earlier epoch comes before the last of a later one. -/
theorem FlowMerge.last_before_last (hmerge : FlowMerge epochs msgs)
    (hlast : LastOfEpoch msgs pre m) (hlast' : LastOfEpoch msgs pre' m')
    (hlt : m.epoch < m'.epoch) : Occurs pre' pre m := by
  rcases hlast.1.trichotomy hlast'.1 with ⟨_, rfl⟩ | hbefore | hafter
  · omega
  · exact hbefore
  · -- the queue of `m` would have delivered the later epoch first
    obtain ⟨other, hmem, hepoch, hqueue⟩ := hlast'.2 m.queueIndex
    have hsmaller := hmerge.epoch_lt hlast.1 (hafter.mem_of_mem_concat hmem) hqueue
    omega

/-- Two epochs of one row are completed in different rounds. -/
theorem PostsOnLast.roundEnds_lt (hposts : PostsOnLast msgs)
    (hmerge : FlowMerge epochs msgs) (hlast : LastOfEpoch msgs pre m)
    (hlast' : LastOfEpoch msgs pre' m') (hrow : m.row = m'.row)
    (hlt : m.epoch < m'.epoch) : roundEnds pre < roundEnds pre' := by
  have hbefore := hmerge.last_before_last hlast hlast' hlt
  have hle := hbefore.roundEnds_le
  by_contra hnot
  have hequal : roundEnds pre = roundEnds pre' := by omega
  obtain ⟨s, after, _, _, _, hafter, hround, _, _, hfull⟩ := hposts.at_last hlast
  obtain ⟨s', _, _, _, hrun', _, hround', hnew', _, _⟩ := hposts.at_last hlast'
  obtain ⟨rest, hsplit⟩ := hbefore
  rw [← List.singleton_append, ← List.append_assoc] at hsplit
  rw [hsplit] at hrun'
  obtain ⟨middle, _, _, hmiddle, hrest, _⟩ := runEvents_append_eq_ok_iff.mp hrun'
  have hsame : middle = after := by
    have heq := hmiddle.symm.trans hafter
    simp only [Except.ok.injEq, Prod.mk.injEq] at heq
    exact heq.1
  subst hsame
  -- the slot of the later message has held the round since then
  obtain ⟨hsound', hge⟩ := runEvents_feedBarrier_slot_ge (feedBarriers_sound hafter) hrest
  apply hnew'
  have hlow := hge m'.row m'.queueIndex
  have hhigh := hsound'.slot_le m'.row m'.queueIndex
  rw [← hrow, hfull m'.queueIndex] at hlow
  rw [BarrierState.Redundant, ← hrow]
  rw [← hrow] at hhigh
  omega

theorem PostsOnLast.round_eq (hposts : PostsOnLast msgs) {post : List BarrierMsg}
    {s : BarrierState} {early : List Bool} (hsplit : msgs = pre ++ post)
    (hrun : feedBarriers pre = .ok (s, early)) : s.arrayRound = (roundEnds pre : Int) + 1 := by
  obtain ⟨s', hflags⟩ := hposts pre post hsplit
  have heq := hrun.symm.trans hflags
  simp only [Except.ok.injEq, Prod.mk.injEq] at heq
  rw [heq.1]
  exact feedBarriers_round_eq_roundEnds hflags

theorem FlowMerge.exists_last (hmerge : FlowMerge epochs msgs) (hoccurs : Occurs msgs pre m) :
    ∃ last ml, LastOfEpoch msgs last ml ∧ ml.epoch = m.epoch := by
  apply exists_lastOfEpoch
  intro queue
  exact hmerge.exists_mem (hmerge.epoch_mem hoccurs.mem) queue

/-- A message comes no later than the last one of its epoch. -/
theorem FlowMerge.roundEnds_le_last (hmerge : FlowMerge epochs msgs)
    (hoccurs : Occurs msgs pre m) (hlast : LastOfEpoch msgs pre' m')
    (hepoch : m.epoch = m'.epoch) : roundEnds pre ≤ roundEnds pre' := by
  rcases hoccurs.trichotomy hlast.1 with ⟨rfl, _⟩ | hbefore | hafter
  · exact Nat.le_refl _
  · exact hbefore.roundEnds_le
  · obtain ⟨other, hmem, hsame, hqueue⟩ := hlast.2 m.queueIndex
    have hsmaller := hmerge.epoch_lt hoccurs (hafter.mem_of_mem_concat hmem) hqueue
    omega

/-- All messages of an epoch arrive in the round of its last one: the row is
complete at the last message, and a slot filled by another epoch of the row would
put the completion of that epoch into the same round. -/
theorem PostsOnLast.roundEnds_eq_last (hposts : PostsOnLast msgs)
    (hmerge : FlowMerge epochs msgs) (hoccurs : Occurs msgs pre m)
    (hlast : LastOfEpoch msgs pre' m') (hepoch : m.epoch = m'.epoch) :
    roundEnds pre = roundEnds pre' := by
  obtain ⟨bound, hbound⟩ := epochs.finite_toSet.bddAbove
  -- downward on the epoch: a slot may only have been taken by a later one
  induction hdistance : (bound - m.epoch).toNat using Nat.strong_induction_on
    generalizing pre m pre' m' with
  | _ distance ih =>
    by_cases hqueue : m.queueIndex = m'.queueIndex
    · rw [hmerge.occurs_unique hoccurs hlast.1 hepoch hqueue]
    · obtain ⟨s, _, _, _, hrun, _, _, _, hslots, _⟩ := hposts.at_last hlast
      obtain ⟨m'', ⟨before, after, s'', _, hsplit, hrun'', hround, _⟩, hrow, hindex⟩ :=
        feedBarriers_slotsRecorded hrun m'.row m.queueIndex (hslots _ hqueue)
      have hoccurs'' : Occurs msgs before m'' := hlast.1.trans ⟨after, hsplit⟩
      have hequal : roundEnds before = roundEnds pre' := by
        obtain ⟨post, hbefore⟩ := hoccurs''
        obtain ⟨post', hpre'⟩ := hlast.1
        have hround'' := hposts.round_eq hbefore hrun''
        have hround' := hposts.round_eq hpre' hrun
        omega
      obtain ⟨last, ml, hml, hsame⟩ := hmerge.exists_last hoccurs''
      have hrows : ml.row = m'.row := by rw [BarrierMsg.row_eq_of_epoch_eq hsame, hrow]
      rcases Int.lt_trichotomy m''.epoch m.epoch with hlt | heq | hgt
      · have hle := hmerge.roundEnds_le_last hoccurs'' hml hsame.symm
        have hless := hposts.roundEnds_lt hmerge hml hlast hrows (by omega)
        omega
      · rw [hmerge.occurs_unique hoccurs hoccurs'' heq.symm hindex.symm, hequal]
      · have hsmaller := hbound (hmerge.epoch_mem hoccurs''.mem)
        have hround'' := ih _ (by omega) hoccurs'' hml hsame.symm rfl
        have hless := hposts.roundEnds_lt hmerge hlast hml hrows.symm (by omega)
        omega

theorem PostsOnLast.roundsSeparated (hposts : PostsOnLast msgs)
    (hmerge : FlowMerge epochs msgs) : RoundsSeparated msgs := by
  intro pre m pre' m' hoccurs hoccurs' hrow
  obtain ⟨last, ml, hml, hepoch⟩ := hmerge.exists_last hoccurs
  obtain ⟨last', ml', hml', hepoch'⟩ := hmerge.exists_last hoccurs'
  have hrows : ml.row = ml'.row := by
    rw [BarrierMsg.row_eq_of_epoch_eq hepoch, hrow, BarrierMsg.row_eq_of_epoch_eq hepoch']
  have hround := hposts.roundEnds_eq_last hmerge hoccurs hml hepoch.symm
  have hround' := hposts.roundEnds_eq_last hmerge hoccurs' hml' hepoch'.symm
  rcases Int.lt_trichotomy m.epoch m'.epoch with hlt | heq | hgt
  · have hless := hposts.roundEnds_lt hmerge hml hml' hrows (by omega)
    omega
  · have hsame := hposts.roundEnds_eq_last hmerge hoccurs hml' (by omega)
    omega
  · have hless := hposts.roundEnds_lt hmerge hml' hml hrows.symm (by omega)
    omega

end Announced

/-- A merge is announced exactly once per epoch if and only if the messages of a
row are told apart by the round ends, and the round stays a C `int`. -/
theorem announcedExactlyOnce_iff (epochs : List Int) (msgs : List BarrierMsg)
    (hmerge : FlowMerge epochs msgs) :
    AnnouncedExactlyOnce epochs msgs ↔
      RoundsSeparated msgs ∧ (roundEnds msgs : Int) < intMax := by
  constructor
  · intro hannounced
    have hposts := hannounced.postsOnLast
    refine ⟨hposts.roundsSeparated hmerge, ?_⟩
    obtain ⟨s, posts, hrun, _, _⟩ := hannounced
    have hround := hposts.round_eq (List.append_nil msgs).symm hrun
    have hle := (feedBarriers_sound hrun).round_le
    omega
  · rintro ⟨hseparated, hmax⟩
    exact announcedExactlyOnce_of_roundsSeparated hmerge hseparated hmax

/-- Two epochs whose messages overlap. -/
theorem announcedExactlyOnce_overlapping :
    let msgs : List BarrierMsg :=
      [⟨1, 0, by decide⟩, ⟨2, 0, by decide⟩, ⟨1, 3, by decide⟩, ⟨1, 1, by decide⟩,
        ⟨2, 1, by decide⟩, ⟨1, 2, by decide⟩, ⟨2, 2, by decide⟩, ⟨2, 3, by decide⟩]
    FlowMerge [1, 2] msgs ∧ RoundsSeparated msgs ∧ (roundEnds msgs : Int) < intMax := by
  intro msgs
  have hmerge : FlowMerge [1, 2] msgs := ⟨by decide, by decide⟩
  obtain ⟨s, hrun⟩ : ∃ s, feedBarriers msgs = .ok (s, lastFlags msgs) :=
    exists_run_of_outputs (by rfl)
  have hannounced : AnnouncedExactlyOnce [1, 2] msgs :=
    ⟨s, lastFlags msgs, hrun, rfl, by decide⟩
  exact ⟨hmerge, (announcedExactlyOnce_iff [1, 2] msgs hmerge).mp hannounced⟩

/-- The epoch with index 99 is skipped: the round does not advance, and every
message of epoch 105 is taken for a repeat of epoch 5. -/
theorem skipped_round_end_not_announced :
    ¬ ∀ (epochs : List Int) (msgs : List BarrierMsg), FlowMerge epochs msgs →
      AnnouncedExactlyOnce epochs msgs := by
  intro hproperty
  let msgs : List BarrierMsg :=
    [⟨5, 0, by decide⟩, ⟨5, 1, by decide⟩, ⟨5, 2, by decide⟩, ⟨5, 3, by decide⟩,
      ⟨105, 0, by decide⟩, ⟨105, 1, by decide⟩, ⟨105, 2, by decide⟩, ⟨105, 3, by decide⟩]
  obtain ⟨s, posts, hrun, hposts, _⟩ := hproperty [5, 105] msgs ⟨by decide, by decide⟩
  have hsilent : (feedBarriers msgs).map Prod.snd =
      .ok [false, false, false, true, false, false, false, false] := by rfl
  have hlast : lastFlags msgs = [false, false, false, true, false, false, false, true] := by
    decide
  rw [hrun, hposts, hlast] at hsilent
  cases hsilent

end SafeTimer
