/-
Runs of the sample heartbeat receiver: heartbeats and checks take turns in any order.
That the checks go through the epochs one by one is an assumption on the runs.
-/
import SafeTimer.EpochLists
import SafeTimer.EventRun

namespace SafeTimer

section Runs

variable {Table : Type → Type} {L : Type} {ht : RemovalTable Table} {lib : ListLib L}

/-- Every list of the receiver represents a set. -/
def EpochReceiver.Sound (ht : RemovalTable Table) (lib : ListLib L)
    (r : EpochReceiver Table L) : Prop :=
  ∃ sets, HoldsSets ht lib (fun _ => True) r.epochListHt sets

theorem HoldsSets.nodes_eq {r : EpochReceiver Table L} {sets : EpochSets}
    (hholds : HoldsSets ht lib (fun _ => True) r.epochListHt sets) (epoch : Int64) :
    (r.nodes ht lib epoch).toFinset = sets.nodes epoch := by
  have hrep := hholds epoch trivial
  rw [EpochReceiver.nodes, EpochReceiver.ipList, EpochSets.nodes, ← hrep.nodes_eq]
  cases ht.get r.epochListHt (longBytes epoch) <;> rfl

theorem HoldsSets.mem_nodes {r : EpochReceiver Table L} {sets : EpochSets}
    (hholds : HoldsSets ht lib (fun _ => True) r.epochListHt sets) {epoch : Int64}
    {node : CString} : node ∈ r.nodes ht lib epoch ↔ node ∈ sets.nodes epoch := by
  rw [← hholds.nodes_eq epoch, List.mem_toFinset]

theorem EpochReceiver.initial_sound (hlawful : ht.Lawful) :
    (EpochReceiver.initial ht : EpochReceiver Table L).Sound ht lib := by
  refine ⟨fun _ => none, fun epoch _ => ?_⟩
  rw [EpochReceiver.initial, hlawful.get_init]
  exact represents_none lib

theorem EpochReceiver.Sound.nodup {r : EpochReceiver Table L} (hsound : r.Sound ht lib)
    (epoch : Int64) : (r.nodes ht lib epoch).Nodup := by
  obtain ⟨sets, hholds⟩ := hsound
  have hrep := hholds epoch trivial
  rw [EpochReceiver.nodes, EpochReceiver.ipList]
  cases hget : ht.get r.epochListHt (longBytes epoch) with
  | none => exact List.nodup_nil
  | some ipList =>
      rw [hget] at hrep
      exact hrep.nodup ipList rfl

/-- What a heartbeat does to the lists. -/
structure HeartbeatEffect (ht : RemovalTable Table) (lib : ListLib L)
    (r r' : EpochReceiver Table L) (saddr : CString) (epoch : Int64) : Prop where
  next_eq : r'.nextEpoch = r.nextEpoch
  heard_eq : r'.heard = r.heard ++ [(saddr, epoch)]
  fits : epoch ≠ Int64.maxValue
  mem_iff : ∀ node other, node ∈ r'.nodes ht lib other ↔
    node = saddr ∧ other = epoch + 1 ∨
      node ∈ r.nodes ht lib other ∧ ¬ (node = saddr ∧ other = epoch)

/-- What the check of the next epoch does to the lists. -/
structure CheckEffect (ht : RemovalTable Table) (lib : ListLib L)
    (r r' : EpochReceiver Table L) (stRet : CString → Int) (reported : List CString) :
    Prop where
  next_eq : r'.nextEpoch = r.nextEpoch + 1
  heard_eq : r'.heard = r.heard
  fits : r.nextEpoch ≠ Int64.maxValue
  reported_eq : reported = (r.nodes ht lib r.nextEpoch).filter (stRet · = 1)
  deleted : r'.ipList ht lib r.nextEpoch = none
  moved : ∀ node, node ∈ r'.nodes ht lib (r.nextEpoch + 1) ↔
    node ∈ r.nodes ht lib (r.nextEpoch + 1) ∨
      node ∈ r.nodes ht lib r.nextEpoch ∧ stRet node ≠ 1
  others : ∀ epoch, epoch ≠ r.nextEpoch → epoch ≠ r.nextEpoch + 1 →
    r'.ipList ht lib epoch = r.ipList ht lib epoch

variable {r r' : EpochReceiver Table L} {reported : List CString}

theorem epochStep_heartbeat_eq_ok {saddr : CString} {epoch : Int64}
    (hstep : epochStep ht lib r (.heartbeat saddr epoch) = .ok (r', reported)) :
    epoch ≠ Int64.maxValue ∧ reported = [] ∧
      r' = { r with
        epochListHt := hbServer ht lib r.epochListHt saddr epoch
        heard := r.heard ++ [(saddr, epoch)] } := by
  rw [epochStep] at hstep
  split at hstep
  · cases hstep
  · split at hstep
    · cases hstep
    · rename_i hfits
      cases hstep
      exact ⟨hfits, rfl, rfl⟩

theorem epochStep_check_eq_ok {stRet : CString → Int}
    (hstep : epochStep ht lib r (.check stRet) = .ok (r', reported)) :
    r.nextEpoch ≠ Int64.maxValue ∧
      reported = (expirationCheckForEpoch ht lib r.epochListHt r.nextEpoch stRet).2 ∧
      r' = { r with
        epochListHt := (expirationCheckForEpoch ht lib r.epochListHt r.nextEpoch stRet).1
        nextEpoch := r.nextEpoch + 1 } := by
  by_cases hfits : r.nextEpoch = Int64.maxValue
  · rw [epochStep, if_pos hfits] at hstep
    cases hstep
  · rw [epochStep, if_neg hfits, Except.ok.injEq, Prod.mk.injEq] at hstep
    exact ⟨hfits, hstep.2.symm, hstep.1.symm⟩

theorem EpochReceiver.Sound.heartbeat (hlawful : ht.Lawful) (hlib : lib.Lawful)
    (hsound : r.Sound ht lib) {saddr : CString} {epoch : Int64}
    (hstep : epochStep ht lib r (.heartbeat saddr epoch) = .ok (r', reported)) :
    r'.Sound ht lib ∧ HeartbeatEffect ht lib r r' saddr epoch := by
  obtain ⟨sets, hholds⟩ := hsound
  obtain ⟨hfits, _, rfl⟩ := epochStep_heartbeat_eq_ok hstep
  have hholds' := hholds.hbServer hlawful hlib saddr epoch
  refine ⟨⟨_, hholds'⟩, rfl, rfl, hfits, ?_⟩
  intro node other
  rw [HoldsSets.mem_nodes hholds', hholds.mem_nodes]
  exact EpochSets.mem_heartbeat

theorem EpochReceiver.Sound.check (hlawful : ht.Lawful) (hlib : lib.Lawful)
    (hsound : r.Sound ht lib) {stRet : CString → Int}
    (hstep : epochStep ht lib r (.check stRet) = .ok (r', reported)) :
    r'.Sound ht lib ∧ CheckEffect ht lib r r' stRet reported := by
  obtain ⟨sets, hholds⟩ := hsound
  obtain ⟨hfits, rfl, rfl⟩ := epochStep_check_eq_ok hstep
  have hholds' := hholds.expirationCheck hlawful hlib r.nextEpoch stRet
  refine ⟨⟨_, hholds'⟩, rfl, rfl, hfits, ?_, ?_, ?_, ?_⟩
  · exact expirationCheck_reported r.epochListHt r.nextEpoch stRet
  · rw [EpochReceiver.ipList, expirationCheck_deletes hlawful]
    rfl
  · intro node
    rw [HoldsSets.mem_nodes hholds', hholds.mem_nodes, hholds.mem_nodes, EpochSets.mem_check]
    simp
  · intro epoch hne hnext
    rw [EpochReceiver.ipList, expirationCheck_frame hlawful _ _ _ epoch hne hnext,
      EpochReceiver.ipList]

theorem CheckEffect.mem_iff {stRet : CString → Int}
    (heffect : CheckEffect ht lib r r' stRet reported) (node : CString) (other : Int64) :
    node ∈ r'.nodes ht lib other ↔
      other ≠ r.nextEpoch ∧ (node ∈ r.nodes ht lib other ∨
        other = r.nextEpoch + 1 ∧ node ∈ r.nodes ht lib r.nextEpoch ∧ stRet node ≠ 1) := by
  by_cases hchecked : other = r.nextEpoch
  · rw [EpochReceiver.nodes, hchecked, heffect.deleted]
    simp
  · by_cases hnext : other = r.nextEpoch + 1
    · subst hnext
      rw [heffect.moved]
      simp
    · rw [EpochReceiver.nodes, heffect.others other hchecked hnext, ← EpochReceiver.nodes]
      simp [hchecked, hnext]

theorem EpochReceiver.Sound.step (hlawful : ht.Lawful) (hlib : lib.Lawful)
    (hsound : r.Sound ht lib) {event : EpochEvent}
    (hstep : epochStep ht lib r event = .ok (r', reported)) : r'.Sound ht lib := by
  cases event with
  | heartbeat saddr epoch => exact (hsound.heartbeat hlawful hlib hstep).1
  | check stRet => exact (hsound.check hlawful hlib hstep).1

theorem EpochReceiver.Sound.run (hlawful : ht.Lawful) (hlib : lib.Lawful)
    {events : List EpochEvent} {outputs : List (List CString)} (hsound : r.Sound ht lib)
    (hrun : runEvents (epochStep ht lib) r events = .ok (r', outputs)) : r'.Sound ht lib :=
  runEvents_invariant (fun _ r _ => r.Sound ht lib) hsound
    (fun _ _ _ _ _ _ _ hsound hstep => hsound.step hlawful hlib hstep) hrun

/-- The node is in a list that is still to be checked. -/
def EpochReceiver.Watches (ht : RemovalTable Table) (lib : ListLib L)
    (r : EpochReceiver Table L) (node : CString) : Prop :=
  ∃ epoch, r.nextEpoch ≤ epoch ∧ node ∈ r.nodes ht lib epoch

theorem le_add_one_of_sub_one_le {next epoch : Int64} (hpos : 0 < next.toInt)
    (hfits : epoch ≠ Int64.maxValue) (hle : next - 1 ≤ epoch) : next ≤ epoch + 1 := by
  have hhigh := next.toInt_lt
  have hsub : (next - 1).toInt = next.toInt - 1 := by
    rw [Int64.toInt_sub, toInt_one]
    exact bmod_of_fits (by omega) (by omega)
  rw [Int64.le_iff_toInt_le] at hle ⊢
  rw [hsub] at hle
  rw [toInt_add_one hfits]
  omega

/-- A node stays watched as long as it is not reported. -/
theorem EpochReceiver.Watches.step (hlawful : ht.Lawful) (hlib : lib.Lawful)
    (hsound : r.Sound ht lib) {node : CString} (hwatches : r.Watches ht lib node)
    {event : EpochEvent} (hstep : epochStep ht lib r event = .ok (r', reported))
    (hunreported : node ∉ reported) : r'.Watches ht lib node := by
  obtain ⟨epoch, hle, hmem⟩ := hwatches
  cases event with
  | heartbeat saddr e =>
      obtain ⟨_, heffect⟩ := hsound.heartbeat hlawful hlib hstep
      by_cases htouched : node = saddr ∧ epoch = e
      · obtain ⟨rfl, rfl⟩ := htouched
        refine ⟨epoch + 1, ?_, (heffect.mem_iff _ _).mpr (Or.inl ⟨rfl, rfl⟩)⟩
        rw [heffect.next_eq]
        exact le_add_one_of_le heffect.fits hle
      · refine ⟨epoch, ?_, (heffect.mem_iff _ _).mpr (Or.inr ⟨hmem, htouched⟩)⟩
        rw [heffect.next_eq]
        exact hle
  | check stRet =>
      obtain ⟨_, heffect⟩ := hsound.check hlawful hlib hstep
      rw [Watches, heffect.next_eq]
      by_cases hchecked : epoch = r.nextEpoch
      · -- the node is carried over, or it would be reported
        subst hchecked
        have hcarried : stRet node ≠ 1 := by
          intro htimedOut
          apply hunreported
          rw [heffect.reported_eq]
          exact List.mem_filter.mpr ⟨hmem, decide_eq_true htimedOut⟩
        exact ⟨r.nextEpoch + 1, Int64.le_refl _,
          (heffect.moved node).mpr (Or.inr ⟨hmem, hcarried⟩)⟩
      · refine ⟨epoch, ?_, (heffect.mem_iff node epoch).mpr ⟨hchecked, Or.inl hmem⟩⟩
        rw [add_one_le_iff heffect.fits]
        exact Int64.lt_of_le_of_ne hle (Ne.symm hchecked)

theorem EpochReceiver.Watches.run (hlawful : ht.Lawful) (hlib : lib.Lawful)
    (hsound : r.Sound ht lib) {node : CString} (hwatches : r.Watches ht lib node)
    {events : List EpochEvent} {outputs : List (List CString)}
    (hrun : runEvents (epochStep ht lib) r events = .ok (r', outputs))
    (hunreported : ∀ reported ∈ outputs, node ∉ reported) : r'.Watches ht lib node := by
  induction events generalizing r outputs with
  | nil =>
      cases hrun
      exact hwatches
  | cons event rest ih =>
      obtain ⟨next, reported, tail, hstep, hrest, rfl⟩ := runEvents_cons_eq_ok_iff.mp hrun
      have hwatchesNext := hwatches.step hlawful hlib hsound hstep
        (hunreported reported List.mem_cons_self)
      exact ih (hsound.step hlawful hlib hstep) hwatchesNext hrest
        (fun reported hmem => hunreported reported (List.mem_cons_of_mem _ hmem))

theorem EpochReceiver.nextEpoch_pos {events : List EpochEvent}
    {outputs : List (List CString)}
    (hrun : runEvents (epochStep ht lib) (.initial ht) events = .ok (r, outputs)) :
    0 < r.nextEpoch.toInt := by
  refine runEvents_invariant (fun _ r _ => 0 < r.nextEpoch.toInt)
    (show 0 < (1 : Int64).toInt by decide) ?_ hrun
  intro _ r _ event r' reported _ hpos hstep
  cases event with
  | heartbeat saddr epoch =>
      obtain ⟨_, _, rfl⟩ := epochStep_heartbeat_eq_ok hstep
      exact hpos
  | check stRet =>
      obtain ⟨hfits, _, rfl⟩ := epochStep_check_eq_ok hstep
      rw [toInt_add_one hfits]
      omega

/-- Every node that has sent a heartbeat for an epoch not below the one before the next
check, and has not been reported since, is watched. -/
def MonitoredUntilReported (ht : RemovalTable Table) (lib : ListLib L)
    (events : List EpochEvent) : Prop :=
  ∀ pre saddr epoch post mid early final late,
    events = pre ++ .heartbeat saddr epoch :: post →
    runEvents (epochStep ht lib) (.initial ht) pre = .ok (mid, early) →
    mid.nextEpoch - 1 ≤ epoch →
    runEvents (epochStep ht lib) mid (.heartbeat saddr epoch :: post) = .ok (final, late) →
    (∀ reported ∈ late, saddr ∉ reported) → final.Watches ht lib saddr

/-- Every check reports, carries over and deletes what it should, and nothing else. -/
def ChecksExact (ht : RemovalTable Table) (lib : ListLib L) (events : List EpochEvent) :
    Prop :=
  EveryStep (epochStep ht lib) (fun _ r event =>
    ∀ stRet r' reported, event = .check stRet →
      epochStep ht lib r event = .ok (r', reported) →
      CheckEffect ht lib r r' stRet reported ∧
        (r'.nodes ht lib (r.nextEpoch + 1)).Nodup) (.initial ht) events

/-- Heartbeats and checks in any order lose no node and repeat none. -/
theorem nodes_monitored_until_reported {ht : RemovalTable Table} (hlawful : ht.Lawful)
    {lib : ListLib L} (hlib : lib.Lawful) (events : List EpochEvent) :
    (∀ final outputs,
        runEvents (epochStep ht lib) (.initial ht) events = .ok (final, outputs) →
        ∀ epoch, (final.nodes ht lib epoch).Nodup) ∧
      MonitoredUntilReported ht lib events ∧ ChecksExact ht lib events := by
  have hsound : ∀ {events : List EpochEvent} {r : EpochReceiver Table L} {outputs},
      runEvents (epochStep ht lib) (.initial ht) events = .ok (r, outputs) → r.Sound ht lib :=
    fun hrun => (EpochReceiver.initial_sound hlawful).run hlawful hlib hrun
  refine ⟨fun final outputs hrun => (hsound hrun).nodup, ?_, ?_⟩
  · intro pre saddr epoch post mid early final late _ hpre hrecent hrun hunreported
    obtain ⟨next, reported, tail, hstep, hrest, rfl⟩ := runEvents_cons_eq_ok_iff.mp hrun
    obtain ⟨hsoundNext, heffect⟩ := (hsound hpre).heartbeat hlawful hlib hstep
    have hwatches : next.Watches ht lib saddr := by
      refine ⟨epoch + 1, ?_, (heffect.mem_iff _ _).mpr (Or.inl ⟨rfl, rfl⟩)⟩
      rw [heffect.next_eq]
      exact le_add_one_of_sub_one_le (EpochReceiver.nextEpoch_pos hpre) heffect.fits hrecent
    exact hwatches.run hlawful hlib hsoundNext hrest
      (fun reported hmem => hunreported reported (List.mem_cons_of_mem _ hmem))
  · intro pre event post r outputs _ hpre stRet r' reported hevent hstep
    subst hevent
    obtain ⟨hsoundNext, heffect⟩ := (hsound hpre).check hlawful hlib hstep
    exact ⟨heffect, hsoundNext.nodup _⟩

end Runs

/-- The entry list with removal. -/
def removalEntryList : RemovalTable fun V => List (List UInt8 × V) where
  toHashTable := entryList
  remove := fun entries key => entries.filter fun entry => entry.1 ≠ key

theorem removalEntryList_lawful : removalEntryList.Lawful where
  toLawful := entryList_lawful
  get_remove_self := by
    intro V entries key
    simp only [removalEntryList, entryList, List.lookup_eq_none_iff, List.mem_filter]
    rintro entry ⟨_, hne⟩
    exact bne_iff_ne.mpr (Ne.symm (of_decide_eq_true hne))
  get_remove_of_ne := by
    intro V entries key key' hne
    simp only [removalEntryList, entryList]
    induction entries with
    | nil => rfl
    | cons entry rest ih =>
        obtain ⟨entryKey, value⟩ := entry
        by_cases hkey : entryKey = key
        · subst hkey
          rw [List.filter_cons_of_neg (by simp), ih, List.lookup_cons, beq_false_of_ne hne]
        · rw [List.filter_cons_of_pos (by simpa using hkey), List.lookup_cons, List.lookup_cons,
            ih]

/-- Linked lists as lists of their values. -/
def valueLists : ListLib (List CString) where
  new := []
  rpush values node := values ++ [node]
  find values node := decide (node ∈ values)
  remove values node := values.erase node
  iterate values := values

theorem valueLists_lawful : valueLists.Lawful where
  iterate_new := rfl
  iterate_rpush _ _ := rfl
  find_iff _ _ := decide_eq_true_iff
  iterate_remove _ _ := rfl

/-- Two nodes are carried over by the first check, and one of them is reported by the
second. -/
theorem nodes_monitored_two_checks :
    let node : CString := ⟨[49, 48], by decide⟩
    let other : CString := ⟨[49, 49], by decide⟩
    ∃ final, runEvents (epochStep removalEntryList valueLists) (.initial removalEntryList)
        [.heartbeat node 0, .heartbeat other 0, .check fun _ => 0,
          .check fun saddr => if saddr = other then 1 else 0] =
        .ok (final, [[], [], [], [other]]) ∧
      final.Watches removalEntryList valueLists node := by
  intro node other
  have hmonitored := (nodes_monitored_until_reported removalEntryList_lawful
    valueLists_lawful [.heartbeat node 0, .heartbeat other 0, .check fun _ => 0,
      .check fun saddr => if saddr = other then 1 else 0]).2.1
  have hrun : ∃ final, runEvents (epochStep removalEntryList valueLists)
      (.initial removalEntryList)
      [.heartbeat node 0, .heartbeat other 0, .check fun _ => 0,
        .check fun saddr => if saddr = other then 1 else 0] =
      .ok (final, [[], [], [], [other]]) := exists_run_of_outputs (by decide)
  obtain ⟨final, hrun⟩ := hrun
  exact ⟨final, hrun, hmonitored [] node 0 _ _ [] final _ rfl rfl (by decide) hrun (by decide)⟩

end SafeTimer
