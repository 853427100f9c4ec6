/-
The order in which heartbeats of a node are processed.  A heartbeat for epoch e puts
its node into the list of e + 1 whether or not the node has been heard for e + 1, and
the check of e carries it over just so: a node that was heard early, or whose
heartbeats were reordered, is suspected all the same.
-/
import SafeTimer.EpochRuns

namespace SafeTimer

section Order

variable {Table : Type → Type} {L : Type} {ht : RemovalTable Table} {lib : ListLib L}

/-- The epoch to be checked has no node in its list that has been heard for it. -/
def EpochReceiver.SparesHeard (ht : RemovalTable Table) (lib : ListLib L)
    (r : EpochReceiver Table L) : EpochEvent → Prop
  | .heartbeat .. => True
  | .check _ => ∀ node ∈ r.nodes ht lib r.nextEpoch, (node, r.nextEpoch) ∉ r.heard

instance (r : EpochReceiver Table L) :
    (event : EpochEvent) → Decidable (r.SparesHeard ht lib event)
  | .heartbeat .. => inferInstanceAs (Decidable True)
  | .check _ => inferInstanceAs (Decidable (∀ node ∈ r.nodes ht lib r.nextEpoch, _))

/-- No node is suspected for an epoch that it has been heard for. -/
def HeardNotSuspected (ht : RemovalTable Table) (lib : ListLib L)
    (events : List EpochEvent) : Prop :=
  EveryStep (epochStep ht lib) (fun _ r event => r.SparesHeard ht lib event) (.initial ht)
    events

/-- The event does not enter a node into the list of an epoch that it has been heard
for: a heartbeat comes before that of the next epoch, unless the next epoch has been
checked, and a check carries over no node that was early. -/
def EpochReceiver.InOrder (ht : RemovalTable Table) (lib : ListLib L)
    (r : EpochReceiver Table L) : EpochEvent → Prop
  | .heartbeat saddr epoch => r.nextEpoch ≤ epoch + 1 → (saddr, epoch + 1) ∉ r.heard
  | .check stRet => ∀ node ∈ r.nodes ht lib r.nextEpoch, stRet node ≠ 1 →
      (node, r.nextEpoch + 1) ∉ r.heard

instance (r : EpochReceiver Table L) :
    (event : EpochEvent) → Decidable (r.InOrder ht lib event)
  | .heartbeat saddr epoch =>
      inferInstanceAs (Decidable (r.nextEpoch ≤ epoch + 1 → (saddr, epoch + 1) ∉ r.heard))
  | .check _ => inferInstanceAs (Decidable (∀ node ∈ r.nodes ht lib r.nextEpoch, _))

def HeardInOrder (ht : RemovalTable Table) (lib : ListLib L) (events : List EpochEvent) :
    Prop :=
  EveryStep (epochStep ht lib) (fun _ r event => r.InOrder ht lib event) (.initial ht) events

/-- The heartbeats that come between two checks. -/
def heartbeats (messages : List (CString × Int64)) : List EpochEvent :=
  messages.map fun message => .heartbeat message.1 message.2

/-- After the same run, the two sequences of heartbeats lead to the same suspects. -/
def SameSuspects (ht : RemovalTable Table) (lib : ListLib L) (pre : List EpochEvent)
    (first second : List (CString × Int64)) : Prop :=
  ∀ r early r₁ out₁ r₂ out₂,
    runEvents (epochStep ht lib) (.initial ht) pre = .ok (r, early) →
    runEvents (epochStep ht lib) r (heartbeats first) = .ok (r₁, out₁) →
    runEvents (epochStep ht lib) r (heartbeats second) = .ok (r₂, out₂) →
    ∀ node, node ∈ r₁.nodes ht lib r₁.nextEpoch ↔ node ∈ r₂.nodes ht lib r₂.nextEpoch

/-- The invariant of a run in order: no node is in a list that is still to be checked
if it has been heard for that epoch. -/
structure EpochReceiver.Ordered (ht : RemovalTable Table) (lib : ListLib L)
    (r : EpochReceiver Table L) : Prop where
  sound : r.Sound ht lib
  spared : ∀ node epoch, r.nextEpoch ≤ epoch → (node, epoch) ∈ r.heard →
    node ∉ r.nodes ht lib epoch

variable {r r' : EpochReceiver Table L} {reported : List CString}

theorem EpochReceiver.Ordered.step (hlawful : ht.Lawful) (hlib : lib.Lawful)
    (hordered : r.Ordered ht lib) {event : EpochEvent} (hinOrder : r.InOrder ht lib event)
    (hstep : epochStep ht lib r event = .ok (r', reported)) : r'.Ordered ht lib := by
  refine ⟨hordered.sound.step hlawful hlib hstep, ?_⟩
  intro node epoch hle hheard hmem
  cases event with
  | heartbeat saddr e =>
      obtain ⟨_, heffect⟩ := hordered.sound.heartbeat hlawful hlib hstep
      rw [heffect.next_eq] at hle
      rw [heffect.heard_eq, List.mem_append, List.mem_singleton, Prod.mk.injEq] at hheard
      rcases (heffect.mem_iff node epoch).mp hmem with ⟨rfl, rfl⟩ | ⟨hold, hkept⟩
      · -- the node is entered now; it has not been heard for the epoch before
        rcases hheard with hbefore | ⟨_, hself⟩
        · exact hinOrder hle hbefore
        · grind
      · rcases hheard with hbefore | hnow
        · exact hordered.spared node epoch hle hbefore hold
        · exact hkept hnow
  | check stRet =>
      obtain ⟨_, heffect⟩ := hordered.sound.check hlawful hlib hstep
      rw [heffect.heard_eq] at hheard
      rw [heffect.next_eq, add_one_le_iff heffect.fits] at hle
      have hle' : r.nextEpoch ≤ epoch := Int64.le_of_lt hle
      rcases (heffect.mem_iff node epoch).mp hmem with ⟨_, hold | ⟨rfl, hlist, hcarried⟩⟩
      · exact hordered.spared node epoch hle' hheard hold
      · exact hinOrder node hlist hcarried hheard

theorem HeardInOrder.ordered (hlawful : ht.Lawful) (hlib : lib.Lawful)
    {events : List EpochEvent} {outputs : List (List CString)}
    (hinOrder : HeardInOrder ht lib events)
    (hrun : runEvents (epochStep ht lib) (.initial ht) events = .ok (r, outputs)) :
    r.Ordered ht lib := by
  refine hinOrder.invariant (fun _ r _ => r.Ordered ht lib) ?_ ?_ hrun
  · exact ⟨EpochReceiver.initial_sound hlawful, fun _ _ _ hheard => by cases hheard⟩
  · intro _ r _ event r' reported _ hordered hcond hstep
    exact hordered.step hlawful hlib hcond hstep

/-- Where a node has no heartbeat for an epoch itself, the order of the heartbeats does
not matter to the list of that epoch. -/
theorem mem_nodes_heartbeats (hlawful : ht.Lawful) (hlib : lib.Lawful)
    (hsound : r.Sound ht lib) {messages : List (CString × Int64)}
    {outputs : List (List CString)}
    (hrun : runEvents (epochStep ht lib) r (heartbeats messages) = .ok (r', outputs)) :
    r'.nextEpoch = r.nextEpoch ∧ r'.heard = r.heard ++ messages ∧
      ∀ node epoch, (node, epoch) ∉ messages →
        (node ∈ r'.nodes ht lib epoch ↔
          node ∈ r.nodes ht lib epoch ∨ (node, epoch - 1) ∈ messages) := by
  induction messages generalizing r outputs with
  | nil =>
      cases hrun
      simp
  | cons message rest ih =>
      obtain ⟨saddr, e⟩ := message
      obtain ⟨next, reported, tail, hstep, hrest, rfl⟩ := runEvents_cons_eq_ok_iff.mp hrun
      obtain ⟨hsoundNext, heffect⟩ := hsound.heartbeat hlawful hlib hstep
      obtain ⟨hnext, hheard, hmem⟩ := ih hsoundNext hrest
      refine ⟨hnext.trans heffect.next_eq, ?_, ?_⟩
      · rw [hheard, heffect.heard_eq, List.append_assoc, List.singleton_append]
      · intro node epoch hnone
        rw [List.mem_cons, not_or, Prod.mk.injEq] at hnone
        have hshift : epoch = e + 1 ↔ epoch - 1 = e := by grind
        rw [hmem node epoch hnone.2, heffect.mem_iff, List.mem_cons, Prod.mk.injEq, hshift,
          and_iff_left hnone.1, or_assoc, or_left_comm]

/-- The suspects of the next check, for heartbeats in order. -/
theorem HeardInOrder.mem_suspects_iff (hlawful : ht.Lawful) (hlib : lib.Lawful)
    {pre : List EpochEvent} {messages : List (CString × Int64)}
    {early outputs : List (List CString)}
    (hinOrder : HeardInOrder ht lib (pre ++ heartbeats messages))
    (hpre : runEvents (epochStep ht lib) (.initial ht) pre = .ok (r, early))
    (hrun : runEvents (epochStep ht lib) r (heartbeats messages) = .ok (r', outputs))
    (node : CString) :
    node ∈ r'.nodes ht lib r'.nextEpoch ↔
      (node, r.nextEpoch) ∉ r.heard ++ messages ∧
        (node ∈ r.nodes ht lib r.nextEpoch ∨ (node, r.nextEpoch - 1) ∈ messages) := by
  have hsound := (EpochReceiver.initial_sound hlawful).run hlawful hlib hpre
  obtain ⟨hnext, hheard, hmem⟩ := mem_nodes_heartbeats hlawful hlib hsound hrun
  have hwhole := runEvents_append_eq_ok_iff.mpr ⟨r, early, outputs, hpre, hrun, rfl⟩
  have hordered := hinOrder.ordered hlawful hlib hwhole
  rw [← hheard, hnext]
  by_cases hspoken : (node, r.nextEpoch) ∈ r'.heard
  · have hspared := hordered.spared node r.nextEpoch
      (by rw [hnext]; exact Int64.le_refl _) hspoken
    simp [hspoken, hspared]
  · have hnone : (node, r.nextEpoch) ∉ messages := by
      intro hmessage
      apply hspoken
      rw [hheard]
      exact List.mem_append_right _ hmessage
    rw [hmem node r.nextEpoch hnone]
    simp [hspoken]

/-- If heartbeats come in order and none is early, no node is suspected for an epoch
it has been heard for, and heartbeats that are processed in two such orders lead to
the same suspects. -/
theorem heardNotSuspected_of_inOrder {ht : RemovalTable Table} (hlawful : ht.Lawful)
    {lib : ListLib L} (hlib : lib.Lawful) :
    (∀ events, HeardInOrder ht lib events → HeardNotSuspected ht lib events) ∧
      ∀ pre first second, first.Perm second →
        HeardInOrder ht lib (pre ++ heartbeats first) →
        HeardInOrder ht lib (pre ++ heartbeats second) →
        SameSuspects ht lib pre first second := by
  constructor
  · intro events hinOrder pre event post r outputs hsplit hrun
    rw [hsplit] at hinOrder
    have hpre : HeardInOrder ht lib pre := hinOrder.of_append
    have hordered := hpre.ordered hlawful hlib hrun
    cases event with
    | heartbeat saddr epoch => trivial
    | check stRet =>
        intro node hmem hheard
        exact hordered.spared node r.nextEpoch (Int64.le_refl _) hheard hmem
  · intro pre first second hperm hfirst hsecond r early r₁ out₁ r₂ out₂ hpre hrun₁ hrun₂ node
    rw [hfirst.mem_suspects_iff hlawful hlib hpre hrun₁,
      hsecond.mem_suspects_iff hlawful hlib hpre hrun₂, List.mem_append, List.mem_append,
      hperm.mem_iff, hperm.mem_iff]

end Order

/-- A node that answers every epoch in time, with a duplicate and another node. -/
theorem heardNotSuspected_in_order :
    let node : CString := ⟨[49, 48], by decide⟩
    let other : CString := ⟨[49, 49], by decide⟩
    HeardNotSuspected removalEntryList valueLists
        [.heartbeat node 0, .heartbeat node 0, .heartbeat other 0, .heartbeat node 1,
          .check fun _ => 0, .heartbeat node 2, .heartbeat other 1, .check fun _ => 0] ∧
      SameSuspects removalEntryList valueLists [.heartbeat node 0]
        [(node, 1), (other, 0)] [(other, 0), (node, 1)] := by
  intro node other
  have horder := heardNotSuspected_of_inOrder removalEntryList_lawful valueLists_lawful
  constructor
  · exact horder.1 _ (everyStep_iff_checkSteps.mpr (by decide))
  · exact horder.2 [.heartbeat node 0] [(node, 1), (other, 0)] [(other, 0), (node, 1)]
      (List.Perm.swap _ _ _) (everyStep_iff_checkSteps.mpr (by decide))
      (everyStep_iff_checkSteps.mpr (by decide))

/-- The heartbeat for epoch 1 overtakes that for epoch 0, or the one for epoch 2 comes
before the check of epoch 1, with that for epoch 1 lost. -/
theorem reordered_node_suspected :
    let node : CString := ⟨[49, 48], by decide⟩
    ¬ HeardNotSuspected removalEntryList valueLists
        [.heartbeat node 1, .heartbeat node 0, .check fun _ => 0] ∧
      ¬ HeardNotSuspected removalEntryList valueLists
        [.heartbeat node 0, .heartbeat node 2, .check fun _ => 0, .check fun _ => 0] ∧
      ¬ SameSuspects removalEntryList valueLists [] [(node, 1), (node, 0)]
        [(node, 0), (node, 1)] := by
  intro node
  refine ⟨?_, ?_, ?_⟩
  · intro hspared
    exact absurd (everyStep_iff_checkSteps.mp hspared) (by decide)
  · intro hspared
    exact absurd (everyStep_iff_checkSteps.mp hspared) (by decide)
  · intro hsame
    have hsuspects := hsame (.initial removalEntryList) [] _ _ _ _ rfl rfl rfl node
    exact absurd (hsuspects.mp (by decide)) (by decide)

end SafeTimer
