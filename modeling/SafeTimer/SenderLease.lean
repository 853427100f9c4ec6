/-
The valid time of the sending host as a lease.  The application is to call
`safetimer_send_heartbeat` and to set the valid time when the call returns 0, to a time that
lies at most `term` behind a reading from before the call; only the first time it may set it
without a call.  `offerService` (hdfs/BPServiceActor.java) does so with 30000 ms.  But it also
sets the valid time each time it is entered and after each response of the NameNode, whatever
the call has returned, and what is said here does not hold of those runs.
-/
import SafeTimer.Lease
import SafeTimer.SendCompletion
import Mathlib.Algebra.Order.Ring.Int
import Mathlib.Logic.Function.Basic

namespace SafeTimer

/-- How long a heartbeat counts, and how soon after its call it has to be confirmed. -/
structure LeaseTerms where
  term : Nat
  window : Nat

/-- The sending host with the times of its calls.  The beats are the times at which the
driver has sent the heartbeat of a call that can still be confirmed; `armedAt` is when the
valid time was first set. -/
structure LeasedSender where
  send : SendState
  sentAt : Nat → Int
  beats : List Int
  armedAt : Option Int

def LeasedSender.initial : LeasedSender :=
  ⟨.initial, fun _ => 0, [], none⟩

/-- The reading of `ktime_get_boottime`. -/
def LeasedSender.now (s : LeasedSender) : Int :=
  s.send.bootTime.toInt

def LeasedSender.anchor (s : LeasedSender) : Int :=
  s.armedAt.getD s.now

/-- The beat of a datagram that the driver has sent. -/
def LeasedSender.beat (terms : LeaseTerms) (s : LeasedSender) (i : Nat) : List Int :=
  match s.send.driver[i]? with
  | some d => if s.now ≤ s.sentAt d.call + terms.window then [s.now] else []
  | none => []

/-- The host has come to `send`. -/
def LeasedSender.follow (terms : LeaseTerms) (s : LeasedSender) (send : SendState) :
    SendEvent → LeasedSender
  | .call _ _ =>
      { s with send := send, sentAt := Function.update s.sentAt s.send.calls s.now }
  | .consume i => { s with send := send, beats := s.beats ++ s.beat terms i }
  | .setValidTime _ => { s with send := send, armedAt := some s.anchor }
  | .route _ | .deliver _ | .wake | .expire | .tick _ => { s with send := send }

def leasedStep (terms : LeaseTerms) (s : LeasedSender) (event : SendEvent) :
    Except Unit (LeasedSender × Unit) :=
  match sendStep s.send event with
  | .error refusal => .error refusal
  | .ok (send, _) => .ok (s.follow terms send event, ())

/-- The valid time is set by the terms: no signal comes late, a call that returns 0 does so
within the window, and the valid time goes at most `term` beyond such a call. -/
def LeasedSender.KeepsTerms (terms : LeaseTerms) (s : LeasedSender) : SendEvent → Prop
  | .deliver i => (SendEvent.deliver i).InTime s.send
  | .wake => ∀ call ∈ s.send.waiting, s.now ≤ s.sentAt call + terms.window
  | .setValidTime value => value ≠ 0 ∧
      (s.armedAt = none ∧ value.toInt ≤ s.now + terms.term ∨
        ∃ call < s.send.calls, .returned call 0 ∈ s.send.log ∧
          value.toInt ≤ s.sentAt call + terms.term)
  | .call .. | .route _ | .consume _ | .expire | .tick _ => True

instance (terms : LeaseTerms) (s : LeasedSender) :
    (event : SendEvent) → Decidable (s.KeepsTerms terms event)
  | .deliver i => inferInstanceAs (Decidable ((SendEvent.deliver i).InTime s.send))
  | .wake => inferInstanceAs (Decidable (∀ call ∈ s.send.waiting, _))
  | .setValidTime _ => inferInstanceAs (Decidable (_ ∧ (_ ∨ _)))
  | .call .. | .route _ | .consume _ | .expire | .tick _ => isTrue trivial

section Host

variable {s s' : SendState} {event : SendEvent}

theorem SendState.call_calls (s : SendState) (nodeId : Int) (sendOk : Bool) :
    (s.call nodeId sendOk).calls = s.calls + 1 := by
  rw [SendState.call]
  split <;> rfl

theorem SendStep.calls_eq (hstep : SendStep s event s')
    (hevent : ∀ nodeId sendOk, event ≠ .call nodeId sendOk) : s'.calls = s.calls := by
  cases hstep with
  | call nodeId sendOk => exact absurd rfl (hevent nodeId sendOk)
  | accepted | dropped | consume | deliver | wake | expire | setValidTime | tick => rfl

/-- A datagram comes to the driver when the hook lets it pass. -/
theorem SendStep.mem_driver (hstep : SendStep s event s') {d : Datagram}
    (hd : d ∈ s'.driver) :
    d ∈ s.driver ∨ d ∈ s.routing ∧ stHookFunc s.stValidTime s.bootTime d.skb = .accept := by
  cases hstep with
  | call nodeId sendOk hidle =>
      rw [SendState.call] at hd
      split at hd <;> exact Or.inl hd
  | accepted hrouting hverdict =>
      rcases List.mem_append.mp hd with hold | hnew
      · exact Or.inl hold
      · rw [List.mem_singleton.mp hnew]
        exact Or.inr ⟨List.mem_of_getElem? hrouting, hverdict⟩
  | consume => exact Or.inl (List.mem_of_mem_eraseIdx hd)
  | dropped | deliver | wake | expire | setValidTime | tick => exact Or.inl hd

theorem SendStep.mem_log_consumed (hstep : SendStep s event s') {call : Nat}
    (hmem : .consumed call ∈ s'.log) :
    .consumed call ∈ s.log ∨
      ∃ i d, event = .consume i ∧ s.driver[i]? = some d ∧ d.call = call := by
  cases hstep with
  | call nodeId sendOk hidle =>
      rw [SendState.call] at hmem
      split at hmem
      · simpa using hmem
      · exact Or.inl hmem
  | @consume i d hd =>
      rcases List.mem_append.mp hmem with hold | hnew
      · exact Or.inl hold
      · simp only [List.mem_singleton, SendLog.consumed.injEq] at hnew
        exact Or.inr ⟨i, d, rfl, hd, hnew.symm⟩
  | accepted | dropped => simpa using hmem
  | deliver | wake | expire => simpa [SendState.deliver, SendState.return] using hmem
  | setValidTime | tick => exact Or.inl hmem

theorem SendStep.mem_log_returned (hstep : SendStep s event s') {call : Nat}
    (hmem : .returned call 0 ∈ s'.log) :
    .returned call 0 ∈ s.log ∨ event = .wake ∧ s.waiting = some call := by
  cases hstep with
  | call nodeId sendOk hidle =>
      rw [SendState.call] at hmem
      split at hmem
      · simpa using hmem
      · exact Or.inl hmem
  | wake hwaiting hposted =>
      rcases List.mem_append.mp hmem with hold | hnew
      · exact Or.inl hold
      · simp only [List.mem_singleton, SendLog.returned.injEq, and_true] at hnew
        rw [hnew]
        exact Or.inr ⟨rfl, hwaiting⟩
  | accepted | dropped => simpa using hmem
  | consume | deliver | expire =>
      simpa [SendState.consume, SendState.deliver, SendState.return] using hmem
  | setValidTime | tick => exact Or.inl hmem

end Host

section Steps

variable {terms : LeaseTerms} {s s' : LeasedSender} {event : SendEvent}

@[simp] theorem LeasedSender.follow_send (send : SendState) :
    (s.follow terms send event).send = send := by
  cases event <;> rfl

theorem leasedStep_eq_ok (hstep : leasedStep terms s event = .ok (s', ())) :
    ∃ send, SendStep s.send event send ∧ s' = s.follow terms send event := by
  rw [leasedStep] at hstep
  split at hstep
  · cases hstep
  · rename_i send _ hsend
    cases hstep
    exact ⟨send, sendStep_eq_ok hsend, rfl⟩

theorem LeasedSender.KeepsTerms.inTime (hkeeps : s.KeepsTerms terms event) :
    event.InTime s.send := by
  cases event with
  | deliver i => exact hkeeps
  | _ => trivial

/-- What only grows in a run. -/
structure LeasedSender.Grows (s s' : LeasedSender) : Prop where
  calls_le : s.send.calls ≤ s'.send.calls
  sentAt_eq : ∀ call < s.send.calls, s'.sentAt call = s.sentAt call
  now_le : s.now ≤ s'.now
  anchor_le : s.anchor ≤ s'.anchor
  armedAt_eq : ∀ armedAt, s.armedAt = some armedAt → s'.armedAt = some armedAt
  beats_subset : s.beats ⊆ s'.beats
  beats_new : ∀ beat ∈ s'.beats, beat ∈ s.beats ∨ s.now ≤ beat

theorem LeasedSender.grows_refl (s : LeasedSender) : s.Grows s :=
  ⟨le_refl _, fun _ _ => rfl, le_refl _, le_refl _, fun _ harmed => harmed,
    List.Subset.refl _, fun _ hmem => Or.inl hmem⟩

theorem LeasedSender.Grows.trans {s'' : LeasedSender} (hfirst : s.Grows s')
    (hsecond : s'.Grows s'') : s.Grows s'' where
  calls_le := hfirst.calls_le.trans hsecond.calls_le
  sentAt_eq := by
    intro call hlt
    rw [hsecond.sentAt_eq call (Nat.lt_of_lt_of_le hlt hfirst.calls_le)]
    exact hfirst.sentAt_eq call hlt
  now_le := hfirst.now_le.trans hsecond.now_le
  anchor_le := hfirst.anchor_le.trans hsecond.anchor_le
  armedAt_eq := fun armedAt harmed => hsecond.armedAt_eq armedAt (hfirst.armedAt_eq armedAt harmed)
  beats_subset := List.Subset.trans hfirst.beats_subset hsecond.beats_subset
  beats_new := by
    intro beat hmem
    rcases hsecond.beats_new beat hmem with hold | hnew
    · exact hfirst.beats_new beat hold
    · exact Or.inr (hfirst.now_le.trans hnew)

theorem LeasedSender.Grows.covered (hgrows : s.Grows s') {time : Int}
    (hcovered : Covered s.anchor s.beats terms.term time) :
    Covered s'.anchor s'.beats terms.term time :=
  hcovered.mono hgrows.anchor_le hgrows.beats_subset

theorem LeasedSender.anchor_le_of_now_le {send : SendState}
    (hle : s.send.bootTime ≤ send.bootTime) :
    s.anchor ≤ ({ s with send := send } : LeasedSender).anchor := by
  rw [anchor, anchor]
  cases s.armedAt with
  | none => exact Int64.le_iff_toInt_le.mp hle
  | some armedAt => exact Int.le_refl armedAt

theorem LeasedSender.eq_now_of_mem_beat {i : Nat} {beat : Int}
    (hmem : beat ∈ s.beat terms i) : beat = s.now := by
  rw [LeasedSender.beat] at hmem
  split at hmem
  · split at hmem
    · exact List.mem_singleton.mp hmem
    · cases hmem
  · cases hmem

theorem LeasedSender.follow_grows {send : SendState} (hsend : SendStep s.send event send) :
    s.Grows (s.follow terms send event) := by
  have hboot := hsend.bootTime_le
  have hnow : s.now ≤ send.bootTime.toInt := Int64.le_iff_toInt_le.mp hboot
  have hanchor := LeasedSender.anchor_le_of_now_le hboot
  cases event with
  | call nodeId sendOk =>
      refine ⟨?_, ?_, hnow, hanchor, fun _ harmed => harmed, List.Subset.refl _,
        fun _ hmem => Or.inl hmem⟩
      · cases hsend
        rw [follow_send, SendState.call_calls]
        exact Nat.le_succ _
      · intro call hlt
        exact Function.update_of_ne (Nat.ne_of_lt hlt) _ _
  | consume i =>
      refine ⟨(hsend.calls_eq nofun).ge, fun _ _ => rfl, hnow, hanchor, fun _ harmed => harmed,
        List.subset_append_left _ _, ?_⟩
      intro beat hmem
      rcases List.mem_append.mp hmem with hold | hnew
      · exact Or.inl hold
      · exact Or.inr (le_of_eq (LeasedSender.eq_now_of_mem_beat hnew).symm)
  | setValidTime value =>
      refine ⟨(hsend.calls_eq nofun).ge, fun _ _ => rfl, hnow, ?_, ?_, List.Subset.refl _,
        fun _ hmem => Or.inl hmem⟩
      · exact le_of_eq (Option.getD_some (a := s.anchor)).symm
      · intro armedAt harmed
        rw [follow, anchor, harmed, Option.getD_some]
  | route _ | deliver _ | wake | expire | tick _ =>
      exact ⟨(hsend.calls_eq nofun).ge, fun _ _ => rfl, hnow, hanchor, fun _ harmed => harmed,
        List.Subset.refl _, fun _ hmem => Or.inl hmem⟩

/-- The lease behind the valid time. -/
structure LeasedSender.Sound (terms : LeaseTerms) (s : LeasedSender) : Prop where
  accounted : Accounted s.send
  heartbeats : s.send.OnlyHeartbeats
  sent_le : ∀ call < s.send.calls, s.sentAt call ≤ s.now
  accepted : ∀ d ∈ s.send.driver, Covered s.anchor s.beats terms.term (s.sentAt d.call)
  consumed : ∀ call, .consumed call ∈ s.send.log → call < s.send.calls ∧
    ((∃ beat ∈ s.beats, s.sentAt call ≤ beat) ∨ s.sentAt call + terms.window < s.now)
  confirmed : ∀ call, .returned call 0 ∈ s.send.log → call < s.send.calls ∧
    ∃ beat ∈ s.beats, s.sentAt call ≤ beat
  unarmed : s.armedAt = none → s.send.stValidTime = 0
  armed : ∀ armedAt ∈ s.armedAt, s.send.stValidTime ≠ 0 ∧
    Covered s.anchor s.beats terms.term s.send.stValidTime.toInt
  beats_le : ∀ beat ∈ s.beats, beat ≤ s.now
  chained : Chained s.anchor s.beats (terms.term + terms.window)

theorem LeasedSender.initial_sound (terms : LeaseTerms) : LeasedSender.initial.Sound terms := by
  constructor
  case accounted => exact accounted_initial
  case unarmed =>
    intro _
    rfl
  case chained => exact chained_nil _ _
  case sent_le =>
    intro call hlt
    cases hlt
  case heartbeats | accepted | consumed | confirmed | armed | beats_le =>
    intro _ hmem
    cases hmem

section Sound

variable {send : SendState} (hs : s.Sound terms) (hsend : SendStep s.send event send)
  (hkeeps : s.KeepsTerms terms event)

include hs

/-- A new beat comes soon after a time that the lease covers. -/
theorem LeasedSender.Sound.follow_beats (send : SendState) (event : SendEvent) :
    (s.follow terms send event).beats = s.beats ∨
      (s.follow terms send event).beats = s.beats ++ [s.now] ∧
        Covered s.anchor s.beats (terms.term + terms.window) s.now := by
  cases event with
  | consume i =>
      simp only [LeasedSender.follow, LeasedSender.beat]
      split
      · rename_i d hd
        split
        · rename_i hsoon
          exact Or.inr ⟨rfl, (hs.accepted d (List.mem_of_getElem? hd)).add hsoon⟩
        · exact Or.inl (List.append_nil _)
      · exact Or.inl (List.append_nil _)
  | _ => exact Or.inl rfl

include hsend

theorem LeasedSender.Sound.follow_sent_le :
    ∀ call < (s.follow terms send event).send.calls,
      (s.follow terms send event).sentAt call ≤ (s.follow terms send event).now := by
  have hgrows : s.Grows (s.follow terms send event) := LeasedSender.follow_grows hsend
  have hold : ∀ call < s.send.calls,
      (s.follow terms send event).sentAt call ≤ (s.follow terms send event).now := by
    intro call hlt
    rw [hgrows.sentAt_eq call hlt]
    exact (hs.sent_le call hlt).trans hgrows.now_le
  intro call hlt
  rw [follow_send] at hlt
  by_cases hcalls : send.calls = s.send.calls
  · exact hold call (hcalls ▸ hlt)
  · cases hsend with
    | call nodeId sendOk hidle =>
        rw [SendState.call_calls] at hlt
        rcases Nat.lt_succ_iff_lt_or_eq.mp hlt with hlt' | rfl
        · exact hold call hlt'
        · exact le_trans (le_of_eq (Function.update_self _ _ _)) hgrows.now_le
    | _ => exact absurd rfl hcalls

/-- A heartbeat that the hook lets pass was sent under the lease. -/
theorem LeasedSender.Sound.follow_accepted :
    ∀ d ∈ (s.follow terms send event).send.driver,
      Covered (s.follow terms send event).anchor (s.follow terms send event).beats terms.term
        ((s.follow terms send event).sentAt d.call) := by
  have hgrows : s.Grows (s.follow terms send event) := LeasedSender.follow_grows hsend
  intro d hd
  rw [follow_send] at hd
  have hknown : ∀ d ∈ s.send.routing ++ s.send.driver, d.call < s.send.calls := by
    intro d hmem
    apply hs.accounted.known
    rw [SendState.outstanding, ← List.map_append]
    exact List.mem_append_left _ (List.mem_map_of_mem hmem)
  rcases hsend.mem_driver hd with hold | ⟨hrouting, haccept⟩
  · rw [hgrows.sentAt_eq _ (hknown d (List.mem_append_right _ hold))]
    exact hgrows.covered (hs.accepted d hold)
  · have hlt := hknown d (List.mem_append_left _ hrouting)
    rw [hgrows.sentAt_eq _ hlt]
    apply hgrows.covered
    have hsent := hs.sent_le d.call hlt
    by_cases hopen : s.send.stValidTime = 0 ∨ s.send.bootTime ≤ s.send.stValidTime
    · cases harmed : s.armedAt with
      | none =>
          refine ⟨s.anchor, List.mem_cons_self, ?_⟩
          rw [LeasedSender.anchor, harmed, Option.getD_none]
          omega
      | some armedAt =>
          obtain ⟨hnonzero, hcovered⟩ := hs.armed armedAt harmed
          have hle := Int64.le_iff_toInt_le.mp (hopen.resolve_left hnonzero)
          exact hcovered.of_le (hsent.trans hle)
    · rw [stHookFunc, if_neg hopen, if_pos (hs.heartbeats d hrouting)] at haccept
      cases haccept

theorem LeasedSender.Sound.follow_consumed (call : Nat)
    (hmem : .consumed call ∈ (s.follow terms send event).send.log) :
    call < (s.follow terms send event).send.calls ∧
      ((∃ beat ∈ (s.follow terms send event).beats,
          (s.follow terms send event).sentAt call ≤ beat) ∨
        (s.follow terms send event).sentAt call + terms.window <
          (s.follow terms send event).now) := by
  have hgrows : s.Grows (s.follow terms send event) := LeasedSender.follow_grows hsend
  have hcalls := hgrows.calls_le
  have hnow := hgrows.now_le
  rw [follow_send] at hmem
  rcases hsend.mem_log_consumed hmem with hold | ⟨i, d, rfl, hd, rfl⟩
  · obtain ⟨hlt, hcases⟩ := hs.consumed call hold
    rw [hgrows.sentAt_eq call hlt]
    refine ⟨by omega, ?_⟩
    rcases hcases with ⟨beat, hbeat, hle⟩ | hlate
    · exact Or.inl ⟨beat, hgrows.beats_subset hbeat, hle⟩
    · exact Or.inr (by omega)
  · have hlt : d.call < s.send.calls := by
      apply hs.accounted.known
      simp only [SendState.outstanding, List.mem_append]
      exact Or.inl (Or.inr (List.mem_map_of_mem (List.mem_of_getElem? hd)))
    rw [hgrows.sentAt_eq d.call hlt]
    refine ⟨by omega, ?_⟩
    by_cases hsoon : s.now ≤ s.sentAt d.call + terms.window
    · refine Or.inl ⟨s.now, ?_, hs.sent_le d.call hlt⟩
      simp [LeasedSender.follow, LeasedSender.beat, hd, hsoon]
    · exact Or.inr (by omega)

theorem LeasedSender.Sound.follow_beats_le :
    ∀ beat ∈ (s.follow terms send event).beats, beat ≤ (s.follow terms send event).now := by
  have hgrows : s.Grows (s.follow terms send event) := LeasedSender.follow_grows hsend
  intro beat hmem
  refine le_trans ?_ hgrows.now_le
  rcases hs.follow_beats send event with hsame | ⟨hnew, _⟩
  · rw [hsame] at hmem
    exact hs.beats_le beat hmem
  · rw [hnew, List.mem_append, List.mem_singleton] at hmem
    rcases hmem with hold | rfl
    · exact hs.beats_le beat hold
    · exact le_refl _

theorem LeasedSender.Sound.follow_chained :
    Chained (s.follow terms send event).anchor (s.follow terms send event).beats
      (terms.term + terms.window) := by
  have hgrows : s.Grows (s.follow terms send event) := LeasedSender.follow_grows hsend
  refine Chained.mono ?_ hgrows.anchor_le
  rcases hs.follow_beats send event with hsame | ⟨hnew, hcovered⟩
  · rw [hsame]
    exact hs.chained
  · rw [hnew]
    exact hs.chained.concat hcovered

theorem LeasedSender.Sound.follow_unarmed
    (hunarmed : (s.follow terms send event).armedAt = none) :
    (s.follow terms send event).send.stValidTime = 0 := by
  have hevent : ∀ value, event ≠ .setValidTime value := by
    rintro value rfl
    cases hunarmed
  have hsame : (s.follow terms send event).armedAt = s.armedAt := by
    cases event with
    | setValidTime value => exact absurd rfl (hevent value)
    | _ => rfl
  rw [follow_send, hsend.stValidTime_eq hevent]
  exact hs.unarmed (hsame ▸ hunarmed)

include hkeeps

theorem LeasedSender.Sound.follow_confirmed (call : Nat)
    (hmem : .returned call 0 ∈ (s.follow terms send event).send.log) :
    call < (s.follow terms send event).send.calls ∧
      ∃ beat ∈ (s.follow terms send event).beats,
        (s.follow terms send event).sentAt call ≤ beat := by
  have hgrows : s.Grows (s.follow terms send event) := LeasedSender.follow_grows hsend
  have hcalls := hgrows.calls_le
  rw [follow_send] at hmem
  have hbeat : call < s.send.calls ∧ ∃ beat ∈ s.beats, s.sentAt call ≤ beat := by
    rcases hsend.mem_log_returned hmem with hold | ⟨rfl, hwaiting⟩
    · exact hs.confirmed call hold
    · -- the call returns on the strength of its own datagram, and within the window
      have hconfirmed := (hs.accounted.step hsend hkeeps.inTime).confirmed call hmem
      have hconsumed : .consumed call ∈ send.log := hconfirmed.subset (by simp)
      rcases hsend.mem_log_consumed hconsumed with hold | ⟨_, _, hevent, _⟩
      · obtain ⟨hlt, hbeat | hlate⟩ := hs.consumed call hold
        · exact ⟨hlt, hbeat⟩
        · exact absurd (hkeeps call hwaiting) (by omega)
      · cases hevent
  obtain ⟨hlt, beat, hbeat, hle⟩ := hbeat
  rw [hgrows.sentAt_eq call hlt]
  exact ⟨by omega, beat, hgrows.beats_subset hbeat, hle⟩

/-- The valid time that is set by the terms is covered. -/
theorem LeasedSender.Sound.follow_armed (armedAt : Int)
    (harmed : armedAt ∈ (s.follow terms send event).armedAt) :
    (s.follow terms send event).send.stValidTime ≠ 0 ∧
      Covered (s.follow terms send event).anchor (s.follow terms send event).beats terms.term
        (s.follow terms send event).send.stValidTime.toInt := by
  have hgrows : s.Grows (s.follow terms send event) := LeasedSender.follow_grows hsend
  rw [follow_send]
  by_cases hevent : ∃ value, event = .setValidTime value
  · obtain ⟨value, rfl⟩ := hevent
    obtain ⟨hnonzero, hvalue⟩ := hkeeps
    cases hsend
    refine ⟨hnonzero, hgrows.covered ?_⟩
    rcases hvalue with ⟨hfirst, hle⟩ | ⟨call, _, hreturned, hle⟩
    · refine ⟨s.anchor, List.mem_cons_self, ?_⟩
      rw [LeasedSender.anchor, hfirst]
      exact hle
    · obtain ⟨_, beat, hbeat, hsent⟩ := hs.confirmed call hreturned
      exact ⟨beat, List.mem_cons_of_mem _ hbeat, hle.trans (by omega)⟩
  · rw [not_exists] at hevent
    have hsame : (s.follow terms send event).armedAt = s.armedAt := by
      cases event with
      | setValidTime value => exact absurd rfl (hevent value)
      | _ => rfl
    rw [hsend.stValidTime_eq hevent]
    obtain ⟨hnonzero, hcovered⟩ := hs.armed armedAt (hsame ▸ harmed)
    exact ⟨hnonzero, hgrows.covered hcovered⟩

/-- One event. -/
theorem LeasedSender.Sound.follow : (s.follow terms send event).Sound terms where
  accounted := by
    rw [follow_send]
    exact hs.accounted.step hsend hkeeps.inTime
  heartbeats := by
    rw [follow_send]
    exact hs.heartbeats.step hsend
  sent_le := hs.follow_sent_le hsend
  accepted := hs.follow_accepted hsend
  consumed := hs.follow_consumed hsend
  confirmed := hs.follow_confirmed hsend hkeeps
  unarmed := hs.follow_unarmed hsend
  armed := hs.follow_armed hsend hkeeps
  beats_le := hs.follow_beats_le hsend
  chained := hs.follow_chained hsend

end Sound

theorem LeasedSender.Sound.step (hs : s.Sound terms) (hkeeps : s.KeepsTerms terms event)
    (hstep : leasedStep terms s event = .ok (s', ())) : s'.Sound terms := by
  obtain ⟨send, hsend, rfl⟩ := leasedStep_eq_ok hstep
  exact hs.follow hsend hkeeps

theorem leasedStep_grows (hstep : leasedStep terms s event = .ok (s', ())) : s.Grows s' := by
  obtain ⟨send, hsend, rfl⟩ := leasedStep_eq_ok hstep
  exact LeasedSender.follow_grows hsend

/-- A new beat is a heartbeat that the driver sends now. -/
theorem leasedStep_beats (hstep : leasedStep terms s event = .ok (s', ())) {beat : Int}
    (hmem : beat ∈ s'.beats) :
    beat ∈ s.beats ∨ (∃ i, event = .consume i) ∧ beat = s.now := by
  obtain ⟨send, _, rfl⟩ := leasedStep_eq_ok hstep
  cases event with
  | consume i =>
      rcases List.mem_append.mp hmem with hold | hnew
      · exact Or.inl hold
      · exact Or.inr ⟨⟨i, rfl⟩, LeasedSender.eq_now_of_mem_beat hnew⟩
  | _ => exact Or.inl hmem

theorem grows_of_run {events : List SendEvent} {outputs : List Unit}
    (hrun : runEvents (leasedStep terms) s events = .ok (s', outputs)) : s.Grows s' :=
  runEvents_invariant (fun _ state _ => s.Grows state) s.grows_refl
    (fun _ _ _ _ _ _ _ hgrows hstep => hgrows.trans (leasedStep_grows hstep)) hrun

theorem sound_of_run {events : List SendEvent} {outputs : List Unit}
    (hkeeps : EveryStep (leasedStep terms) (fun _ s event => s.KeepsTerms terms event) .initial
      events)
    (hrun : runEvents (leasedStep terms) .initial events = .ok (s, outputs)) : s.Sound terms :=
  hkeeps.invariant (fun _ state _ => state.Sound terms) (LeasedSender.initial_sound terms)
    (fun _ _ _ _ _ _ _ hs hkeeps hstep => hs.step hkeeps hstep) hrun

/-- After a pause of the term and the window the gate is closed. -/
theorem LeasedSender.Sound.gateClosed (hs : s.Sound terms) {armedAt bound : Int}
    (harmed : s.armedAt = some armedAt) (hanchor : armedAt < bound)
    (hpause : ∀ beat ∈ s.beats, beat < bound + (terms.term + terms.window) → beat < bound)
    (hlate : bound + terms.term ≤ s.now) :
    s.send.GateClosed ∧ ∀ beat ∈ s.beats, beat < bound := by
  have hanchor' : s.anchor < bound := by
    rw [LeasedSender.anchor, harmed]
    exact hanchor
  have hbeats := hs.chained.lt_of_pause hanchor' hpause
  obtain ⟨hnonzero, hcovered⟩ := hs.armed armedAt harmed
  have hvalid := hcovered.lt hanchor' hbeats
  refine ⟨(SendState.gateClosed_iff s.send).mpr ⟨hnonzero, ?_⟩, hbeats⟩
  exact lt_of_lt_of_le hvalid hlate

end Steps

/-- While the hook lets heartbeats pass, one of them left the host at most `term` ago, or
the valid time was first set then. -/
theorem open_gate_is_leased (terms : LeaseTerms) (events : List SendEvent)
    (hkeeps : EveryStep (leasedStep terms) (fun _ s event => s.KeepsTerms terms event) .initial
      events)
    (s : LeasedSender) (outputs : List Unit)
    (hrun : runEvents (leasedStep terms) .initial events = .ok (s, outputs)) (armedAt : Int)
    (harmed : s.armedAt = some armedAt) (hopen : ¬ s.send.GateClosed) :
    ∃ t ∈ armedAt :: s.beats, s.now ≤ t + terms.term := by
  obtain ⟨hnonzero, hcovered⟩ := (sound_of_run hkeeps hrun).armed armedAt harmed
  rw [SendState.gateClosed_iff, not_and, not_lt] at hopen
  rw [LeasedSender.anchor, harmed] at hcovered
  exact hcovered.of_le (hopen hnonzero)

/-- The valid time is first set at 1000; the heartbeat of a call of 1000 leaves at 1005 and
is confirmed. -/
def leaseRun : List SendEvent :=
  [.tick 1000, .setValidTime 1090, .call 0 true, .route 0, .tick 1005, .consume 0, .deliver 0,
    .wake, .setValidTime 1100, .tick 1095]

theorem open_gate_is_leased_leaseRun :
    ∃ s outputs, runEvents (leasedStep ⟨100, 10⟩) .initial leaseRun = .ok (s, outputs) ∧
      s.beats = [1005] ∧ s.now = 1095 ∧ ∃ t ∈ 1000 :: s.beats, s.now ≤ t + 100 := by
  have hpart : (runEvents (leasedStep ⟨100, 10⟩) .initial leaseRun).map
      (fun result => (result.1.armedAt, result.1.beats, result.1.now,
        result.1.send.stValidTime.toInt)) = .ok (some 1000, [1005], 1095, 1100) := by decide
  obtain ⟨⟨s, outputs⟩, hrun, hvalues⟩ := exists_ok_of_map_eq hpart
  simp only [Prod.mk.injEq] at hvalues
  obtain ⟨harmed, hbeats, hnow, hvalid⟩ := hvalues
  refine ⟨s, outputs, hrun, hbeats, hnow, ?_⟩
  apply open_gate_is_leased ⟨100, 10⟩ leaseRun (everyStep_iff_checkSteps.mpr (by decide)) s outputs
    hrun 1000 harmed
  rw [SendState.gateClosed_iff, hvalid]
  rintro ⟨_, hlt⟩
  have hclock : s.send.bootTime.toInt = 1095 := hnow
  omega

/-- A lease that has lapsed is lapsed for good: if no heartbeat has left the host for the
term and the window, the hook drops all heartbeats from then on. -/
theorem lapsed_lease_is_final (terms : LeaseTerms) (events post : List SendEvent)
    (hkeeps : EveryStep (leasedStep terms) (fun _ s event => s.KeepsTerms terms event) .initial
      (events ++ post))
    (s s' : LeasedSender) (outputs late : List Unit)
    (hrun : runEvents (leasedStep terms) .initial events = .ok (s, outputs))
    (hpost : runEvents (leasedStep terms) s post = .ok (s', late)) (armedAt bound : Int)
    (harmed : s.armedAt = some armedAt) (hanchor : armedAt < bound)
    (hbeats : ∀ beat ∈ s.beats, beat < bound)
    (hlapsed : bound + (terms.term + terms.window) ≤ s.now) :
    s'.send.GateClosed ∧ ∀ beat ∈ s'.beats, beat < bound := by
  have hgrows := grows_of_run hpost
  have hall : runEvents (leasedStep terms) .initial (events ++ post) = .ok (s', outputs ++ late) :=
    runEvents_append_eq_ok_iff.mpr ⟨s, outputs, late, hrun, hpost, rfl⟩
  refine (sound_of_run hkeeps hall).gateClosed (hgrows.armedAt_eq armedAt harmed) hanchor ?_ ?_
  · intro beat hmem hearly
    rcases hgrows.beats_new beat hmem with hold | hnew
    · exact hbeats beat hold
    · omega
  · have hnow := hgrows.now_le
    omega

/-- The next call comes after the lease has lapsed. -/
theorem lapsed_lease_is_final_leaseRun :
    ∃ s outputs s' late, runEvents (leasedStep ⟨100, 10⟩) .initial (leaseRun ++ [.tick 1120]) =
        .ok (s, outputs) ∧
      runEvents (leasedStep ⟨100, 10⟩) s [.call 0 true, .route 0, .tick 9000] = .ok (s', late) ∧
      s'.send.GateClosed ∧ ∀ beat ∈ s'.beats, beat < 1006 := by
  have hpart : (runEvents (leasedStep ⟨100, 10⟩) .initial
      ((leaseRun ++ [.tick 1120]) ++ [.call 0 true, .route 0, .tick 9000])).map
        (fun _ => ()) = .ok () := by decide
  obtain ⟨⟨s', all⟩, hall, _⟩ := exists_ok_of_map_eq hpart
  obtain ⟨s, outputs, late, hrun, hpost, rfl⟩ := runEvents_append_eq_ok_iff.mp hall
  have hfirst : (runEvents (leasedStep ⟨100, 10⟩) .initial (leaseRun ++ [.tick 1120])).map
      (fun result => (result.1.armedAt, result.1.beats, result.1.now)) =
        .ok (some 1000, [1005], 1120) := by decide
  rw [hrun] at hfirst
  simp only [Except.map, Except.ok.injEq, Prod.mk.injEq] at hfirst
  obtain ⟨harmed, hbeats, hnow⟩ := hfirst
  refine ⟨s, outputs, s', late, hrun, hpost, ?_⟩
  refine lapsed_lease_is_final ⟨100, 10⟩ (leaseRun ++ [.tick 1120])
    [.call 0 true, .route 0, .tick 9000] (everyStep_iff_checkSteps.mpr (by decide)) s s' outputs
    late hrun hpost 1000 1006 harmed (by decide) ?_ ?_
  · rw [hbeats]
    decide
  · rw [hnow]
    decide

end SafeTimer
