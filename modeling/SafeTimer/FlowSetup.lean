/-
`setup_rx_queue_flows` (src/barrier.c): one connection after the other is attempted until
the server has accepted four of them.
-/
import SafeTimer.BarrierServer
import Mathlib.Data.Fintype.Card

namespace SafeTimer

/-- The results of the calls for one connection: what `socket`, `setsockopt`, `connect` and
`recv` return, and the reply that `recv` leaves in `rx_queue`.  The later ones mean nothing
when an earlier one is a failure. -/
structure Attempt where
  fd : Int32
  setsockopt : Int32
  connect : Int32
  received : Int64
  rxQueue : Int64
deriving DecidableEq

/-- The loop with its counter, or the value that was returned. -/
inductive SetupControl where
  | looping (count : Nat)
  | returned (ret : Int32)
deriving DecidableEq

/-- `client_fds` beside the connections that are open, each with the queue that the server has
answered for it. -/
structure FlowSetup where
  clientFds : Fin irqNum → Int32
  answers : Int32 → Option (Fin irqNum)
  control : SetupControl

inductive SetupStop where
  /-- the event cannot happen -/
  | notEnabled
  /-- `client_fds` is accessed out of its bounds -/
  | clientFdsAccess
  /-- `fclose` of a null pointer -/
  | nullStream
deriving DecidableEq

/-- The file `clear` of the module, or the failure to open it, where the process may or may not
survive the `fclose` of the null pointer. -/
inductive ClearFile where
  | opened
  | unopened (survives : Bool)
deriving DecidableEq

/-- `clear_sport_on_rx_queues`, as far as the setup sees it. -/
def clearSportOnRxQueues : ClearFile → Except SetupStop Int32
  | .opened => .ok 0
  | .unopened true => .ok (-1)
  | .unopened false => .error .nullStream

/-- `setup_rx_queue_flows` up to the loop. -/
def FlowSetup.start (clear : ClearFile) : Except SetupStop FlowSetup := do
  let ret ← clearSportOnRxQueues clear
  return {
    clientFds := fun _ => 0
    answers := fun _ => none
    control := if ret < 0 then .returned ret else .looping 0 }

/-- The element of `client_fds` that `rx_queue - BASE_IRQ` names. -/
def queueIndex? (rxQueue : Int64) : Option (Fin irqNum) :=
  if hindex : 0 ≤ rxQueue.toInt - baseIrq.toInt ∧ rxQueue.toInt - baseIrq.toInt < irqNum then
    some ⟨(rxQueue.toInt - baseIrq.toInt).toNat, by omega⟩
  else none

/-- One iteration of the loop.  A socket that is closed again leaves no trace; the kernel hands
out no descriptor that is in use. -/
def FlowSetup.iterate (s : FlowSetup) (count : Nat) (a : Attempt) :
    Except SetupStop (FlowSetup × Unit) :=
  if a.fd < 0 then .ok ({ s with control := .returned a.fd }, ())
  else if s.answers a.fd ≠ none then .error .notEnabled
  else if a.setsockopt < 0 then .ok ({ s with control := .returned a.setsockopt }, ())
  else if a.connect < 0 then .ok ({ s with control := .returned a.connect }, ())
  -- `ret` still holds the result of `connect`
  else if a.received ≠ 8 then .ok ({ s with control := .returned a.connect }, ())
  else if 0 < a.rxQueue then
    match queueIndex? a.rxQueue with
    | none => .error .clientFdsAccess
    | some i =>
        .ok ({
          clientFds := Function.update s.clientFds i a.fd
          answers := Function.update s.answers a.fd (some i)
          control := if count + 1 < 4 then .looping (count + 1) else .returned a.connect }, ())
  else .ok (s, ())

def FlowSetup.step (s : FlowSetup) (a : Attempt) : Except SetupStop (FlowSetup × Unit) :=
  match s.control with
  | .returned _ => .error .notEnabled
  | .looping count => s.iterate count a

/-- `setup_rx_queue_flows` for the attempts up to its return, or up to now. -/
def setupRxQueueFlows (clear : ClearFile) (attempts : List Attempt) :
    Except SetupStop FlowSetup := do
  let init ← FlowSetup.start clear
  let (s, _) ← runEvents FlowSetup.step init attempts
  return s

/-- A call fails. -/
def Attempt.Fails (a : Attempt) : Prop :=
  a.fd < 0 ∨ a.setsockopt < 0 ∨ a.connect < 0 ∨ a.received ≠ 8

instance (a : Attempt) : Decidable a.Fails :=
  inferInstanceAs (Decidable (_ ∨ _))

/-- The connection is there, but the reply does not come as a whole. -/
def Attempt.RecvFails (a : Attempt) : Prop :=
  0 ≤ a.fd ∧ 0 ≤ a.setsockopt ∧ 0 ≤ a.connect ∧ a.received ≠ 8

instance (a : Attempt) : Decidable a.RecvFails :=
  inferInstanceAs (Decidable (_ ∧ _))

/-- The queue of a connection that the server accepts. -/
def Attempt.queue? (a : Attempt) : Option (Fin irqNum) :=
  if a.Fails then none
  else if 0 < a.rxQueue then queueIndex? a.rxQueue
  else none

/-- The queues of the accepted connections, in their order. -/
def acceptedQueues (attempts : List Attempt) : List (Fin irqNum) :=
  attempts.filterMap Attempt.queue?

/-- A returned value that is no failure means that every queue has its open connection, and a
failed call means that the value is negative. -/
def SetupCorrect (attempts : List Attempt) (s : FlowSetup) : Prop :=
  (∀ ret, s.control = .returned ret → 0 ≤ ret → ∀ i, s.answers (s.clientFds i) = some i) ∧
    ∀ a ∈ attempts, a.Fails → ∃ ret, s.control = .returned ret ∧ ret < 0

/-- What an iteration can do. -/
inductive SetupStep (s : FlowSetup) (a : Attempt) : FlowSetup → Prop
  | failed (count : Nat) (hcontrol : s.control = .looping count) (hrecv : ¬a.RecvFails)
      (hqueue : a.queue? = none) (ret : Int32) (hret : ret < 0) :
      SetupStep s a { s with control := .returned ret }
  | recvFailed (count : Nat) (hcontrol : s.control = .looping count) (hrecv : a.RecvFails) :
      SetupStep s a { s with control := .returned a.connect }
  | accepted (count : Nat) (hcontrol : s.control = .looping count) (hok : ¬a.Fails)
      (i : Fin irqNum) (hqueue : a.queue? = some i) (hfresh : s.answers a.fd = none) :
      SetupStep s a {
        clientFds := Function.update s.clientFds i a.fd
        answers := Function.update s.answers a.fd (some i)
        control := if count + 1 < 4 then .looping (count + 1) else .returned a.connect }
  | redundant (count : Nat) (hcontrol : s.control = .looping count) (hok : ¬a.Fails)
      (hqueue : a.queue? = none) : SetupStep s a s

theorem Attempt.queue?_of_fails {a : Attempt} (hfails : a.Fails) : a.queue? = none :=
  if_pos hfails

theorem Attempt.not_fails {a : Attempt} (hfd : ¬a.fd < 0) (hsetsockopt : ¬a.setsockopt < 0)
    (hconnect : ¬a.connect < 0) (hreceived : ¬a.received ≠ 8) : ¬a.Fails := by
  rintro (hneg | hneg | hneg | hne)
  · exact hfd hneg
  · exact hsetsockopt hneg
  · exact hconnect hneg
  · exact hreceived hne

theorem FlowSetup.iterate_eq_ok {s next : FlowSetup} {count : Nat} {a : Attempt} {output : Unit}
    (hcontrol : s.control = .looping count) (hstep : s.iterate count a = .ok (next, output)) :
    SetupStep s a next := by
  rw [iterate] at hstep
  by_cases hfd : a.fd < 0
  · rw [if_pos hfd] at hstep
    cases hstep
    exact .failed count hcontrol (fun hrecv => Int32.not_lt.mpr hrecv.1 hfd)
      (Attempt.queue?_of_fails (Or.inl hfd)) _ hfd
  rw [if_neg hfd] at hstep
  by_cases hused : s.answers a.fd ≠ none
  · rw [if_pos hused] at hstep
    cases hstep
  rw [if_neg hused] at hstep
  by_cases hsetsockopt : a.setsockopt < 0
  · rw [if_pos hsetsockopt] at hstep
    cases hstep
    exact .failed count hcontrol (fun hrecv => Int32.not_lt.mpr hrecv.2.1 hsetsockopt)
      (Attempt.queue?_of_fails (Or.inr (Or.inl hsetsockopt))) _ hsetsockopt
  rw [if_neg hsetsockopt] at hstep
  by_cases hconnect : a.connect < 0
  · rw [if_pos hconnect] at hstep
    cases hstep
    exact .failed count hcontrol (fun hrecv => Int32.not_lt.mpr hrecv.2.2.1 hconnect)
      (Attempt.queue?_of_fails (Or.inr (Or.inr (Or.inl hconnect)))) _ hconnect
  rw [if_neg hconnect] at hstep
  by_cases hreceived : a.received ≠ 8
  · rw [if_pos hreceived] at hstep
    cases hstep
    exact .recvFailed count hcontrol ⟨Int32.not_lt.mp hfd, Int32.not_lt.mp hsetsockopt,
      Int32.not_lt.mp hconnect, hreceived⟩
  rw [if_neg hreceived] at hstep
  have hok := Attempt.not_fails hfd hsetsockopt hconnect hreceived
  by_cases hpos : 0 < a.rxQueue
  · rw [if_pos hpos] at hstep
    cases hindex : queueIndex? a.rxQueue with
    | none =>
        rw [hindex] at hstep
        cases hstep
    | some i =>
        rw [hindex] at hstep
        cases hstep
        refine .accepted count hcontrol hok i ?_ (not_not.mp hused)
        rw [Attempt.queue?, if_neg hok, if_pos hpos, hindex]
  · rw [if_neg hpos] at hstep
    cases hstep
    refine .redundant count hcontrol hok ?_
    rw [Attempt.queue?, if_neg hok, if_neg hpos]

theorem FlowSetup.step_eq_ok {s next : FlowSetup} {a : Attempt} {output : Unit}
    (hstep : s.step a = .ok (next, output)) : SetupStep s a next := by
  rw [FlowSetup.step] at hstep
  cases hcontrol : s.control with
  | returned ret =>
      rw [hcontrol] at hstep
      cases hstep
  | looping count =>
      rw [hcontrol] at hstep
      exact iterate_eq_ok hcontrol hstep

/-- The open connections are those of the accepted queues, and the array holds one of them for
each of these queues. -/
structure FlowSetup.Covers (s : FlowSetup) (queues : List (Fin irqNum)) : Prop where
  covered : ∀ i ∈ queues, s.answers (s.clientFds i) = some i
  answered : ∀ fd i, s.answers fd = some i → i ∈ queues

theorem FlowSetup.Covers.accept {s : FlowSetup} {queues : List (Fin irqNum)}
    (hcovers : s.Covers queues) {fd : Int32} (hfresh : s.answers fd = none) (i : Fin irqNum)
    (control : SetupControl) :
    FlowSetup.Covers ⟨Function.update s.clientFds i fd, Function.update s.answers fd (some i),
      control⟩ (queues ++ [i]) where
  covered := by
    intro j hmem
    by_cases hj : j = i
    · rw [hj]
      simp only [Function.update_self]
    · have hcovered : s.answers (s.clientFds j) = some j := by
        rcases List.mem_append.mp hmem with hqueues | hlast
        · exact hcovers.covered j hqueues
        · exact absurd (List.mem_singleton.mp hlast) hj
      have hne : s.clientFds j ≠ fd := by
        intro heq
        rw [heq, hfresh] at hcovered
        cases hcovered
      simp only [Function.update_of_ne hj, Function.update_of_ne hne]
      exact hcovered
  answered := by
    intro fd' j hanswer
    rw [List.mem_append, List.mem_singleton]
    by_cases hfd : fd' = fd
    · simp only [hfd, Function.update_self, Option.some.injEq] at hanswer
      exact Or.inr hanswer.symm
    · simp only [Function.update_of_ne hfd] at hanswer
      exact Or.inl (hcovers.answered fd' j hanswer)

/-- How far the setup has come. -/
inductive SetupOutcome (attempts : List Attempt) : SetupControl → Prop
  | looping (count : Nat) (hlength : (acceptedQueues attempts).length = count)
      (hcount : count < irqNum) (hok : ∀ a ∈ attempts, ¬a.Fails) :
      SetupOutcome attempts (.looping count)
  | complete (ret : Int32) (hret : 0 ≤ ret) (hlength : (acceptedQueues attempts).length = irqNum)
      (hok : ∀ a ∈ attempts, ¬a.Fails) : SetupOutcome attempts (.returned ret)
  | failed (ret : Int32) (hret : ret < 0) (hlength : (acceptedQueues attempts).length < irqNum)
      (hrecv : ∀ a ∈ attempts, ¬a.RecvFails) : SetupOutcome attempts (.returned ret)
  | recvFailed (a : Attempt) (hmem : a ∈ attempts) (hrecv : a.RecvFails) :
      SetupOutcome attempts (.returned a.connect)

theorem Attempt.RecvFails.fails {a : Attempt} (hrecv : a.RecvFails) : a.Fails :=
  Or.inr (Or.inr (Or.inr hrecv.2.2.2))

theorem acceptedQueues_concat_of_none (attempts : List Attempt) {a : Attempt}
    (hqueue : a.queue? = none) : acceptedQueues (attempts ++ [a]) = acceptedQueues attempts := by
  simp [acceptedQueues, hqueue]

theorem acceptedQueues_concat_of_some (attempts : List Attempt) {a : Attempt} {i : Fin irqNum}
    (hqueue : a.queue? = some i) :
    acceptedQueues (attempts ++ [a]) = acceptedQueues attempts ++ [i] := by
  simp [acceptedQueues, hqueue]

/-- The invariant of the loop. -/
structure FlowSetup.After (attempts : List Attempt) (s : FlowSetup) : Prop where
  covers : s.Covers (acceptedQueues attempts)
  outcome : SetupOutcome attempts s.control

theorem FlowSetup.After.looping {attempts : List Attempt} {s : FlowSetup} {count : Nat}
    (hafter : FlowSetup.After attempts s) (hcontrol : s.control = .looping count) :
    (acceptedQueues attempts).length = count ∧ count < irqNum ∧ ∀ a ∈ attempts, ¬a.Fails := by
  have houtcome := hafter.outcome
  rw [hcontrol] at houtcome
  cases houtcome with
  | looping _ hlength hcount hok => exact ⟨hlength, hcount, hok⟩

theorem FlowSetup.After.step {attempts : List Attempt} {s next : FlowSetup} {a : Attempt}
    (hafter : FlowSetup.After attempts s) (hstep : SetupStep s a next) :
    FlowSetup.After (attempts ++ [a]) next := by
  cases hstep with
  | failed count hcontrol hrecv hqueue ret hret =>
      obtain ⟨hlength, hcount, hok⟩ := hafter.looping hcontrol
      have hqueues := acceptedQueues_concat_of_none attempts hqueue
      refine ⟨?_, .failed ret hret ?_ ?_⟩
      · rw [hqueues]
        exact ⟨hafter.covers.covered, hafter.covers.answered⟩
      · rw [hqueues, hlength]
        exact hcount
      · rw [List.forall_mem_append, List.forall_mem_singleton]
        exact ⟨fun a' hmem hrecv' => hok a' hmem hrecv'.fails, hrecv⟩
  | recvFailed count hcontrol hrecv =>
      have hqueues := acceptedQueues_concat_of_none attempts
        (Attempt.queue?_of_fails hrecv.fails)
      refine ⟨?_, .recvFailed a (List.mem_append_right _ List.mem_cons_self) hrecv⟩
      rw [hqueues]
      exact ⟨hafter.covers.covered, hafter.covers.answered⟩
  | accepted count hcontrol hok i hqueue hfresh =>
      obtain ⟨hlength, hcount, hbefore⟩ := hafter.looping hcontrol
      have hqueues := acceptedQueues_concat_of_some attempts hqueue
      have hlast : (acceptedQueues (attempts ++ [a])).length = count + 1 := by
        rw [hqueues, List.length_append, hlength, List.length_singleton]
      have hall : ∀ a' ∈ attempts ++ [a], ¬a'.Fails := by
        rw [List.forall_mem_append, List.forall_mem_singleton]
        exact ⟨hbefore, hok⟩
      constructor
      · rw [hqueues]
        exact hafter.covers.accept hfresh i _
      · simp only
        split
        · rename_i hmore
          exact .looping (count + 1) hlast hmore hall
        · rename_i hdone
          have hfull := hlast.trans (Nat.le_antisymm hcount (Nat.not_lt.mp hdone))
          refine .complete a.connect ?_ hfull hall
          exact Int32.not_lt.mp fun hneg => hok (Or.inr (Or.inr (Or.inl hneg)))
  | redundant count hcontrol hok hqueue =>
      obtain ⟨hlength, hcount, hbefore⟩ := hafter.looping hcontrol
      have hqueues := acceptedQueues_concat_of_none attempts hqueue
      have hall : ∀ a' ∈ attempts ++ [a], ¬a'.Fails := by
        rw [List.forall_mem_append, List.forall_mem_singleton]
        exact ⟨hbefore, hok⟩
      refine ⟨hqueues ▸ hafter.covers, ?_⟩
      rw [hcontrol]
      exact .looping count (hqueues ▸ hlength) hcount hall

theorem FlowSetup.start_after {clear : ClearFile} {init : FlowSetup}
    (hstart : FlowSetup.start clear = .ok init) : FlowSetup.After [] init := by
  have hnothing : ∀ control, FlowSetup.Covers ⟨fun _ => 0, fun _ => none, control⟩ [] :=
    fun _ => ⟨by simp, by simp⟩
  cases clear with
  | opened =>
      cases hstart
      exact ⟨hnothing _, .looping 0 rfl (by decide) (by simp)⟩
  | unopened survives =>
      cases survives with
      | false => cases hstart
      | true =>
          cases hstart
          exact ⟨hnothing _, .failed (-1) (by decide) (by decide) (by simp)⟩

theorem nodup_iff_forall_mem {n : Nat} {queues : List (Fin n)} (hlength : queues.length = n) :
    queues.Nodup ↔ ∀ i, i ∈ queues := by
  have hcard : queues.toFinset.card = queues.length ↔ queues.Nodup :=
    Multiset.toFinset_card_eq_card_iff_nodup (m := (queues : Multiset (Fin n)))
  have hall : queues.toFinset = Finset.univ ↔ ∀ i, i ∈ queues := by
    simp [Finset.eq_univ_iff_forall]
  rw [← hcard, ← hall, ← Finset.card_eq_iff_eq_univ, hlength, Fintype.card_fin]

theorem FlowSetup.after_of_run {clear : ClearFile} {attempts : List Attempt} {s : FlowSetup}
    (hrun : setupRxQueueFlows clear attempts = .ok s) : FlowSetup.After attempts s := by
  rw [setupRxQueueFlows] at hrun
  cases hstart : FlowSetup.start clear with
  | error stop =>
      rw [hstart] at hrun
      cases hrun
  | ok init =>
      cases hloop : runEvents FlowSetup.step init attempts with
      | error stop =>
          simp only [hstart, hloop, bind, Except.bind] at hrun
          cases hrun
      | ok result =>
          simp only [hstart, hloop, bind, Except.bind] at hrun
          cases hrun
          exact runEvents_invariant (fun attempts s _ => FlowSetup.After attempts s)
            (FlowSetup.start_after hstart)
            (fun _ _ _ _ _ _ _ hinv hstep => hinv.step (FlowSetup.step_eq_ok hstep)) hloop

theorem FlowSetup.After.setupCorrect {attempts : List Attempt} {s : FlowSetup}
    (hafter : FlowSetup.After attempts s) (hrecv : ∀ a ∈ attempts, ¬a.RecvFails)
    (hnodup : (acceptedQueues attempts).length = irqNum → (acceptedQueues attempts).Nodup) :
    SetupCorrect attempts s := by
  have houtcome := hafter.outcome
  rw [SetupCorrect]
  generalize s.control = control at houtcome
  cases houtcome with
  | looping count hlength hcount hok =>
      exact ⟨nofun, fun a hmem hfails => absurd hfails (hok a hmem)⟩
  | complete ret hret hlength hok =>
      refine ⟨fun _ _ _ i => ?_, fun a hmem hfails => absurd hfails (hok a hmem)⟩
      exact hafter.covers.covered i ((nodup_iff_forall_mem hlength).mp (hnodup hlength) i)
  | failed ret hret hlength _ =>
      refine ⟨?_, fun _ _ _ => ⟨ret, rfl, hret⟩⟩
      rintro ret' hret' hnonneg
      cases hret'
      exact absurd hret (Int32.not_lt.mpr hnonneg)
  | recvFailed a hmem hfails => exact absurd hfails (hrecv a hmem)

theorem FlowSetup.After.nodup_of_setupCorrect {attempts : List Attempt} {s : FlowSetup}
    (hafter : FlowSetup.After attempts s) (hcorrect : SetupCorrect attempts s) :
    (∀ a ∈ attempts, ¬a.RecvFails) ∧
      ((acceptedQueues attempts).length = irqNum → (acceptedQueues attempts).Nodup) := by
  have houtcome := hafter.outcome
  obtain ⟨hcovered, hnegative⟩ := hcorrect
  generalize s.control = control at houtcome hcovered hnegative
  cases houtcome with
  | looping count hlength hcount hok =>
      exact ⟨fun a hmem hrecv => hok a hmem hrecv.fails, fun hfull => by omega⟩
  | complete ret hret hlength hok =>
      refine ⟨fun a hmem hrecv => hok a hmem hrecv.fails, fun _ => ?_⟩
      rw [nodup_iff_forall_mem hlength]
      exact fun i => hafter.covers.answered _ i (hcovered ret rfl hret i)
  | failed ret hret hlength hrecv => exact ⟨hrecv, fun hfull => by omega⟩
  | recvFailed a hmem hrecv =>
      obtain ⟨ret, hret, hneg⟩ := hnegative a hmem hrecv.fails
      cases hret
      exact absurd hneg (Int32.not_lt.mpr hrecv.2.2.1)

theorem setupCorrect_iff {clear : ClearFile} {attempts : List Attempt} {s : FlowSetup}
    (hrun : setupRxQueueFlows clear attempts = .ok s) :
    SetupCorrect attempts s ↔
      (∀ a ∈ attempts, ¬a.RecvFails) ∧
        ((acceptedQueues attempts).length = irqNum → (acceptedQueues attempts).Nodup) := by
  have hafter := FlowSetup.after_of_run hrun
  constructor
  · intro hcorrect
    exact hafter.nodup_of_setupCorrect hcorrect
  · rintro ⟨hrecv, hnodup⟩
    exact hafter.setupCorrect hrecv hnodup

/-- An accepted connection for each queue, with a redundant one in between. -/
theorem setupCorrect_in_turn :
    ∃ s, setupRxQueueFlows .opened
        [⟨5, 0, 0, 8, 34⟩, ⟨6, 0, 0, 8, -1⟩, ⟨6, 0, 0, 8, 33⟩, ⟨7, 0, 0, 8, 36⟩,
          ⟨8, 0, 0, 8, 35⟩] = .ok s ∧
      s.control = .returned 0 ∧
      SetupCorrect [⟨5, 0, 0, 8, 34⟩, ⟨6, 0, 0, 8, -1⟩, ⟨6, 0, 0, 8, 33⟩, ⟨7, 0, 0, 8, 36⟩,
        ⟨8, 0, 0, 8, 35⟩] s := by
  have hcontrol : (setupRxQueueFlows .opened
      [⟨5, 0, 0, 8, 34⟩, ⟨6, 0, 0, 8, -1⟩, ⟨6, 0, 0, 8, 33⟩, ⟨7, 0, 0, 8, 36⟩,
        ⟨8, 0, 0, 8, 35⟩]).map FlowSetup.control = .ok (.returned 0) := by decide
  obtain ⟨s, hrun, hreturned⟩ := exists_ok_of_map_eq hcontrol
  exact ⟨s, hrun, hreturned, (setupCorrect_iff hrun).mpr (by decide)⟩

/-- The table of ports is cleared behind the first connection, so that its queue is answered
once more and the fourth queue never; and a server that closes instead of replying. -/
theorem setup_misses_queue_and_failure :
    (∃ s, setupRxQueueFlows .opened
        [⟨5, 0, 0, 8, 33⟩, ⟨6, 0, 0, 8, 33⟩, ⟨7, 0, 0, 8, 34⟩, ⟨8, 0, 0, 8, 35⟩] = .ok s ∧
      s.control = .returned 0 ∧ s.clientFds 3 = 0 ∧ s.answers 0 = none ∧
      ¬SetupCorrect [⟨5, 0, 0, 8, 33⟩, ⟨6, 0, 0, 8, 33⟩, ⟨7, 0, 0, 8, 34⟩, ⟨8, 0, 0, 8, 35⟩] s) ∧
    ∃ s, setupRxQueueFlows .opened [⟨5, 0, 0, 0, -1⟩] = .ok s ∧
      s.control = .returned 0 ∧ ¬SetupCorrect [⟨5, 0, 0, 0, -1⟩] s := by
  constructor
  · have hresult : (setupRxQueueFlows .opened
        [⟨5, 0, 0, 8, 33⟩, ⟨6, 0, 0, 8, 33⟩, ⟨7, 0, 0, 8, 34⟩, ⟨8, 0, 0, 8, 35⟩]).map
          (fun s => (s.control, s.clientFds 3, s.answers 0)) = .ok (.returned 0, 0, none) := by
      decide
    obtain ⟨s, hrun, hparts⟩ := exists_ok_of_map_eq hresult
    simp only [Prod.mk.injEq] at hparts
    obtain ⟨hcontrol, hfd, hanswer⟩ := hparts
    refine ⟨s, hrun, hcontrol, hfd, hanswer, ?_⟩
    rintro ⟨hcovered, _⟩
    have hlast := hcovered 0 hcontrol (by decide) 3
    rw [hfd, hanswer] at hlast
    cases hlast
  · have hresult : (setupRxQueueFlows .opened [⟨5, 0, 0, 0, -1⟩]).map FlowSetup.control =
        .ok (.returned 0) := by decide
    obtain ⟨s, hrun, hcontrol⟩ := exists_ok_of_map_eq hresult
    refine ⟨s, hrun, hcontrol, ?_⟩
    rintro ⟨_, hnegative⟩
    obtain ⟨ret, hret, hneg⟩ := hnegative ⟨5, 0, 0, 0, -1⟩ List.mem_cons_self (by decide)
    rw [hcontrol] at hret
    cases hret
    exact absurd hneg (by decide)

/-- An attempt beside its port and the ports that are recorded when the server answers it. -/
structure ServedAttempt extends Attempt where
  port : UInt16
  sports : Fin irqNum → UInt32

/-- The reply is that of the accept path of the server. -/
def ServedAttempt.Answered (a : ServedAttempt) : Prop :=
  ∃ server fd next,
    BarrierServer.acceptClient server a.port fd (fun k => .ofSport (a.sports k)) =
      .ok (next, a.rxQueue)

theorem queueIndex?_reply (k : Fin irqNum) :
    queueIndex? (baseIrq + Int64.ofNat k) = some k := by
  revert k
  decide

theorem Attempt.queue?_eq_some {a : Attempt} {k : Fin irqNum} (hqueue : a.queue? = some k) :
    ¬a.Fails ∧ 0 < a.rxQueue ∧ queueIndex? a.rxQueue = some k := by
  rw [queue?] at hqueue
  split at hqueue
  · cases hqueue
  · rename_i hok
    split at hqueue
    · rename_i hpos
      exact ⟨hok, hpos, hqueue⟩
    · cases hqueue

/-- The server answers a queue only for the port that is recorded for it. -/
theorem ServedAttempt.sports_of_queue {a : ServedAttempt} {k : Fin irqNum}
    (hanswered : ¬a.Fails → a.Answered) (hports : ∀ k, (a.sports k).toNat < 2 ^ 16)
    (hqueue : a.queue? = some k) : a.sports k = a.port.toUInt32 := by
  obtain ⟨hok, hpos, hindex⟩ := Attempt.queue?_eq_some hqueue
  obtain ⟨server, fd, next, haccept⟩ := hanswered hok
  rcases BarrierServer.acceptClient_reply haccept with hredundant | ⟨k', hmatch, hreply⟩
  · rw [hredundant] at hpos
    exact absurd hpos (by decide)
  · rw [hreply, queueIndex?_reply] at hindex
    cases hindex
    exact sport_eq_of_read hmatch.2 (hports k)

/-- As long as a recorded port stays and the accepted connections have different ports, no queue
is answered twice, so that the setup is correct once every reply arrives. -/
theorem setupCorrect_of_recorded_ports {clear : ClearFile} {served : List ServedAttempt}
    {s : FlowSetup}
    (hrun : setupRxQueueFlows clear (served.map ServedAttempt.toAttempt) = .ok s)
    (hrecv : ∀ a ∈ served, ¬a.RecvFails) (hanswered : ∀ a ∈ served, ¬a.Fails → a.Answered)
    (hports : ∀ a ∈ served, a.port ≠ 0 ∧ ∀ k, (a.sports k).toNat < 2 ^ 16)
    (hstays : served.Pairwise fun a b => ∀ k, a.sports k ≠ 0 → b.sports k = a.sports k)
    (hdistinct : served.Pairwise fun a b =>
      a.queue?.isSome → b.queue?.isSome → a.port ≠ b.port) :
    SetupCorrect (served.map ServedAttempt.toAttempt) s := by
  have hnodup : (acceptedQueues (served.map ServedAttempt.toAttempt)).Nodup := by
    rw [acceptedQueues, List.filterMap_map, List.Nodup, List.pairwise_filterMap]
    refine (hstays.and hdistinct).imp_of_mem ?_
    rintro a b ha hb ⟨hstay, hne⟩ k hk k' hk' rfl
    have hsport := ServedAttempt.sports_of_queue (hanswered a ha) (hports a ha).2 hk
    have hsport' := ServedAttempt.sports_of_queue (hanswered b hb) (hports b hb).2 hk'
    have hrecorded : a.sports k ≠ 0 := by
      rw [hsport]
      exact fun hzero => (hports a ha).1 (UInt16.toUInt32_inj.mp hzero)
    have hsame := hstay k hrecorded
    rw [hsport, hsport'] at hsame
    exact hne (Option.isSome_of_mem hk) (Option.isSome_of_mem hk')
      (UInt16.toUInt32_inj.mp hsame).symm
  refine (FlowSetup.after_of_run hrun).setupCorrect ?_ fun _ => hnodup
  intro a hmem
  obtain ⟨a', hmem', rfl⟩ := List.mem_map.mp hmem
  exact hrecv a' hmem'

end SafeTimer
