/-
The deadline of `safetimer_send_heartbeat`.  The callers compute it from
CLOCK_MONOTONIC (`offerService` in hdfs/BPServiceActor.java, `st_send_hb` in
ceph/OSD.cc), and `sem_timedwait` compares it with CLOCK_REALTIME.  A timed run is a run
of the sending host with the two clocks beside it.
-/
import SafeTimer.EpochTime
import SafeTimer.SendCompletion
import Mathlib.Logic.Function.Basic

namespace SafeTimer

/-- The two clocks at one instant, in nanoseconds. -/
structure Clocks where
  realtime : Nat
  monotonic : Nat
deriving DecidableEq

/-- CLOCK_REALTIME in milliseconds. -/
def Clocks.realtimeMs (now : Clocks) : Int :=
  now.realtime / 1000000

/-- CLOCK_MONOTONIC in milliseconds. -/
def Clocks.monotonicMs (now : Clocks) : Int :=
  now.monotonic / 1000000

inductive WaitResult where
  | einval
  | etimedout
  | blocks
deriving DecidableEq

/-- `sem_timedwait` on a semaphore that is 0. -/
def semTimedwait (absTimeout : Timespec) (now : Clocks) : WaitResult :=
  if absTimeout.tvNsec < 0 ∨ 1000000000 ≤ absTimeout.tvNsec then .einval
  else if absTimeout.nanoseconds ≤ now.realtime then .etimedout
  else .blocks

/-- The sending host with its clocks and the `timeout_time` of every call.  `timeouts`
are the calls that have timed out, and when; `inTime` are the calls whose signal was
delivered before their deadline on CLOCK_MONOTONIC.  Both are for the statement only. -/
structure TimedSend where
  send : SendState
  now : Clocks
  timeoutTime : Nat → Int64
  timeouts : List (Nat × Clocks)
  inTime : List Nat

def TimedSend.initial (now : Clocks) : TimedSend :=
  ⟨.initial, now, fun _ => 0, [], []⟩

inductive TimedEvent where
  | advance (now : Clocks)
  | call (timeoutTime : Int64) (nodeId : Int) (sendOk : Bool)
  /-- an event of the host other than a call -/
  | send (event : SendEvent)
deriving DecidableEq

/-- The deadline of the call has not been reached on CLOCK_MONOTONIC. -/
def TimedSend.Before (s : TimedSend) (call : Nat) : Prop :=
  s.now.monotonicMs < (s.timeoutTime call).toInt

instance (s : TimedSend) (call : Nat) : Decidable (s.Before call) :=
  inferInstanceAs (Decidable (_ < _))

/-- The loop around `sem_timedwait` is left without a signal.  It is entered again after
an interruption. -/
def TimedSend.expire (s : TimedSend) (call : Nat) (send : SendState) :
    Except Unit (TimedSend × Unit) :=
  match semTimedwait (timeToTimespec (s.timeoutTime call)) s.now with
  | .einval => .ok ({ s with send := send }, ())
  | .etimedout => .ok ({ s with send := send, timeouts := s.timeouts ++ [(call, s.now)] }, ())
  | .blocks => .error ()

/-- The host has come to `send` with an event other than a call. -/
def TimedSend.follow (s : TimedSend) (send : SendState) :
    SendEvent → Except Unit (TimedSend × Unit)
  | .call _ _ => .error ()
  | .expire =>
      match s.send.waiting with
      | some call => s.expire call send
      | none => .error ()
  | .deliver i =>
      let delivered := (s.send.signals[i]?).toList
      .ok ({ s with send := send, inTime := s.inTime ++ delivered.filter s.Before }, ())
  | .route _ | .consume _ | .wake | .setValidTime _ | .tick _ => .ok ({ s with send := send }, ())

/-- One event; those that cannot happen in the state are refused. -/
def timedStep (s : TimedSend) : TimedEvent → Except Unit (TimedSend × Unit)
  | .advance now =>
      if s.now.realtime ≤ now.realtime ∧ s.now.monotonic ≤ now.monotonic then
        .ok ({ s with now := now }, ())
      else .error ()
  | .call timeoutTime nodeId sendOk =>
      match sendStep s.send (.call nodeId sendOk) with
      | .error refusal => .error refusal
      | .ok (send, _) =>
          .ok ({ s with
            send := send
            timeoutTime := Function.update s.timeoutTime s.send.calls timeoutTime }, ())
  | .send event =>
      match sendStep s.send event with
      | .error refusal => .error refusal
      | .ok (send, _) => s.follow send event

/-- A step of the host that has nothing to do with the waiting call. -/
structure SendState.Quiet (s s' : SendState) : Prop where
  waiting_eq : s'.waiting = s.waiting
  sentWait_eq : s'.sentWait = s.sentWait
  calls_eq : s'.calls = s.calls
  returned_iff : ∀ call result, .returned call result ∈ s'.log ↔ .returned call result ∈ s.log
  outstanding_subset : s'.outstanding ⊆ s.outstanding

/-- What a step can do. -/
inductive TimedStep (s : TimedSend) : TimedSend → Prop where
  | advance {now : Clocks} (hrealtime : s.now.realtime ≤ now.realtime)
      (hmonotonic : s.now.monotonic ≤ now.monotonic) : TimedStep s { s with now := now }
  | call (timeoutTime : Int64) (nodeId : Int) (sendOk : Bool) (hidle : s.send.waiting = none) :
      TimedStep s { s with
        send := s.send.call nodeId sendOk
        timeoutTime := Function.update s.timeoutTime s.send.calls timeoutTime }
  | invalid {call : Nat} (hwaiting : s.send.waiting = some call) (hposted : s.send.sentWait = 0)
      (hwait : semTimedwait (timeToTimespec (s.timeoutTime call)) s.now = .einval) :
      TimedStep s { s with send := s.send.return call (-1) }
  | timedOut {call : Nat} (hwaiting : s.send.waiting = some call)
      (hposted : s.send.sentWait = 0)
      (hwait : semTimedwait (timeToTimespec (s.timeoutTime call)) s.now = .etimedout) :
      TimedStep s { s with
        send := s.send.return call (-1)
        timeouts := s.timeouts ++ [(call, s.now)] }
  | deliver {i call : Nat} (hcall : s.send.signals[i]? = some call) :
      TimedStep s { s with
        send := s.send.deliver i call
        inTime := s.inTime ++ [call].filter s.Before }
  | wake {call : Nat} (hwaiting : s.send.waiting = some call) (hposted : s.send.sentWait ≠ 0) :
      TimedStep s { s with
        send := { s.send with sentWait := s.send.sentWait - 1 }.return call 0 }
  | background {send : SendState} (hquiet : s.send.Quiet send) : TimedStep s { s with send := send }

/-- The events that the waiting call does not notice. -/
def SendEvent.Background : SendEvent → Prop
  | .call _ _ | .deliver _ | .wake | .expire => False
  | .route _ | .consume _ | .setValidTime _ | .tick _ => True

theorem SendStep.quiet {s s' : SendState} {event : SendEvent} (hstep : SendStep s event s')
    (hevent : event.Background) : s.Quiet s' := by
  cases hstep with
  | call nodeId sendOk hidle => cases hevent
  | accepted hd hverdict =>
      refine ⟨rfl, rfl, rfl, by simp, ?_⟩
      intro call hmem
      have hrouting := (perm_of_getElem?_eq_some hd).map Datagram.call
      simp only [SendState.outstanding, List.mem_append, hrouting.mem_iff, List.map_append,
        List.map_cons, List.map_nil, List.mem_cons, List.not_mem_nil, or_false] at hmem ⊢
      grind
  | dropped hd hverdict =>
      refine ⟨rfl, rfl, rfl, by simp, ?_⟩
      intro call hmem
      have hrouting := (perm_of_getElem?_eq_some hd).map Datagram.call
      simp only [SendState.outstanding, List.mem_append, hrouting.mem_iff, List.map_cons,
        List.mem_cons] at hmem ⊢
      grind
  | consume hd =>
      refine ⟨rfl, rfl, rfl, by simp [SendState.consume], ?_⟩
      intro call hmem
      have hdriver := (perm_of_getElem?_eq_some hd).map Datagram.call
      simp only [SendState.outstanding, SendState.consume, List.mem_append, hdriver.mem_iff,
        List.map_cons, List.mem_cons] at hmem ⊢
      grind
  | deliver hcall => cases hevent
  | wake hwaiting hposted => cases hevent
  | expire hwaiting hposted => cases hevent
  | setValidTime value => exact ⟨rfl, rfl, rfl, fun _ _ => Iff.rfl, fun _ hmem => hmem⟩
  | tick hle => exact ⟨rfl, rfl, rfl, fun _ _ => Iff.rfl, fun _ hmem => hmem⟩

theorem TimedSend.expire_eq_ok {s s' : TimedSend} {call : Nat}
    (hwaiting : s.send.waiting = some call) (hposted : s.send.sentWait = 0)
    (hexpire : s.expire call (s.send.return call (-1)) = .ok (s', ())) : TimedStep s s' := by
  rw [TimedSend.expire] at hexpire
  split at hexpire
  · rename_i hwait
    cases hexpire
    exact .invalid hwaiting hposted hwait
  · rename_i hwait
    cases hexpire
    exact .timedOut hwaiting hposted hwait
  · cases hexpire

theorem timedStep_eq_ok {s s' : TimedSend} {event : TimedEvent}
    (hstep : timedStep s event = .ok (s', ())) : TimedStep s s' := by
  cases event with
  | advance now =>
      simp only [timedStep] at hstep
      split at hstep
      · rename_i hforward
        cases hstep
        exact .advance hforward.1 hforward.2
      · cases hstep
  | call timeoutTime nodeId sendOk =>
      simp only [timedStep] at hstep
      split at hstep
      · cases hstep
      · rename_i send _ hsend
        cases hstep
        cases sendStep_eq_ok hsend with
        | call _ _ hidle => exact .call timeoutTime nodeId sendOk hidle
  | send event =>
      simp only [timedStep] at hstep
      split at hstep
      · cases hstep
      · rename_i send _ hsend
        have hcases := sendStep_eq_ok hsend
        cases event with
        | call nodeId sendOk => cases hstep
        | route i =>
            cases hstep
            exact .background (hcases.quiet trivial)
        | consume i =>
            cases hstep
            exact .background (hcases.quiet trivial)
        | setValidTime value =>
            cases hstep
            exact .background (hcases.quiet trivial)
        | tick bootTime =>
            cases hstep
            exact .background (hcases.quiet trivial)
        | deliver i =>
            cases hcases with
            | deliver hcall =>
                cases hstep
                rw [hcall]
                exact .deliver hcall
        | wake =>
            cases hcases with
            | wake hwaiting hposted =>
                cases hstep
                exact .wake hwaiting hposted
        | expire =>
            cases hcases with
            | expire hwaiting hposted =>
                simp only [TimedSend.follow, hwaiting] at hstep
                exact TimedSend.expire_eq_ok hwaiting hposted hstep

/-- A call times out only after its deadline on CLOCK_MONOTONIC, and a call whose signal
came before the deadline returns 0: it has done so, or it finds the semaphore posted. -/
structure TimedSend.DeadlineKept (s : TimedSend) : Prop where
  timeouts : ∀ entry ∈ s.timeouts, (s.timeoutTime entry.1).toInt ≤ entry.2.monotonicMs
  inTime : ∀ call ∈ s.inTime, .returned call (-1) ∉ s.send.log ∧
    (.returned call 0 ∈ s.send.log ∨ s.send.waiting = some call ∧ s.send.sentWait ≠ 0)

/-- In every state of the run the deadlines have been kept. -/
def DeadlinesKept (now : Clocks) (events : List TimedEvent) : Prop :=
  ∀ s outputs, runEvents timedStep (.initial now) events = .ok (s, outputs) → s.DeadlineKept

/-- While a call waits with no signal posted, CLOCK_REALTIME does not reach its deadline
before CLOCK_MONOTONIC does. -/
def TimedSend.ClocksAgree (s : TimedSend) : Prop :=
  ∀ call ∈ s.send.waiting, s.send.sentWait = 0 →
    (s.timeoutTime call).toInt ≤ s.now.realtimeMs →
    (s.timeoutTime call).toInt ≤ s.now.monotonicMs

instance (s : TimedSend) : Decidable s.ClocksAgree :=
  inferInstanceAs (Decidable (∀ call ∈ _, _))

theorem le_realtimeMs_of_etimedout {time : Int64} {now : Clocks}
    (hwait : semTimedwait (timeToTimespec time) now = .etimedout) :
    time.toInt ≤ now.realtimeMs := by
  rw [semTimedwait] at hwait
  split at hwait
  · cases hwait
  · split at hwait
    · rename_i hreached
      rw [nanoseconds_timeToTimespec] at hreached
      rw [Clocks.realtimeMs]
      omega
    · cases hwait

theorem neg_of_einval {time : Int64} {now : Clocks}
    (hwait : semTimedwait (timeToTimespec time) now = .einval) : time.toInt < 0 := by
  rw [semTimedwait] at hwait
  split at hwait
  · rename_i hinvalid
    simp only [timeToTimespec] at hinvalid
    by_contra hnonneg
    have hlow := Int.tmod_nonneg 1000 (Int.not_lt.mp hnonneg)
    have hhigh := Int.tmod_lt_of_pos time.toInt (by decide : (0 : Int) < 1000)
    omega
  · split at hwait <;> cases hwait

/-- The bookkeeping of the calls behind the property. -/
structure TimedSend.Tracked (s : TimedSend) : Prop extends s.DeadlineKept where
  known : ∀ call ∈ s.send.outstanding, call < s.send.calls
  running : ∀ call, s.send.waiting = some call →
    call < s.send.calls ∧ ∀ result, .returned call result ∉ s.send.log
  ended : ∀ call, call < s.send.calls → s.send.waiting = some call ∨
    .returned call 0 ∈ s.send.log ∨ .returned call (-1) ∈ s.send.log
  returned_lt : ∀ call result, .returned call result ∈ s.send.log → call < s.send.calls
  failed : ∀ call, .returned call (-1) ∈ s.send.log → ¬ s.Before call
  timeouts_lt : ∀ entry ∈ s.timeouts, entry.1 < s.send.calls
  inTime_lt : ∀ call ∈ s.inTime, call < s.send.calls

theorem tracked_initial (now : Clocks) : (TimedSend.initial now).Tracked := by
  constructor
  case toDeadlineKept => constructor <;> intro _ hmem <;> cases hmem
  case known =>
    intro call hmem
    cases hmem
  case running =>
    intro call hwaiting
    cases hwaiting
  case ended =>
    intro call hlt
    cases hlt
  case returned_lt =>
    intro call result hmem
    cases hmem
  case failed =>
    intro call hmem
    cases hmem
  case timeouts_lt =>
    intro entry hmem
    cases hmem
  case inTime_lt =>
    intro call hmem
    cases hmem

section Track

variable {s : TimedSend}

theorem TimedSend.Tracked.advance (htracked : s.Tracked) {now : Clocks}
    (hmonotonic : s.now.monotonic ≤ now.monotonic) : { s with now := now }.Tracked := by
  refine ⟨⟨htracked.timeouts, htracked.inTime⟩, htracked.known, htracked.running,
    htracked.ended, htracked.returned_lt, ?_, htracked.timeouts_lt, htracked.inTime_lt⟩
  intro call hfailed hbefore
  apply htracked.failed call hfailed
  simp only [TimedSend.Before, Clocks.monotonicMs] at hbefore ⊢
  omega

theorem TimedSend.Tracked.background (htracked : s.Tracked) {send : SendState}
    (hquiet : s.send.Quiet send) : { s with send := send }.Tracked := by
  obtain ⟨hwaiting, hsentWait, hcalls, hreturned, houtstanding⟩ := hquiet
  constructor
  case toDeadlineKept =>
    refine ⟨htracked.timeouts, ?_⟩
    intro call hmem
    simp only [hreturned, hwaiting, hsentWait]
    exact htracked.inTime call hmem
  case known =>
    intro call hmem
    simp only [hcalls]
    exact htracked.known call (houtstanding hmem)
  case running =>
    simp only [hreturned, hwaiting, hcalls]
    exact htracked.running
  case ended =>
    simp only [hreturned, hwaiting, hcalls]
    exact htracked.ended
  case returned_lt =>
    simp only [hreturned, hcalls]
    exact htracked.returned_lt
  case failed =>
    simp only [hreturned]
    exact htracked.failed
  case timeouts_lt =>
    simp only [hcalls]
    exact htracked.timeouts_lt
  case inTime_lt =>
    simp only [hcalls]
    exact htracked.inTime_lt

/-- The end of the waiting call.  It fails only after its deadline and with no signal
posted. -/
theorem TimedSend.Tracked.returns (htracked : s.Tracked) {call : Nat}
    (hwaiting : s.send.waiting = some call) {result : Int} (sentWait : Nat)
    (hresult : result = 0 ∨ result = -1 ∧ ¬ s.Before call ∧ s.send.sentWait = 0) :
    { s with send := { s.send with sentWait := sentWait }.return call result }.Tracked := by
  obtain ⟨hlt, hunreturned⟩ := htracked.running call hwaiting
  have hmem : ∀ call' result', SendLog.returned call' result' ∈
      s.send.log ++ [.returned call result] ↔
      .returned call' result' ∈ s.send.log ∨ call' = call ∧ result' = result := by
    simp
  constructor
  case toDeadlineKept =>
    refine ⟨htracked.timeouts, ?_⟩
    intro call' hinTime
    obtain ⟨hnotFailed, hzero⟩ := htracked.inTime call' hinTime
    simp only [SendState.return, hmem]
    by_cases hself : call' = call
    · subst hself
      rcases hzero with hreturned | ⟨_, hposted⟩
      · exact absurd hreturned (hunreturned 0)
      · rcases hresult with rfl | ⟨_, _, hnone⟩
        · simp [hnotFailed]
        · exact absurd hnone hposted
    · rcases hzero with hreturned | ⟨hother, _⟩
      · simp [hnotFailed, hself, hreturned]
      · rw [hwaiting, Option.some.injEq] at hother
        exact absurd hother.symm hself
  case known => exact htracked.known
  case running =>
    intro call' hwaiting'
    cases hwaiting'
  case ended =>
    intro call' hlt'
    simp only [SendState.return, hmem]
    rcases htracked.ended call' hlt' with hself | hreturned | hreturned
    · rw [hwaiting, Option.some.injEq] at hself
      rcases hresult with rfl | ⟨rfl, _⟩ <;> simp [hself]
    · simp [hreturned]
    · simp [hreturned]
  case returned_lt =>
    intro call' result' hreturned
    rcases (hmem call' result').mp hreturned with hold | ⟨rfl, _⟩
    · exact htracked.returned_lt call' result' hold
    · exact hlt
  case failed =>
    intro call' hfailed
    rcases (hmem call' (-1)).mp hfailed with hold | ⟨rfl, hsame⟩
    · exact htracked.failed call' hold
    · rcases hresult with rfl | ⟨_, hlate, _⟩
      · cases hsame
      · exact hlate
  case timeouts_lt => exact htracked.timeouts_lt
  case inTime_lt => exact htracked.inTime_lt

/-- A signal that comes before the deadline finds its call waiting, or the call has
returned 0 on an older signal. -/
theorem TimedSend.Tracked.deliver (htracked : s.Tracked) {i call : Nat}
    (hcall : s.send.signals[i]? = some call) :
    { s with
      send := s.send.deliver i call
      inTime := s.inTime ++ [call].filter s.Before }.Tracked := by
  have hmem : ∀ call' result, SendLog.returned call' result ∈
      s.send.log ++ [.delivered call] ↔ .returned call' result ∈ s.send.log := by
    simp
  have hperm := perm_of_getElem?_eq_some hcall
  have hlt : call < s.send.calls := by
    apply htracked.known
    simp only [SendState.outstanding, List.mem_append]
    exact Or.inr (List.mem_of_getElem? hcall)
  constructor
  case toDeadlineKept =>
    refine ⟨htracked.timeouts, ?_⟩
    intro call' hinTime
    simp only [SendState.deliver, hmem]
    rcases List.mem_append.mp hinTime with hold | hnew
    · obtain ⟨hnotFailed, hzero⟩ := htracked.inTime call' hold
      exact ⟨hnotFailed, hzero.imp_right fun hposted => ⟨hposted.1, Nat.succ_ne_zero _⟩⟩
    · simp only [List.mem_filter, List.mem_singleton, decide_eq_true_eq] at hnew
      obtain ⟨rfl, hbefore⟩ := hnew
      have hnotFailed : .returned call' (-1) ∉ s.send.log :=
        fun hfailed => htracked.failed call' hfailed hbefore
      refine ⟨hnotFailed, ?_⟩
      rcases htracked.ended call' hlt with hwaiting | hreturned | hfailed
      · exact Or.inr ⟨hwaiting, Nat.succ_ne_zero _⟩
      · exact Or.inl hreturned
      · exact absurd hfailed hnotFailed
  case known =>
    intro call' hmem'
    apply htracked.known
    simp only [SendState.outstanding, SendState.deliver, List.mem_append] at hmem' ⊢
    rw [hperm.mem_iff, List.mem_cons]
    grind
  case running =>
    simp only [SendState.deliver, hmem]
    exact htracked.running
  case ended =>
    simp only [SendState.deliver, hmem]
    exact htracked.ended
  case returned_lt =>
    simp only [SendState.deliver, hmem]
    exact htracked.returned_lt
  case failed =>
    simp only [SendState.deliver, hmem]
    exact htracked.failed
  case timeouts_lt => exact htracked.timeouts_lt
  case inTime_lt =>
    intro call' hinTime
    rcases List.mem_append.mp hinTime with hold | hnew
    · exact htracked.inTime_lt call' hold
    · simp only [List.mem_filter, List.mem_singleton] at hnew
      rw [hnew.1]
      exact hlt

/-- What a new call changes. -/
theorem SendState.call_spec (send : SendState) (nodeId : Int) (sendOk : Bool) :
    (send.call nodeId sendOk).waiting = some send.calls ∧
      (send.call nodeId sendOk).calls = send.calls + 1 ∧
      (∀ call result, .returned call result ∈ (send.call nodeId sendOk).log ↔
        .returned call result ∈ send.log) ∧
      ∀ call ∈ (send.call nodeId sendOk).outstanding,
        call = send.calls ∨ call ∈ send.outstanding := by
  rw [SendState.call]
  split
  · refine ⟨rfl, rfl, by simp, ?_⟩
    intro call hmem
    simp only [SendState.outstanding, List.map_append, List.map_cons, List.map_nil,
      List.mem_append, List.mem_singleton] at hmem ⊢
    grind
  · exact ⟨rfl, rfl, fun _ _ => Iff.rfl, fun _ hmem => Or.inr hmem⟩

theorem TimedSend.Tracked.call (htracked : s.Tracked) (hidle : s.send.waiting = none)
    (timeoutTime : Int64) (nodeId : Int) (sendOk : Bool) :
    { s with
      send := s.send.call nodeId sendOk
      timeoutTime := Function.update s.timeoutTime s.send.calls timeoutTime }.Tracked := by
  obtain ⟨hwaiting, hcalls, hreturned, houtstanding⟩ := s.send.call_spec nodeId sendOk
  have hold : ∀ call, call < s.send.calls →
      Function.update s.timeoutTime s.send.calls timeoutTime call = s.timeoutTime call :=
    fun call hlt => Function.update_of_ne (Nat.ne_of_lt hlt) _ _
  constructor
  case toDeadlineKept =>
    constructor
    case timeouts =>
      intro entry hmem
      simp only [hold _ (htracked.timeouts_lt entry hmem)]
      exact htracked.timeouts entry hmem
    case inTime =>
      intro call hmem
      obtain ⟨hnotFailed, hzero⟩ := htracked.inTime call hmem
      simp only [hreturned]
      rcases hzero with hdone | ⟨hself, _⟩
      · exact ⟨hnotFailed, Or.inl hdone⟩
      · rw [hidle] at hself
        cases hself
  case known =>
    intro call hmem
    simp only [hcalls]
    rcases houtstanding call hmem with rfl | hmem'
    · exact Nat.lt_succ_self _
    · exact Nat.lt_succ_of_lt (htracked.known call hmem')
  case running =>
    intro call hself
    simp only [hwaiting, Option.some.injEq] at hself
    subst hself
    simp only [hcalls, hreturned]
    exact ⟨Nat.lt_succ_self _,
      fun result hmem => Nat.lt_irrefl _ (htracked.returned_lt _ result hmem)⟩
  case ended =>
    intro call hlt
    simp only [hcalls] at hlt
    simp only [hwaiting, hreturned]
    rcases Nat.lt_succ_iff_lt_or_eq.mp hlt with hlt' | rfl
    · rcases htracked.ended call hlt' with hself | hended
      · rw [hidle] at hself
        cases hself
      · exact Or.inr hended
    · exact Or.inl rfl
  case returned_lt =>
    intro call result hmem
    simp only [hcalls]
    exact Nat.lt_succ_of_lt (htracked.returned_lt call result ((hreturned call result).mp hmem))
  case failed =>
    intro call hmem
    have hfailed := (hreturned call (-1)).mp hmem
    have hlate := htracked.failed call hfailed
    simp only [TimedSend.Before, hold call (htracked.returned_lt call _ hfailed)] at hlate ⊢
    exact hlate
  case timeouts_lt =>
    intro entry hmem
    simp only [hcalls]
    exact Nat.lt_succ_of_lt (htracked.timeouts_lt entry hmem)
  case inTime_lt =>
    intro call hmem
    simp only [hcalls]
    exact Nat.lt_succ_of_lt (htracked.inTime_lt call hmem)

theorem TimedSend.Tracked.step (htracked : s.Tracked) (hagree : s.ClocksAgree) {s' : TimedSend}
    {event : TimedEvent} (hstep : timedStep s event = .ok (s', ())) : s'.Tracked := by
  cases timedStep_eq_ok hstep with
  | advance _ hmonotonic => exact htracked.advance hmonotonic
  | call timeoutTime nodeId sendOk hidle => exact htracked.call hidle timeoutTime nodeId sendOk
  | invalid hwaiting hposted hwait =>
      refine htracked.returns hwaiting s.send.sentWait (Or.inr ⟨rfl, ?_, hposted⟩)
      have hneg := neg_of_einval hwait
      rw [TimedSend.Before, Clocks.monotonicMs]
      omega
  | @timedOut call hwaiting hposted hwait =>
      have hlate := hagree call hwaiting hposted (le_realtimeMs_of_etimedout hwait)
      have hreturned := htracked.returns hwaiting s.send.sentWait
        (Or.inr ⟨rfl, Int.not_lt.mpr hlate, hposted⟩)
      refine { hreturned with timeouts := ?_, timeouts_lt := ?_ }
      · rw [List.forall_mem_append, List.forall_mem_singleton]
        exact ⟨htracked.timeouts, hlate⟩
      · rw [List.forall_mem_append, List.forall_mem_singleton]
        exact ⟨htracked.timeouts_lt, (htracked.running call hwaiting).1⟩
  | deliver hcall => exact htracked.deliver hcall
  | wake hwaiting hposted => exact htracked.returns hwaiting (s.send.sentWait - 1) (Or.inl rfl)
  | background hquiet => exact htracked.background hquiet

end Track

/-- The deadlines are kept in every run in which the clocks agree on them. -/
theorem deadlinesKept_of_clocksAgree {now : Clocks} {events : List TimedEvent}
    (hagree : EveryStep timedStep (fun _ s _ => s.ClocksAgree) (.initial now) events) :
    DeadlinesKept now events := by
  intro s outputs hrun
  have htracked : s.Tracked := by
    refine hagree.invariant (fun _ s _ => s.Tracked) (tracked_initial now) ?_ hrun
    intro _ s _ event s' output _ htracked hcond hstep
    exact htracked.step hcond hstep
  exact htracked.toDeadlineKept

/-- A host whose clocks show the same time: the signal comes after 10 ms, and the second
call times out 50 ms after it was made. -/
theorem deadlinesKept_same_clock :
    DeadlinesKept ⟨20000000000, 20000000000⟩ [.call 20050 0 true, .send (.route 0),
      .send (.consume 0), .advance ⟨20010000000, 20010000000⟩, .send (.deliver 0), .send .wake,
      .call 20060 1 true, .advance ⟨20060000000, 20060000000⟩, .send .expire] :=
  deadlinesKept_of_clocksAgree (everyStep_iff_checkSteps.mpr (by decide))

/-- On a host that was booted 20 seconds ago, a call with the deadline of `offerService`
times out at once, and the signal that comes well before the deadline finds it gone. -/
theorem call_times_out_at_once :
    (20050 : Int64).toInt = (Clocks.mk 1700000000000000000 20000000000).monotonicMs + 50 ∧
      ¬ DeadlinesKept ⟨1700000000000000000, 20000000000⟩ [.call 20050 0 true, .send .expire,
        .send (.route 0), .send (.consume 0), .send (.deliver 0)] := by
  refine ⟨by decide, ?_⟩
  intro hkept
  have hrun : ∃ result, runEvents timedStep (.initial ⟨1700000000000000000, 20000000000⟩)
      [.call 20050 0 true, .send .expire, .send (.route 0), .send (.consume 0),
        .send (.deliver 0)] = .ok result ∧
      (result.1.inTime, result.1.send.log) = ([0], [.sent 0, .returned 0 (-1), .accepted 0,
        .consumed 0, .delivered 0]) := exists_ok_of_map_eq (by decide)
  obtain ⟨⟨s, outputs⟩, hrun, hparts⟩ := hrun
  simp only [Prod.mk.injEq] at hparts
  obtain ⟨hinTime, hlog⟩ := hparts
  have hreported := ((hkept s outputs hrun).inTime 0 (by rw [hinTime]; decide)).1
  rw [hlog] at hreported
  exact hreported (by decide)

end SafeTimer
