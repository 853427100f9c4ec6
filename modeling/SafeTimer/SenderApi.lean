/-
src/st_sender_api.c with what lies behind it: the semaphore and the datagrams of
`safetimer_send_heartbeat`, the clock of its deadline, and the file st_valid_time.  A call
that waits returns with a signal or at its deadline.  What the kernel does meanwhile is part
of the call.
-/
import SafeTimer.SendDeadline
import SafeTimer.ValidTime

namespace SafeTimer

structure SenderApi where
  debugfs : StDebugfs
  send : SendState
  now : Clocks

/-- Before the first call; the clocks are set later. -/
def SenderApi.initial : SenderApi :=
  ⟨⟨0, .zeroed bufferSize, 0, .zeroed bufferSize⟩, .initial, ⟨0, 0⟩⟩

/-- The sending host with the valid time that the hook reads. -/
def SenderApi.sending (s : SenderApi) : SendState :=
  { s.send with stValidTime := s.debugfs.stValidTime }

/-- What happens without the threads of the daemon. -/
inductive KernelEvent where
  | route (i : Nat)
  | consume (i : Nat)
  | deliver (i : Nat)
  | tick (bootTime : Int64)
  | advance (now : Clocks)
deriving DecidableEq

/-- The event of the sending host. -/
def KernelEvent.sendEvent : KernelEvent → Option SendEvent
  | .route i => some (.route i)
  | .consume i => some (.consume i)
  | .deliver i => some (.deliver i)
  | .tick bootTime => some (.tick bootTime)
  | .advance _ => none

/-- The host goes on under the valid time of the file. -/
def SenderApi.follow (s : SenderApi) (event : SendEvent) : Option SenderApi :=
  match sendStep s.sending event with
  | .error _ => none
  | .ok (send, _) => some { s with send := send }

/-- `none` if the event cannot happen in the state. -/
def SenderApi.kernel (s : SenderApi) : KernelEvent → Option SenderApi
  | .route i => s.follow (.route i)
  | .consume i => s.follow (.consume i)
  | .deliver i => s.follow (.deliver i)
  | .tick bootTime => s.follow (.tick bootTime)
  | .advance now =>
      if s.now.realtime ≤ now.realtime ∧ s.now.monotonic ≤ now.monotonic then
        some { s with now := now }
      else none

/-- An event that cannot happen is passed over. -/
def SenderApi.background (s : SenderApi) (event : KernelEvent) : SenderApi :=
  (s.kernel event).getD s

/-- `safetimer_send_heartbeat` up to the wait.  The heartbeat carries `app_id`, which this
host does not look at. -/
def SenderApi.sendHeartbeat (s : SenderApi) (nodeId : Int32) (sendOk : Bool) : SenderApi :=
  { s with send := s.send.call nodeId.toInt sendOk }

/-- The loop around `sem_timedwait` is left, with what the call returns; `none` while it is
not. -/
def SenderApi.awaitSignal (s : SenderApi) (call : Nat) (timeoutTime : Int64) :
    Option (SenderApi × Int32) :=
  if s.send.sentWait ≠ 0 then
    some ({ s with send := { s.send with sentWait := s.send.sentWait - 1 }.return call 0 }, 0)
  else
    match semTimedwait (timeToTimespec timeoutTime) s.now with
    | .einval | .etimedout => some ({ s with send := s.send.return call (-1) }, -1)
    | .blocks => none

/-- Why a call does not return. -/
inductive SenderStop where
  /-- it still waits -/
  | blocks
  | update (fault : UpdateFault)
deriving DecidableEq

/-- `safetimer_send_heartbeat`; `during` is what happens between its `sendto` and its
return. -/
def safetimerSendHeartbeat (s : SenderApi) (timeoutTime : Int64) (nodeId : Int32) (sendOk : Bool)
    (during : List KernelEvent) : Except SenderStop (SenderApi × Int32) :=
  let woken := during.foldl SenderApi.background (s.sendHeartbeat nodeId sendOk)
  match woken.awaitSignal s.send.calls timeoutTime with
  | some result => .ok result
  | none => .error .blocks

/-- `sem_timedwait` on a semaphore that is 0 blocks until the deadline.  A negative deadline
has passed, or is invalid. -/
theorem semTimedwait_eq_blocks_iff {time : Int64} {now : Clocks} :
    semTimedwait (timeToTimespec time) now = .blocks ↔ now.realtime < time.toInt * 1000000 := by
  rw [semTimedwait, nanoseconds_timeToTimespec]
  by_cases hinvalid : (timeToTimespec time).tvNsec < 0 ∨ 1000000000 ≤ (timeToTimespec time).tvNsec
  · have hwait : semTimedwait (timeToTimespec time) now = .einval := by
      rw [semTimedwait, if_pos hinvalid]
    have hneg := neg_of_einval hwait
    simp only [if_pos hinvalid, reduceCtorEq, false_iff]
    omega
  · rw [if_neg hinvalid]
    split
    · rename_i hpassed
      simp only [reduceCtorEq, false_iff]
      omega
    · rename_i hahead
      simp only [true_iff]
      omega

/-- The wait is over with a signal, or when CLOCK_REALTIME has come to the deadline. -/
theorem SenderApi.awaitSignal_isSome_iff {s : SenderApi} {call : Nat} {timeoutTime : Int64} :
    (s.awaitSignal call timeoutTime).isSome ↔
      s.send.sentWait ≠ 0 ∨ timeoutTime.toInt * 1000000 ≤ s.now.realtime := by
  rw [← Int.not_lt, ← semTimedwait_eq_blocks_iff, awaitSignal]
  by_cases hposted : s.send.sentWait = 0
  · cases hwait : semTimedwait (timeToTimespec timeoutTime) s.now <;> simp [hposted]
  · simp [hposted]

/-- The call has returned. -/
theorem SenderApi.awaitSignal_waiting {s api : SenderApi} {call : Nat} {timeoutTime : Int64}
    {ret : Int32} (hreturned : s.awaitSignal call timeoutTime = some (api, ret)) :
    api.send.waiting = none := by
  rw [awaitSignal] at hreturned
  split at hreturned
  · cases hreturned
    rfl
  · split at hreturned <;> cases hreturned <;> rfl

theorem SenderApi.sendHeartbeat_waiting (s : SenderApi) (nodeId : Int32) (sendOk : Bool) :
    (s.sendHeartbeat nodeId sendOk).send.waiting = some s.send.calls := by
  rw [sendHeartbeat, SendState.call]
  split <;> rfl

section Kernel

variable {s s' : SenderApi}

theorem SenderApi.follow_eq_some {event : SendEvent} (hfollow : s.follow event = some s') :
    ∃ send, sendStep s.sending event = .ok (send, ()) ∧ s' = { s with send := send } := by
  rw [follow] at hfollow
  split at hfollow
  · cases hfollow
  · rename_i send _ hstep
    cases hfollow
    exact ⟨send, hstep, rfl⟩

/-- Either the clocks go on or the host does. -/
theorem SenderApi.kernel_eq_some {event : KernelEvent} (hkernel : s.kernel event = some s') :
    (event.sendEvent = none ∧ ∃ now, s' = { s with now := now }) ∨
      ∃ sendEvent send, event.sendEvent = some sendEvent ∧
        sendStep s.sending sendEvent = .ok (send, ()) ∧ s' = { s with send := send } := by
  cases event with
  | advance now =>
      simp only [kernel] at hkernel
      split at hkernel
      · cases hkernel
        exact Or.inl ⟨rfl, now, rfl⟩
      · cases hkernel
  | route | consume | deliver | tick =>
      obtain ⟨send, hstep, hsame⟩ := follow_eq_some hkernel
      exact Or.inr ⟨_, send, rfl, hstep, hsame⟩

/-- No call returns by what the kernel does. -/
theorem SenderApi.kernel_waiting {event : KernelEvent} (hkernel : s.kernel event = some s') :
    s'.send.waiting = s.send.waiting := by
  rcases kernel_eq_some hkernel with ⟨_, now, rfl⟩ | ⟨sendEvent, send, hevent, hsend, rfl⟩
  · rfl
  · cases event <;> cases hevent <;> cases sendStep_eq_ok hsend <;> rfl

theorem SenderApi.foldl_background_waiting (s : SenderApi) (during : List KernelEvent) :
    (during.foldl SenderApi.background s).send.waiting = s.send.waiting := by
  induction during generalizing s with
  | nil => rfl
  | cons event rest ih =>
      rw [List.foldl_cons, ih, background]
      cases hkernel : s.kernel event with
      | none => rfl
      | some api => exact kernel_waiting hkernel

end Kernel

end SafeTimer
