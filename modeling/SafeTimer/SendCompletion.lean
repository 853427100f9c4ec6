/-
The confirmation of a heartbeat on the sending host: `safetimer_send_heartbeat`
(src/st_sender_api.c) waits on a semaphore that is posted by a signal, the signal
comes from a probe on the consumed packet (st_kprobe), and in between the hook of
st_netfilter may drop the packet.  The signal does not say which packet it is for.
-/
import SafeTimer.CValues
import SafeTimer.EventRun
import Mathlib.Data.List.Perm.Basic

namespace SafeTimer

/-- `hook_func` of st_netfilter.c; `bootTime` is the reading of
`ktime_get_boottime` in ms. -/
def stHookFunc (stValidTime bootTime : Int64) (skb : Skb) : Verdict :=
  if stValidTime = 0 ∨ bootTime ≤ stValidTime then .accept
  else if skb.IsHeartbeat then .drop
  else .accept

/-- `handler_pre` of st_kprobe.c sends a signal; `none` is a null pointer on the way
to the packet. -/
def handlerPre : Option Skb → Bool
  | none => false
  | some skb => decide skb.IsHeartbeat

/-- A datagram on its way, and the number of the call that sent it. -/
structure Datagram where
  call : Nat
  skb : Skb
deriving DecidableEq

/-- What has happened, by the number of the call. -/
inductive SendLog where
  | sent (call : Nat)
  | accepted (call : Nat)
  | dropped (call : Nat)
  | consumed (call : Nat)
  | delivered (call : Nat)
  | returned (call : Nat) (result : Int)
deriving DecidableEq

/-- The sending host.  The numbers of the calls and the log are for the statement
only; the code sees the semaphore. -/
structure SendState where
  stValidTime : Int64
  bootTime : Int64
  sentWait : Nat
  waiting : Option Nat
  calls : Nat
  routing : List Datagram
  driver : List Datagram
  signals : List Nat
  log : List SendLog

def SendState.initial : SendState :=
  ⟨0, 0, 0, none, 0, [], [], [], []⟩

inductive SendEvent where
  | call (nodeId : Int) (sendOk : Bool)
  | route (i : Nat)
  | consume (i : Nat)
  | deliver (i : Nat)
  | wake
  | expire
  | setValidTime (value : Int64)
  | tick (bootTime : Int64)
deriving DecidableEq

/-- The first part of `safetimer_send_heartbeat`: a datagram goes out for the nodes
0 and 1 when `sendto` succeeds, and in every case the call starts to wait. -/
def SendState.call (s : SendState) (nodeId : Int) (sendOk : Bool) : SendState :=
  let s' := { s with waiting := some s.calls, calls := s.calls + 1 }
  if (nodeId = 0 ∨ nodeId = 1) ∧ sendOk then
    { s' with
      routing := s.routing ++ [⟨s.calls, ⟨.udp, hbServerPort⟩⟩]
      log := s.log ++ [.sent s.calls] }
  else s'

/-- A datagram reaches the hook. -/
def SendState.route (s : SendState) (i : Nat) (d : Datagram) : SendState :=
  match stHookFunc s.stValidTime s.bootTime d.skb with
  | .accept =>
      { s with
        routing := s.routing.eraseIdx i
        driver := s.driver ++ [d]
        log := s.log ++ [.accepted d.call] }
  | .drop =>
      { s with
        routing := s.routing.eraseIdx i
        log := s.log ++ [.dropped d.call] }

/-- The driver has sent a datagram and calls `napi_consume_skb`. -/
def SendState.consume (s : SendState) (i : Nat) (d : Datagram) : SendState :=
  { s with
    driver := s.driver.eraseIdx i
    signals := if handlerPre (some d.skb) then s.signals ++ [d.call] else s.signals
    log := s.log ++ [.consumed d.call] }

/-- `receive_signal_fromkernel`: `sem_post`. -/
def SendState.deliver (s : SendState) (i : Nat) (call : Nat) : SendState :=
  { s with
    signals := s.signals.eraseIdx i
    sentWait := s.sentWait + 1
    log := s.log ++ [.delivered call] }

/-- The end of the waiting call. -/
def SendState.return (s : SendState) (call : Nat) (result : Int) : SendState :=
  { s with waiting := none, log := s.log ++ [.returned call result] }

/-- One event; those that cannot happen in the state are refused. -/
def sendStep (s : SendState) : SendEvent → Except Unit (SendState × Unit)
  | .call nodeId sendOk =>
      match s.waiting with
      | none => .ok (s.call nodeId sendOk, ())
      | some _ => .error ()
  | .route i =>
      match s.routing[i]? with
      | some d => .ok (s.route i d, ())
      | none => .error ()
  | .consume i =>
      match s.driver[i]? with
      | some d => .ok (s.consume i d, ())
      | none => .error ()
  | .deliver i =>
      match s.signals[i]? with
      | some call => .ok (s.deliver i call, ())
      | none => .error ()
  | .wake =>
      match s.waiting with
      | some call =>
          if s.sentWait = 0 then .error ()
          else .ok ({ s with sentWait := s.sentWait - 1 }.return call 0, ())
      | none => .error ()
  | .expire =>
      match s.waiting with
      | some call => if s.sentWait = 0 then .ok (s.return call (-1), ()) else .error ()
      | none => .error ()
  | .setValidTime value => .ok ({ s with stValidTime := value }, ())
  | .tick bootTime =>
      if s.bootTime ≤ bootTime then .ok ({ s with bootTime := bootTime }, ()) else .error ()

/-- The datagram of the call was accepted and consumed and its signal delivered
before the call returned 0. -/
def Confirmed (log : List SendLog) (call : Nat) : Prop :=
  [.sent call, .accepted call, .consumed call, .delivered call, .returned call 0].Sublist log

instance (log : List SendLog) (call : Nat) : Decidable (Confirmed log call) :=
  inferInstanceAs (Decidable (List.Sublist _ _))

/-- A call returns 0 only on the strength of its own datagram. -/
def CompletionSound (events : List SendEvent) : Prop :=
  ∀ s outputs, runEvents sendStep .initial events = .ok (s, outputs) →
    ∀ call, .returned call 0 ∈ s.log → Confirmed s.log call

/-- A signal that is delivered finds the call waiting that sent its datagram. -/
def SendEvent.InTime (s : SendState) : SendEvent → Prop
  | .deliver i => ∀ call ∈ s.signals[i]?, s.waiting = some call
  | _ => True

instance (s : SendState) : (event : SendEvent) → Decidable (event.InTime s)
  | .deliver _ => inferInstanceAs (Decidable (∀ call ∈ _, _))
  | .call _ _ | .route _ | .consume _ | .wake | .expire | .setValidTime _ | .tick _ =>
      isTrue trivial

def SignalsInTime (events : List SendEvent) : Prop :=
  EveryStep sendStep (fun _ s event => event.InTime s) .initial events

/-- What a step can do. -/
inductive SendStep (s : SendState) : SendEvent → SendState → Prop where
  | call (nodeId : Int) (sendOk : Bool) (hidle : s.waiting = none) :
      SendStep s (.call nodeId sendOk) (s.call nodeId sendOk)
  | accepted {i : Nat} {d : Datagram} (hd : s.routing[i]? = some d)
      (hverdict : stHookFunc s.stValidTime s.bootTime d.skb = .accept) :
      SendStep s (.route i)
        { s with
          routing := s.routing.eraseIdx i
          driver := s.driver ++ [d]
          log := s.log ++ [.accepted d.call] }
  | dropped {i : Nat} {d : Datagram} (hd : s.routing[i]? = some d)
      (hverdict : stHookFunc s.stValidTime s.bootTime d.skb = .drop) :
      SendStep s (.route i)
        { s with
          routing := s.routing.eraseIdx i
          log := s.log ++ [.dropped d.call] }
  | consume {i : Nat} {d : Datagram} (hd : s.driver[i]? = some d) :
      SendStep s (.consume i) (s.consume i d)
  | deliver {i call : Nat} (hcall : s.signals[i]? = some call) :
      SendStep s (.deliver i) (s.deliver i call)
  | wake {call : Nat} (hwaiting : s.waiting = some call) (hposted : s.sentWait ≠ 0) :
      SendStep s .wake ({ s with sentWait := s.sentWait - 1 }.return call 0)
  | expire {call : Nat} (hwaiting : s.waiting = some call) (hposted : s.sentWait = 0) :
      SendStep s .expire (s.return call (-1))
  | setValidTime (value : Int64) :
      SendStep s (.setValidTime value) { s with stValidTime := value }
  | tick {bootTime : Int64} (hle : s.bootTime ≤ bootTime) :
      SendStep s (.tick bootTime) { s with bootTime := bootTime }

theorem sendStep_eq_ok {s s' : SendState} {event : SendEvent}
    (hstep : sendStep s event = .ok (s', ())) : SendStep s event s' := by
  cases event with
  | call nodeId sendOk =>
      simp only [sendStep] at hstep
      split at hstep
      · rename_i hidle
        cases hstep
        exact .call nodeId sendOk hidle
      · cases hstep
  | route i =>
      simp only [sendStep] at hstep
      split at hstep
      · rename_i d hd
        cases hstep
        rw [SendState.route]
        split
        · rename_i hverdict
          exact .accepted hd hverdict
        · rename_i hverdict
          exact .dropped hd hverdict
      · cases hstep
  | consume i =>
      simp only [sendStep] at hstep
      split at hstep
      · rename_i d hd
        cases hstep
        exact .consume hd
      · cases hstep
  | deliver i =>
      simp only [sendStep] at hstep
      split at hstep
      · rename_i call hcall
        cases hstep
        exact .deliver hcall
      · cases hstep
  | wake =>
      simp only [sendStep] at hstep
      split at hstep
      · rename_i call hwaiting
        split at hstep
        · cases hstep
        · rename_i hposted
          cases hstep
          exact .wake hwaiting hposted
      · cases hstep
  | expire =>
      simp only [sendStep] at hstep
      split at hstep
      · rename_i call hwaiting
        split at hstep
        · rename_i hposted
          cases hstep
          exact .expire hwaiting hposted
        · cases hstep
      · cases hstep
  | setValidTime value =>
      cases hstep
      exact .setValidTime value
  | tick bootTime =>
      simp only [sendStep] at hstep
      split at hstep
      · rename_i hle
        cases hstep
        exact .tick hle
      · cases hstep

/-- Only its own event sets the valid time. -/
theorem SendStep.stValidTime_eq {s s' : SendState} {event : SendEvent}
    (hstep : SendStep s event s') (hevent : ∀ value, event ≠ .setValidTime value) :
    s'.stValidTime = s.stValidTime := by
  cases hstep with
  | call nodeId sendOk hidle =>
      rw [SendState.call]
      split <;> rfl
  | setValidTime value => exact absurd rfl (hevent value)
  | accepted | dropped | consume | deliver | wake | expire | tick => rfl

/-- Nothing but heartbeats is on the way to the hook. -/
def SendState.OnlyHeartbeats (s : SendState) : Prop :=
  ∀ d ∈ s.routing, d.skb.IsHeartbeat

theorem SendState.OnlyHeartbeats.step {s s' : SendState} (hs : s.OnlyHeartbeats)
    {event : SendEvent} (hstep : SendStep s event s') : s'.OnlyHeartbeats := by
  intro d hd
  cases hstep with
  | call nodeId sendOk hidle =>
      rw [SendState.call] at hd
      split at hd
      · rcases List.mem_append.mp hd with hold | hnew
        · exact hs d hold
        · rw [List.mem_singleton.mp hnew]
          exact ⟨rfl, rfl⟩
      · exact hs d hd
  | accepted | dropped => exact hs d (List.mem_of_mem_eraseIdx hd)
  | consume | deliver | wake | expire | setValidTime | tick => exact hs d hd

/-- The hook drops every heartbeat. -/
def SendState.GateClosed (s : SendState) : Prop :=
  ∀ skb : Skb, skb.IsHeartbeat → stHookFunc s.stValidTime s.bootTime skb = .drop

theorem SendState.gateClosed_iff (s : SendState) :
    s.GateClosed ↔ s.stValidTime ≠ 0 ∧ s.stValidTime.toInt < s.bootTime.toInt := by
  rw [← Int64.lt_iff_toInt_lt, ← Int64.not_le, ← not_or]
  constructor
  · intro hclosed hopen
    have hdrop := hclosed ⟨.udp, hbServerPort⟩ ⟨rfl, rfl⟩
    rw [stHookFunc, if_pos hopen] at hdrop
    cases hdrop
  · intro hlate skb hskb
    rw [stHookFunc, if_neg hlate, if_pos hskb]

theorem SendStep.bootTime_le {s s' : SendState} {event : SendEvent}
    (hstep : SendStep s event s') : s.bootTime ≤ s'.bootTime := by
  cases hstep with
  | call nodeId sendOk hidle =>
      rw [SendState.call]
      split <;> exact Int64.le_refl _
  | tick hle => exact hle
  | accepted | dropped | consume | deliver | wake | expire | setValidTime =>
      exact Int64.le_refl _

/-- A closed gate is opened by nothing but a new valid time. -/
theorem SendStep.gateClosed {s s' : SendState} {event : SendEvent} (hstep : SendStep s event s')
    (hevent : ∀ value, event ≠ .setValidTime value) (hclosed : s.GateClosed) :
    s'.GateClosed := by
  have hboot := Int64.le_iff_toInt_le.mp hstep.bootTime_le
  rw [SendState.gateClosed_iff] at hclosed ⊢
  rw [hstep.stValidTime_eq hevent]
  exact ⟨hclosed.1, Int.lt_of_lt_of_le hclosed.2 hboot⟩

/-- No heartbeat passes a closed gate. -/
theorem SendStep.mem_log_accepted {s s' : SendState} {event : SendEvent}
    (hstep : SendStep s event s') (hclosed : s.GateClosed) (honly : s.OnlyHeartbeats)
    {call : Nat} (hmem : .accepted call ∈ s'.log) : .accepted call ∈ s.log := by
  cases hstep with
  | call nodeId sendOk hidle =>
      rw [SendState.call] at hmem
      split at hmem
      · simpa using hmem
      · exact hmem
  | @accepted i d hd hverdict =>
      have hdrop := hclosed d.skb (honly d (List.mem_of_getElem? hd))
      rw [hdrop] at hverdict
      cases hverdict
  | dropped => simpa using hmem
  | consume | deliver | wake | expire =>
      simpa [SendState.consume, SendState.deliver, SendState.return] using hmem
  | setValidTime | tick => exact hmem

/-- The calls of which a datagram or a signal is on its way. -/
def SendState.outstanding (s : SendState) : List Nat :=
  s.routing.map Datagram.call ++ s.driver.map Datagram.call ++ s.signals

/-- How far the datagrams have come, by the log. -/
structure Logged (routing driver : List Datagram) (signals : List Nat)
    (log : List SendLog) : Prop where
  sent : ∀ d ∈ routing, [.sent d.call].Sublist log
  accepted : ∀ d ∈ driver, [.sent d.call, .accepted d.call].Sublist log
  consumed : ∀ call ∈ signals, [.sent call, .accepted call, .consumed call].Sublist log
  confirmed : ∀ call, .returned call 0 ∈ log → Confirmed log call

/-- As long as no signal comes late, every call has one thing on its way at most,
and the semaphore is posted by the waiting call's own signal only. -/
structure Accounted (s : SendState) : Prop
    extends Logged s.routing s.driver s.signals s.log where
  nodup : s.outstanding.Nodup
  known : ∀ call ∈ s.outstanding, call < s.calls
  idle : s.waiting = none → s.sentWait = 0
  posted : ∀ call, s.waiting = some call → s.sentWait ≠ 0 →
    s.sentWait = 1 ∧ call ∉ s.outstanding ∧
      [.sent call, .accepted call, .consumed call, .delivered call].Sublist s.log

theorem accounted_initial : Accounted .initial := by
  constructor
  case toLogged => constructor <;> intro _ hmem <;> cases hmem
  case nodup => exact List.nodup_nil
  case known =>
    intro call hmem
    cases hmem
  case idle =>
    intro _
    rfl
  case posted =>
    intro call hwaiting
    cases hwaiting

/-- The element at a position, and the others. -/
theorem perm_of_getElem?_eq_some {α : Type} {l : List α} {i : Nat} {x : α}
    (hx : l[i]? = some x) : l.Perm (x :: l.eraseIdx i) := by
  obtain ⟨hlt, rfl⟩ := List.getElem?_eq_some_iff.mp hx
  exact (List.getElem_cons_eraseIdx_perm hlt).symm

theorem Logged.concat {routing driver : List Datagram} {signals : List Nat}
    {log : List SendLog} (hlogged : Logged routing driver signals log) (entry : SendLog)
    (hentry : ∀ call, entry = .returned call 0 → Confirmed (log ++ [entry]) call) :
    Logged routing driver signals (log ++ [entry]) := by
  constructor
  case sent =>
    intro d hmem
    exact List.sublist_append_of_sublist_left (hlogged.sent d hmem)
  case accepted =>
    intro d hmem
    exact List.sublist_append_of_sublist_left (hlogged.accepted d hmem)
  case consumed =>
    intro call hmem
    exact List.sublist_append_of_sublist_left (hlogged.consumed call hmem)
  case confirmed =>
    intro call hmem
    rcases List.mem_append.mp hmem with hold | hlast
    · exact List.sublist_append_of_sublist_left (hlogged.confirmed call hold)
    · exact hentry call (List.mem_singleton.mp hlast).symm

section Step

variable {s : SendState}

theorem Accounted.call (hs : Accounted s) (hidle : s.waiting = none) (nodeId : Int)
    (sendOk : Bool) : Accounted (s.call nodeId sendOk) := by
  have hzero := hs.idle hidle
  rw [SendState.call]
  split
  · have hlogged := hs.toLogged.concat (.sent s.calls) (fun call heq => by cases heq)
    have hperm : ({ s with
        waiting := some s.calls, calls := s.calls + 1
        routing := s.routing ++ [⟨s.calls, ⟨.udp, hbServerPort⟩⟩]
        log := s.log ++ [.sent s.calls] } : SendState).outstanding.Perm
          (s.calls :: s.outstanding) := by
      simp only [SendState.outstanding, List.map_append, List.map_cons, List.map_nil,
        List.append_assoc, List.singleton_append]
      exact List.perm_middle
    constructor
    case toLogged =>
      refine { hlogged with sent := ?_ }
      rw [List.forall_mem_append, List.forall_mem_singleton]
      exact ⟨hlogged.sent, List.sublist_append_right s.log _⟩
    case nodup =>
      rw [hperm.nodup_iff, List.nodup_cons]
      exact ⟨fun hmem => Nat.lt_irrefl _ (hs.known s.calls hmem), hs.nodup⟩
    case known =>
      intro call hmem
      rcases List.mem_cons.mp (hperm.mem_iff.mp hmem) with rfl | hold
      · exact Nat.lt_succ_self s.calls
      · exact Nat.lt_succ_of_lt (hs.known call hold)
    case idle =>
      intro hwaiting
      cases hwaiting
    case posted =>
      intro call _ hposted
      exact absurd hzero hposted
  · refine ⟨hs.toLogged, hs.nodup, ?_, ?_, ?_⟩
    · intro call hmem
      exact Nat.lt_succ_of_lt (hs.known call hmem)
    · intro hwaiting
      cases hwaiting
    · intro call _ hposted
      exact absurd hzero hposted

/-- A datagram or a signal moves on or is gone, while the calls and the semaphore
stay as they are. -/
theorem Accounted.move (hs : Accounted s) {s' : SendState} {entry : SendLog}
    (hlogged : Logged s'.routing s'.driver s'.signals s'.log)
    (hlog : s'.log = s.log ++ [entry])
    (houtstanding : s'.outstanding.Subperm s.outstanding) (hcalls : s'.calls = s.calls)
    (hwaiting : s'.waiting = s.waiting) (hsem : s'.sentWait = s.sentWait) : Accounted s' := by
  refine ⟨hlogged, ?_, ?_, ?_, ?_⟩
  · obtain ⟨l, hperm, hsub⟩ := houtstanding
    exact hperm.nodup_iff.mp (hsub.nodup hs.nodup)
  · intro call hmem
    rw [hcalls]
    exact hs.known call (houtstanding.subset hmem)
  · rw [hwaiting, hsem]
    exact hs.idle
  · intro call hcall hposted
    rw [hwaiting] at hcall
    rw [hsem] at hposted ⊢
    obtain ⟨hone, hnot, hchain⟩ := hs.posted call hcall hposted
    refine ⟨hone, fun hmem => hnot (houtstanding.subset hmem), ?_⟩
    rw [hlog]
    exact List.sublist_append_of_sublist_left hchain

theorem Accounted.accept (hs : Accounted s) {i : Nat} {d : Datagram}
    (hd : s.routing[i]? = some d) :
    Accounted { s with
      routing := s.routing.eraseIdx i
      driver := s.driver ++ [d]
      log := s.log ++ [.accepted d.call] } := by
  have hlogged := hs.toLogged.concat (.accepted d.call) (fun call heq => by cases heq)
  refine hs.move ?_ rfl ?_ rfl rfl rfl
  · refine { hlogged with sent := ?_, accepted := ?_ }
    · intro d' hmem
      exact hlogged.sent d' (List.mem_of_mem_eraseIdx hmem)
    · rw [List.forall_mem_append, List.forall_mem_singleton]
      exact ⟨hlogged.accepted,
        (hs.sent d (List.mem_of_getElem? hd)).append (List.Sublist.refl _)⟩
  · apply List.Perm.subperm
    apply List.perm_iff_count.mpr
    intro call
    have hcount := ((perm_of_getElem?_eq_some hd).map Datagram.call).count_eq call
    simp only [SendState.outstanding, List.map_append, List.map_cons, List.map_nil,
      List.count_append, List.count_cons, List.count_nil] at hcount ⊢
    omega

theorem Accounted.drop (hs : Accounted s) (i : Nat) (d : Datagram) :
    Accounted { s with
      routing := s.routing.eraseIdx i
      log := s.log ++ [.dropped d.call] } := by
  have hlogged := hs.toLogged.concat (.dropped d.call) (fun call heq => by cases heq)
  refine hs.move ?_ rfl ?_ rfl rfl rfl
  · refine { hlogged with sent := ?_ }
    intro d' hmem
    exact hlogged.sent d' (List.mem_of_mem_eraseIdx hmem)
  · apply List.Sublist.subperm
    exact (((List.eraseIdx_sublist s.routing i).map _).append_right _).append_right _

theorem Accounted.consume (hs : Accounted s) {i : Nat} {d : Datagram}
    (hd : s.driver[i]? = some d) : Accounted (s.consume i d) := by
  have hlogged := hs.toLogged.concat (.consumed d.call) (fun call heq => by cases heq)
  have hdriver : ∀ d' ∈ s.driver.eraseIdx i,
      [.sent d'.call, .accepted d'.call].Sublist (s.log ++ [.consumed d.call]) :=
    fun d' hmem => hlogged.accepted d' (List.mem_of_mem_eraseIdx hmem)
  have hcount := fun call =>
    ((perm_of_getElem?_eq_some hd).map Datagram.call).count_eq call
  rw [SendState.consume]
  split
  · refine hs.move ?_ rfl ?_ rfl rfl rfl
    · refine { hlogged with accepted := hdriver, consumed := ?_ }
      rw [List.forall_mem_append, List.forall_mem_singleton]
      exact ⟨hlogged.consumed,
        (hs.accepted d (List.mem_of_getElem? hd)).append (List.Sublist.refl _)⟩
    · apply List.Perm.subperm
      apply List.perm_iff_count.mpr
      intro call
      have hcall := hcount call
      simp only [SendState.outstanding, List.map_cons, List.count_append, List.count_cons,
        List.count_nil] at hcall ⊢
      omega
  · refine hs.move { hlogged with accepted := hdriver } rfl ?_ rfl rfl rfl
    apply List.Sublist.subperm
    exact (((List.eraseIdx_sublist s.driver i).map _).append_left _).append_right _

/-- The signal of the waiting call posts the semaphore. -/
theorem Accounted.deliver (hs : Accounted s) {i call : Nat}
    (hcall : s.signals[i]? = some call) (hwaiting : s.waiting = some call) :
    Accounted (s.deliver i call) := by
  have hmem : call ∈ s.signals := List.mem_of_getElem? hcall
  have hlogged := hs.toLogged.concat (.delivered call) (fun call heq => by cases heq)
  -- its signal is still on its way, so that the semaphore has not been posted
  have hzero : s.sentWait = 0 := by
    by_contra hposted
    apply (hs.posted call hwaiting hposted).2.1
    exact List.mem_append_right _ hmem
  have hperm : s.outstanding.Perm (call :: (s.deliver i call).outstanding) := by
    apply List.perm_iff_count.mpr
    intro call'
    have hcount := (perm_of_getElem?_eq_some hcall).count_eq call'
    simp only [SendState.outstanding, SendState.deliver, List.count_append,
      List.count_cons] at hcount ⊢
    omega
  obtain ⟨hnot, hnodup⟩ := List.nodup_cons.mp (hperm.nodup_iff.mp hs.nodup)
  constructor
  case toLogged =>
    refine { hlogged with consumed := ?_ }
    intro call' hmem'
    exact hlogged.consumed call' (List.mem_of_mem_eraseIdx hmem')
  case nodup => exact hnodup
  case known =>
    intro call' hmem'
    exact hs.known call' (hperm.mem_iff.mpr (List.mem_cons_of_mem call hmem'))
  case idle =>
    intro hnone
    rw [SendState.deliver, hwaiting] at hnone
    cases hnone
  case posted =>
    intro call' hcall' _
    rw [SendState.deliver, hwaiting, Option.some.injEq] at hcall'
    rw [← hcall']
    refine ⟨?_, hnot, ?_⟩
    · rw [SendState.deliver, hzero]
    · exact (hs.consumed call hmem).append (List.Sublist.refl [SendLog.delivered call])

theorem Accounted.wake (hs : Accounted s) {call : Nat} (hwaiting : s.waiting = some call)
    (hposted : s.sentWait ≠ 0) :
    Accounted ({ s with sentWait := s.sentWait - 1 }.return call 0) := by
  obtain ⟨hone, _, hchain⟩ := hs.posted call hwaiting hposted
  have hlogged := hs.toLogged.concat (.returned call 0) (by
    intro call' heq
    cases heq
    exact hchain.append (List.Sublist.refl [SendLog.returned call 0]))
  refine ⟨hlogged, hs.nodup, hs.known, ?_, ?_⟩
  · intro _
    simp only [SendState.return, hone]
  · intro call' hnone
    cases hnone

theorem Accounted.expire (hs : Accounted s) {call : Nat} (hzero : s.sentWait = 0) :
    Accounted (s.return call (-1)) := by
  have hlogged := hs.toLogged.concat (.returned call (-1)) (fun call heq => by cases heq)
  refine ⟨hlogged, hs.nodup, hs.known, fun _ => hzero, ?_⟩
  intro call' hnone
  cases hnone

/-- One event. -/
theorem Accounted.step (hs : Accounted s) {event : SendEvent} {s' : SendState}
    (hstep : SendStep s event s')
    (hintime : event.InTime s) : Accounted s' := by
  cases hstep with
  | call nodeId sendOk hidle => exact hs.call hidle nodeId sendOk
  | accepted hd _ => exact hs.accept hd
  | dropped hd _ => exact hs.drop _ _
  | consume hd => exact hs.consume hd
  | deliver hcall => exact hs.deliver hcall (hintime _ hcall)
  | wake hwaiting hposted => exact hs.wake hwaiting hposted
  | expire _ hzero => exact hs.expire hzero
  | setValidTime value => exact ⟨hs.toLogged, hs.nodup, hs.known, hs.idle, hs.posted⟩
  | tick _ => exact ⟨hs.toLogged, hs.nodup, hs.known, hs.idle, hs.posted⟩

end Step

/-- In every run in which no signal comes after its call has given up, a call
returns 0 only on the strength of its own datagram. -/
theorem completionSound_of_signalsInTime (events : List SendEvent)
    (hintime : SignalsInTime events) : CompletionSound events := by
  intro s outputs hrun
  have hs : Accounted s := by
    refine hintime.invariant (fun _ state _ => Accounted state) accounted_initial ?_ hrun
    intro pre state early event next _ _ hstate hcond hstep
    exact hstate.step (sendStep_eq_ok hstep) hcond
  exact hs.confirmed

/-- A call that is confirmed, and one that is dropped and gives up. -/
theorem completionSound_two_calls :
    let events : List SendEvent :=
      [.call 0 true, .route 0, .consume 0, .deliver 0, .wake, .setValidTime 50, .tick 60,
        .call 1 true, .route 0, .expire]
    SignalsInTime events ∧ CompletionSound events := by
  intro events
  have hintime : SignalsInTime events := everyStep_iff_checkSteps.mpr (by decide)
  exact ⟨hintime, completionSound_of_signalsInTime events hintime⟩

/-- The first call gives up before the signal of its datagram is delivered.  The
second call finds the semaphore posted and returns 0, although the hook has dropped
its datagram. -/
theorem late_signal_confirms_dropped :
    ¬ ∀ events : List SendEvent, CompletionSound events := by
  intro hproperty
  let events : List SendEvent :=
    [.call 0 true, .route 0, .consume 0, .expire, .deliver 0, .setValidTime 50, .tick 60,
      .call 1 true, .route 0, .wake]
  have hconfirmed := hproperty events _ _ rfl 1 (by decide)
  exact absurd hconfirmed (by decide)

end SafeTimer
