/-
The daemon st_sender as a whole: the datagrams that reach its `server_routine`
(src/st_sender.c), the calls into src/st_sender_api.c, the text that these write to the
file st_valid_time, and the hook of st_netfilter that compares the time with the clock.
In between the kernel works on the heartbeats that are under way.
-/
import SafeTimer.RequestServers

namespace SafeTimer

/-- The thread of the server is in its loop, the loop has been left, or `sig_handler` has
ended the process. -/
inductive DaemonPhase where
  | serving
  | ended
  | exited
deriving DecidableEq

/-- The daemon and the kernel modules.  `waitTimeout` is the deadline of the call that waits,
and `closed` says that `destroy_st_sender_api` is done. -/
structure SenderDaemon extends SenderApi where
  waitTimeout : Int64
  phase : DaemonPhase
  closed : Bool

def SenderDaemon.initial : SenderDaemon :=
  ⟨.initial, 0, .serving, false⟩

inductive DaemonEvent where
  /-- `recvfrom` returns; `sendOk` and `replyOk` are for the heartbeat and for the reply -/
  | request (datagram : List UInt8) (sendOk replyOk : Bool) (file : ValidTimeFile)
  /-- the waiting `safetimer_send_heartbeat` returns -/
  | finish (replyOk : Bool)
  | kernel (event : KernelEvent)
  /-- `sig_handler` up to and with `destroy_st_sender_api` -/
  | terminate
  /-- the rest of `sig_handler` -/
  | exit

inductive DaemonStop where
  /-- the event cannot happen in the state -/
  | refused
  | fault (fault : UpdateFault)
deriving DecidableEq

/-- Signals are delivered as long as there is the process. -/
def KernelEvent.Reaches (phase : DaemonPhase) : KernelEvent → Prop
  | .deliver _ => phase ≠ .exited
  | .route _ | .consume _ | .tick _ | .advance _ => True

instance (phase : DaemonPhase) : (event : KernelEvent) → Decidable (event.Reaches phase)
  | .deliver _ => inferInstanceAs (Decidable (_ ≠ _))
  | .route _ | .consume _ | .tick _ | .advance _ => isTrue trivial

/-- `sendto` of the reply; the loop is left when it fails. -/
def SenderDaemon.reply (s : SenderDaemon) (replyOk : Bool) : SenderDaemon :=
  if replyOk then s else { s with phase := .ended }

/-- `server_routine` on a request, with the event of the sending host that it amounts to.  A
heartbeat is sent before its call waits. -/
def SenderDaemon.serve (s : SenderDaemon) (request : SenderRequest) (sent replyOk : Bool)
    (file : ValidTimeFile) : Except DaemonStop (SenderDaemon × Option SendEvent) :=
  if request.requestType = 0 then
    let nodeId := request.nodeId.toInt32
    .ok ({ s with
        toSenderApi := s.sendHeartbeat nodeId sent
        waitTimeout := request.timeout }, some (.call nodeId.toInt sent))
  else if request.requestType = 1 then
    match safetimerUpdateValidTime s.debugfs request.timeout file with
    | .error fault => .error (.fault fault)
    | .ok debugfs =>
        .ok ({ s with debugfs := debugfs }.reply replyOk, some (.setValidTime request.timeout))
  else .ok (s.reply replyOk, none)

def daemonStep (s : SenderDaemon) :
    DaemonEvent → Except DaemonStop (SenderDaemon × Option SendEvent)
  | .request datagram sendOk replyOk file =>
      if s.phase = .serving ∧ s.send.waiting = none then
        match readSenderRequest datagram with
        | none => .ok ({ s with phase := .ended }, none)
        -- the sockets of the heartbeats are closed first
        | some request => s.serve request (sendOk && !s.closed) replyOk file
      else .error .refused
  | .finish replyOk =>
      if s.phase = .serving then
        match s.send.waiting with
        | none => .error .refused
        | some call =>
            match s.awaitSignal call s.waitTimeout with
            | none => .error .refused
            | some (api, ret) =>
                .ok ({ s with toSenderApi := api }.reply replyOk,
                  some (if ret = 0 then .wake else .expire))
      else .error .refused
  | .kernel event =>
      if event.Reaches s.phase then
        match s.kernel event with
        | none => .error .refused
        | some api => .ok ({ s with toSenderApi := api }, event.sendEvent)
      else .error .refused
  | .terminate =>
      if s.closed then .error .refused
      else .ok ({ s with debugfs := s.debugfs.setToZero, closed := true },
        some (.setValidTime 0))
  | .exit =>
      -- until here the server has gone on
      if s.closed ∧ s.phase ≠ .exited then .ok ({ s with phase := .exited }, none)
      else .error .refused

/-- The valid time that a datagram asks for. -/
def DaemonEvent.updateTime : DaemonEvent → Option Int64
  | .request datagram .. =>
      (readSenderRequest datagram).bind fun request =>
        if request.requestType = 1 then some request.timeout else none
  | .finish .. | .kernel _ | .terminate | .exit => none

/-- The valid times of all requests, in their order. -/
def updateTimes (events : List DaemonEvent) : List Int64 :=
  events.filterMap DaemonEvent.updateTime

/-- What a step can do.  With `finish` and `kernel` the sending host makes a step of its own,
under the valid time of the file. -/
inductive DaemonStep (s : SenderDaemon) :
    DaemonEvent → SenderDaemon → Option SendEvent → Prop where
  | unread {datagram : List UInt8} {sendOk replyOk : Bool} {file : ValidTimeFile}
      (hserving : s.phase = .serving) (hread : readSenderRequest datagram = none) :
      DaemonStep s (.request datagram sendOk replyOk file) { s with phase := .ended } none
  | heartbeat {datagram : List UInt8} {sendOk replyOk : Bool} {file : ValidTimeFile}
      {request : SenderRequest} (hserving : s.phase = .serving) (hidle : s.send.waiting = none)
      (hread : readSenderRequest datagram = some request) (htype : request.requestType = 0) :
      DaemonStep s (.request datagram sendOk replyOk file)
        { s with
          toSenderApi := s.sendHeartbeat request.nodeId.toInt32 (sendOk && !s.closed)
          waitTimeout := request.timeout }
        (some (.call request.nodeId.toInt32.toInt (sendOk && !s.closed)))
  | update {datagram : List UInt8} {sendOk replyOk : Bool} {file : ValidTimeFile}
      {request : SenderRequest} {debugfs : StDebugfs} (hserving : s.phase = .serving)
      (hread : readSenderRequest datagram = some request) (htype : request.requestType = 1)
      (hupdate : safetimerUpdateValidTime s.debugfs request.timeout file = .ok debugfs) :
      DaemonStep s (.request datagram sendOk replyOk file)
        ({ s with debugfs := debugfs }.reply replyOk) (some (.setValidTime request.timeout))
  | unknown {datagram : List UInt8} {sendOk replyOk : Bool} {file : ValidTimeFile}
      {request : SenderRequest} (hserving : s.phase = .serving)
      (hread : readSenderRequest datagram = some request) (htype : request.requestType ≠ 1) :
      DaemonStep s (.request datagram sendOk replyOk file) (s.reply replyOk) none
  | finish {replyOk : Bool} {api : SenderApi} {event : SendEvent} (hserving : s.phase = .serving)
      (hevent : event = .wake ∨ event = .expire) (hdebugfs : api.debugfs = s.debugfs)
      (hsend : sendStep s.sending event = .ok (api.sending, ())) :
      DaemonStep s (.finish replyOk) ({ s with toSenderApi := api }.reply replyOk) (some event)
  | kernel {event : KernelEvent} {api : SenderApi} {sendEvent : SendEvent}
      (hevent : event.sendEvent = some sendEvent) (hdebugfs : api.debugfs = s.debugfs)
      (hsend : sendStep s.sending sendEvent = .ok (api.sending, ())) :
      DaemonStep s (.kernel event) { s with toSenderApi := api } (some sendEvent)
  | advance {event : KernelEvent} {now : Clocks} (hevent : event.sendEvent = none) :
      DaemonStep s (.kernel event) { s with now := now } none
  | terminate (hopen : s.closed = false) :
      DaemonStep s .terminate { s with debugfs := s.debugfs.setToZero, closed := true }
        (some (.setValidTime 0))
  | exit (hclosed : s.closed = true) : DaemonStep s .exit { s with phase := .exited } none

section Steps

variable {s s' : SenderDaemon} {label : Option SendEvent}

theorem KernelEvent.sendEvent_ne {event : KernelEvent} {sendEvent : SendEvent}
    (hevent : event.sendEvent = some sendEvent) (value : Int64) :
    sendEvent ≠ .setValidTime value := by
  rintro rfl
  cases event <;> cases hevent

/-- The host has made a step under the valid time of the file. -/
theorem SenderApi.sending_of_step {s : SenderApi} {event : SendEvent} {send : SendState}
    (hstep : sendStep s.sending event = .ok (send, ()))
    (hevent : ∀ value, event ≠ .setValidTime value) :
    ({ s with send := send } : SenderApi).sending = send := by
  have hvalid : send.stValidTime = s.debugfs.stValidTime :=
    (sendStep_eq_ok hstep).stValidTime_eq hevent
  rw [sending, ← hvalid]

/-- The waiting call takes the semaphore, or gives up. -/
theorem SenderApi.awaitSignal_eq_some {s api : SenderApi} {call : Nat} {timeoutTime : Int64}
    {ret : Int32} (hwaiting : s.send.waiting = some call)
    (hreturned : s.awaitSignal call timeoutTime = some (api, ret)) :
    api.debugfs = s.debugfs ∧
      sendStep s.sending (if ret = 0 then .wake else .expire) = .ok (api.sending, ()) := by
  have hwaiting' : s.sending.waiting = some call := hwaiting
  rw [awaitSignal] at hreturned
  by_cases hposted : s.send.sentWait = 0
  · have hposted' : s.sending.sentWait = 0 := hposted
    rw [if_neg (not_not_intro hposted)] at hreturned
    split at hreturned
    · cases hreturned
      exact ⟨rfl, by simp only [sendStep, hwaiting', hposted']; rfl⟩
    · cases hreturned
      exact ⟨rfl, by simp only [sendStep, hwaiting', hposted']; rfl⟩
    · cases hreturned
  · have hposted' : ¬ s.sending.sentWait = 0 := hposted
    rw [if_pos hposted] at hreturned
    cases hreturned
    exact ⟨rfl, by simp only [sendStep, hwaiting', hposted']; rfl⟩

theorem daemonStep_eq_ok {event : DaemonEvent} (hstep : daemonStep s event = .ok (s', label)) :
    DaemonStep s event s' label := by
  cases event with
  | request datagram sendOk replyOk file =>
      simp only [daemonStep] at hstep
      split at hstep
      · rename_i henabled
        obtain ⟨hserving, hidle⟩ := henabled
        split at hstep
        · rename_i hread
          cases hstep
          exact .unread hserving hread
        · rename_i request hread
          simp only [SenderDaemon.serve] at hstep
          split at hstep
          · rename_i htype
            cases hstep
            exact .heartbeat hserving hidle hread htype
          · split at hstep
            · rename_i htype
              split at hstep
              · cases hstep
              · rename_i debugfs hupdate
                cases hstep
                exact .update hserving hread htype hupdate
            · rename_i htype
              cases hstep
              exact .unknown hserving hread htype
      · cases hstep
  | finish replyOk =>
      simp only [daemonStep] at hstep
      split at hstep
      · rename_i hserving
        split at hstep
        · cases hstep
        · rename_i call hwaiting
          split at hstep
          · cases hstep
          · rename_i api ret hreturned
            cases hstep
            obtain ⟨hdebugfs, hsend⟩ := SenderApi.awaitSignal_eq_some hwaiting hreturned
            refine .finish hserving ?_ hdebugfs hsend
            by_cases hret : ret = 0
            · exact Or.inl (if_pos hret)
            · exact Or.inr (if_neg hret)
      · cases hstep
  | kernel event =>
      simp only [daemonStep] at hstep
      split at hstep
      · split at hstep
        · cases hstep
        · rename_i api hkernel
          cases hstep
          rcases SenderApi.kernel_eq_some hkernel with
            ⟨hevent, now, rfl⟩ | ⟨sendEvent, send, hevent, hsend, rfl⟩
          · rw [hevent]
            exact .advance hevent
          · rw [hevent]
            refine .kernel hevent rfl ?_
            rw [SenderApi.sending_of_step hsend (event.sendEvent_ne hevent)]
            exact hsend
      · cases hstep
  | terminate =>
      simp only [daemonStep] at hstep
      split at hstep
      · cases hstep
      · rename_i hopen
        cases hstep
        exact .terminate (Bool.eq_false_of_not_eq_true hopen)
  | exit =>
      simp only [daemonStep] at hstep
      split at hstep
      · rename_i hclosed
        cases hstep
        exact .exit hclosed.1
      · cases hstep

@[simp] theorem SenderDaemon.reply_toSenderApi (s : SenderDaemon) (replyOk : Bool) :
    (s.reply replyOk).toSenderApi = s.toSenderApi := by
  cases replyOk <;> rfl

@[simp] theorem SenderDaemon.reply_closed (s : SenderDaemon) (replyOk : Bool) :
    (s.reply replyOk).closed = s.closed := by
  cases replyOk <;> rfl

theorem SenderApi.sending_sendHeartbeat (s : SenderApi) (nodeId : Int32) (sendOk : Bool) :
    (s.sendHeartbeat nodeId sendOk).sending = s.sending.call nodeId.toInt sendOk := by
  by_cases hsent : (nodeId.toInt = 0 ∨ nodeId.toInt = 1) ∧ sendOk = true
  · simp only [sending, sendHeartbeat, SendState.call, if_pos hsent]
  · simp only [sending, sendHeartbeat, SendState.call, if_neg hsent]

/-- The datagrams of the host stay as they are, or the host makes the step of the label. -/
theorem DaemonStep.host {event : DaemonEvent} (hstep : DaemonStep s event s' label) :
    (s'.send = s.send ∧ (label = none ∨ ∃ value, label = some (.setValidTime value))) ∨
      ∃ sendEvent, label = some sendEvent ∧
        sendStep s.sending sendEvent = .ok (s'.sending, ()) := by
  cases hstep with
  | unread | exit | advance => exact Or.inl ⟨rfl, Or.inl rfl⟩
  | terminate => exact Or.inl ⟨rfl, Or.inr ⟨0, rfl⟩⟩
  | update => exact Or.inl ⟨by rw [SenderDaemon.reply_toSenderApi], Or.inr ⟨_, rfl⟩⟩
  | unknown => exact Or.inl ⟨by rw [SenderDaemon.reply_toSenderApi], Or.inl rfl⟩
  | heartbeat hserving hidle hread htype =>
      refine Or.inr ⟨_, rfl, ?_⟩
      have hidle' : s.sending.waiting = none := hidle
      simp only [sendStep, hidle', SenderApi.sending_sendHeartbeat]
  | finish hserving hevent hdebugfs hsend =>
      rw [SenderDaemon.reply_toSenderApi]
      exact Or.inr ⟨_, rfl, hsend⟩
  | kernel hevent hdebugfs hsend => exact Or.inr ⟨_, rfl, hsend⟩

end Steps

section Turns

variable {s : SenderDaemon}

/-- The daemon of a loop that waits for its next datagram, or that has been left. -/
structure SenderDaemon.Idle (s : SenderDaemon) (running : Bool) : Prop where
  phase : s.phase = if running then .serving else .ended
  returned : s.send.waiting = none
  opened : s.closed = false

/-- The daemon goes through events to an idle state with this part. -/
def SenderDaemon.Reaches (s : SenderDaemon) (api : SenderApi) (running : Bool) : Prop :=
  ∃ events s' labels, runEvents daemonStep s events = .ok (s', labels) ∧
    s'.toSenderApi = api ∧ s'.Idle running

theorem exists_run_kernel (hprocess : s.phase ≠ .exited) (during : List KernelEvent) :
    ∃ events labels, runEvents daemonStep s events =
      .ok ({ s with toSenderApi := during.foldl SenderApi.background s.toSenderApi }, labels) := by
  induction during generalizing s with
  | nil => exact ⟨[], [], rfl⟩
  | cons event rest ih =>
      rw [List.foldl_cons, SenderApi.background]
      cases hkernel : s.kernel event with
      | none => exact ih hprocess
      | some api =>
          have hreaches : event.Reaches s.phase := by
            cases event with
            | deliver i => exact hprocess
            | route | consume | tick | advance => trivial
          have hstep : daemonStep s (.kernel event) =
              .ok ({ s with toSenderApi := api }, event.sendEvent) := by
            simp only [daemonStep, if_pos hreaches, hkernel]
          obtain ⟨events, labels, hrun⟩ := @ih { s with toSenderApi := api } hprocess
          exact ⟨_, _, runEvents_cons_eq_ok_iff.mpr ⟨_, _, _, hstep, hrun, rfl⟩⟩

/-- A heartbeat is a request, what the kernel does while its call waits, and the return. -/
theorem SenderDaemon.Idle.sendHeartbeat (hs : s.Idle true) {datagram : List UInt8}
    {request : SenderRequest} (hread : readSenderRequest datagram = some request)
    (htype : request.requestType = 0) {env : CallEnv} {api : SenderApi} {ret : Int32}
    (hcall : safetimerSendHeartbeat s.toSenderApi request.timeout request.nodeId.toInt32
      env.sendOk env.during = .ok (api, ret)) : s.Reaches api true := by
  have hserving : s.phase = .serving := hs.phase
  let sent : SenderDaemon :=
    { s with
      toSenderApi := s.sendHeartbeat request.nodeId.toInt32 env.sendOk
      waitTimeout := request.timeout }
  have hsent : daemonStep s (.request datagram env.sendOk true env.file) =
      .ok (sent, some (.call request.nodeId.toInt32.toInt env.sendOk)) := by
    simp [daemonStep, hserving, hs.returned, hread, serve, htype, hs.opened, sent]
  have hprocess : sent.phase ≠ .exited := by
    rw [show sent.phase = .serving from hserving]
    decide
  obtain ⟨events, labels, hkernel⟩ := exists_run_kernel hprocess env.during
  rw [safetimerSendHeartbeat] at hcall
  split at hcall
  · rename_i result hreturned
    cases hcall
    have hwaiting : (env.during.foldl SenderApi.background sent.toSenderApi).send.waiting =
        some s.send.calls := by
      rw [SenderApi.foldl_background_waiting]
      exact SenderApi.sendHeartbeat_waiting _ _ _
    have hfinish : daemonStep
        { sent with toSenderApi := env.during.foldl SenderApi.background sent.toSenderApi }
        (.finish true) =
          .ok ({ sent with toSenderApi := api }, some (if ret = 0 then .wake else .expire)) := by
      simp only [daemonStep, if_pos (show sent.phase = .serving from hserving), hwaiting]
      rw [show SenderApi.awaitSignal _ s.send.calls sent.waitTimeout = some (api, ret) from
        hreturned]
      rfl
    have hrest := runEvents_concat_eq_ok_iff.mpr ⟨_, _, _, hkernel, hfinish, rfl⟩
    exact ⟨_, _, _, runEvents_cons_eq_ok_iff.mpr ⟨_, _, _, hsent, hrest, rfl⟩, rfl,
      hserving, SenderApi.awaitSignal_waiting hreturned, hs.opened⟩
  · cases hcall

/-- One turn of the loop of st_sender. -/
theorem senderServer_turn {api next : SenderApi} {datagram : List UInt8} {env : CallEnv}
    {running : Bool} {output : Option ((SenderRequest × CallEnv) × Int64)}
    (hstep : senderServer.step (api, true) (.inr (datagram, env)) =
      .ok ((next, running), output)) :
    (readSenderRequest datagram = none ∧ next = api ∧ running = false) ∨
      ∃ request reply, readSenderRequest datagram = some request ∧
        api.serve request env = .ok (next, reply) ∧ running = true := by
  simp only [RequestServer.step, senderServer] at hstep
  cases hread : readSenderRequest datagram with
  | none =>
      rw [hread] at hstep
      cases hstep
      exact Or.inl ⟨rfl, rfl, rfl⟩
  | some request =>
      rw [hread] at hstep
      simp only [Option.map_some, if_true] at hstep
      split at hstep
      · cases hstep
      · rename_i reply hserve
        cases hstep
        exact Or.inr ⟨request, reply, rfl, hserve, rfl⟩

/-- A request that is served in a turn, with a reply that can be sent. -/
theorem SenderDaemon.Idle.serve (hs : s.Idle true) {datagram : List UInt8}
    {request : SenderRequest} (hread : readSenderRequest datagram = some request)
    {env : CallEnv} {api : SenderApi} {reply : Int64}
    (hserve : s.toSenderApi.serve request env = .ok (api, reply)) : s.Reaches api true := by
  have hserving : s.phase = .serving := hs.phase
  have hrequest : daemonStep s (.request datagram env.sendOk true env.file) =
      s.serve request env.sendOk true env.file := by
    simp [daemonStep, hserving, hs.returned, hread, hs.opened]
  rw [SenderApi.serve] at hserve
  rw [SenderDaemon.serve] at hrequest
  by_cases hheartbeat : request.requestType = 0
  · rw [if_pos hheartbeat] at hserve
    split at hserve
    · cases hserve
    · rename_i ret hcall
      cases hserve
      exact hs.sendHeartbeat hread hheartbeat hcall
  · rw [if_neg hheartbeat] at hserve hrequest
    split at hserve
    · rename_i hupdate
      rw [if_pos hupdate] at hrequest
      split at hserve
      · cases hserve
      · rename_i debugfs hwritten
        cases hserve
        rw [hwritten] at hrequest
        exact ⟨_, _, _, runEvents_cons_of_step hrequest [], rfl, hserving, hs.returned,
          hs.opened⟩
    · rename_i hupdate
      cases hserve
      rw [if_neg hupdate] at hrequest
      exact ⟨_, _, _, runEvents_cons_of_step hrequest [], rfl, hs⟩

theorem SenderDaemon.Idle.step {running running' : Bool} (hs : s.Idle running)
    {input : KernelEvent ⊕ (List UInt8 × CallEnv)} {api : SenderApi}
    {output : Option ((SenderRequest × CallEnv) × Int64)}
    (hstep : senderServer.step (s.toSenderApi, running) input = .ok ((api, running'), output)) :
    s.Reaches api running' := by
  rcases input with event | ⟨datagram, env⟩
  · -- the kernel goes on
    cases hstep
    have hprocess : s.phase ≠ .exited := by
      rw [hs.phase]
      cases running <;> decide
    obtain ⟨events, labels, hrun⟩ := exists_run_kernel hprocess [event]
    have hwaiting := SenderApi.foldl_background_waiting s.toSenderApi [event]
    exact ⟨events, _, labels, hrun, rfl, hs.phase, hwaiting.trans hs.returned, hs.opened⟩
  · cases running with
    | false =>
        cases hstep
        exact ⟨[], s, [], rfl, rfl, hs⟩
    | true =>
        rcases senderServer_turn hstep with ⟨hread, rfl, rfl⟩ | ⟨request, reply, hread, hserve, rfl⟩
        · have hserving : s.phase = .serving := hs.phase
          have hended : daemonStep s (.request datagram env.sendOk true env.file) =
              .ok ({ s with phase := .ended }, none) := by
            simp [daemonStep, hserving, hs.returned, hread]
          exact ⟨_, _, _, runEvents_cons_of_step hended [], rfl, rfl, hs.returned, hs.opened⟩
        · exact hs.serve hread hserve

/-- A run of the loop of the server is a run of the daemon. -/
theorem SenderDaemon.Idle.run {running running' : Bool} (hs : s.Idle running)
    {inputs : List (KernelEvent ⊕ (List UInt8 × CallEnv))} {api : SenderApi}
    {outputs : List (Option ((SenderRequest × CallEnv) × Int64))}
    (hrun : runEvents senderServer.step (s.toSenderApi, running) inputs =
      .ok ((api, running'), outputs)) : s.Reaches api running' := by
  induction inputs generalizing s running outputs with
  | nil =>
      cases hrun
      exact ⟨[], s, [], rfl, rfl, hs⟩
  | cons input rest ih =>
      obtain ⟨⟨next, running₁⟩, output, tail, hstep, hrest, rfl⟩ :=
        runEvents_cons_eq_ok_iff.mp hrun
      obtain ⟨events, middle, labels, hfirst, rfl, hmiddle⟩ := hs.step hstep
      obtain ⟨events', s', labels', hlater, hapi, hidle⟩ := ih hmiddle hrest
      exact ⟨events ++ events', s', labels ++ labels',
        runEvents_append_eq_ok_iff.mpr ⟨_, _, _, hfirst, hlater, rfl⟩, hapi, hidle⟩

end Turns

section Simulation

variable {s s' : SenderDaemon} {pre : List DaemonEvent}

/-- The daemon does on the sending host what the label says. -/
def SenderDaemon.Simulates (s s' : SenderDaemon) (label : Option SendEvent) : Prop :=
  label = none ∧ s'.sending = s.sending ∨
    ∃ event, label = some event ∧ sendStep s.sending event = .ok (s'.sending, ())

theorem updateTimes_concat (pre : List DaemonEvent) (event : DaemonEvent) :
    updateTimes (pre ++ [event]) = updateTimes pre ++ event.updateTime.toList := by
  rw [updateTimes, List.filterMap_append, updateTimes]
  cases htime : event.updateTime with
  | none => simp [htime]
  | some t => simp [htime]

/-- The valid time that an event asks for can be told from those before it. -/
def DaemonEvent.Extends (pre : List DaemonEvent) (event : DaemonEvent) : Prop :=
  ∀ t ∈ event.updateTime, 0 ≤ t ∧
    ∀ t' ∈ updateTimes pre, (longText t').length ≤ (longText t).length

/-- The datagram asks for a valid time. -/
theorem DaemonEvent.updateTime_of_read {datagram : List UInt8} {sendOk replyOk : Bool}
    {file : ValidTimeFile} {request : SenderRequest}
    (hread : readSenderRequest datagram = some request) :
    (DaemonEvent.request datagram sendOk replyOk file).updateTime =
      if request.requestType = 1 then some request.timeout else none := by
  rw [updateTime, hread]
  rfl

/-- Only a request for a valid time, or the clear, touches the file. -/
theorem DaemonStep.file {event : DaemonEvent} {label : Option SendEvent}
    (hstep : DaemonStep s event s' label) :
    (event.updateTime = none ∧ s'.debugfs = s.debugfs ∧
        ∀ value, label ≠ some (.setValidTime value)) ∨
      (event = .terminate ∧ s.closed = false ∧ s'.debugfs = s.debugfs.setToZero ∧
        label = some (.setValidTime 0)) ∨
      ∃ t garbage behind, event.updateTime = some t ∧ label = some (.setValidTime t) ∧
        s'.debugfs = (stValidTimeWrite s.debugfs 0 (longText t) garbage behind).1 := by
  cases hstep with
  | unread hserving hread =>
      refine Or.inl ⟨?_, rfl, nofun⟩
      rw [DaemonEvent.updateTime, hread]
      rfl
  | heartbeat hserving hidle hread htype =>
      refine Or.inl ⟨?_, rfl, nofun⟩
      rw [DaemonEvent.updateTime_of_read hread, htype]
      rfl
  | @update _ _ _ file request debugfs hserving hread htype hupdate =>
      refine Or.inr (Or.inr ⟨request.timeout, file.garbage, file.behind, ?_, rfl, ?_⟩)
      · rw [DaemonEvent.updateTime_of_read hread, if_pos htype]
      · rw [SenderDaemon.reply_toSenderApi]
        exact safetimerUpdateValidTime_eq_ok hupdate
  | unknown hserving hread htype =>
      refine Or.inl ⟨?_, by rw [SenderDaemon.reply_toSenderApi], nofun⟩
      rw [DaemonEvent.updateTime_of_read hread, if_neg htype]
  | finish hserving hevent hdebugfs hsend =>
      refine Or.inl ⟨rfl, by rw [SenderDaemon.reply_toSenderApi]; exact hdebugfs, ?_⟩
      rcases hevent with rfl | rfl <;> exact nofun
  | kernel hevent hdebugfs hsend =>
      refine Or.inl ⟨rfl, hdebugfs, fun value hlabel => ?_⟩
      exact KernelEvent.sendEvent_ne hevent value (Option.some.inj hlabel)
  | advance | exit => exact Or.inl ⟨rfl, rfl, nofun⟩
  | terminate hopen => exact Or.inr (Or.inl ⟨rfl, hopen, rfl, rfl⟩)

/-- What the file then holds behind the texts, and the time that it means. -/
theorem DaemonStep.text (hzeroed : s.debugfs.ZeroedBehind (updateTimes pre))
    {event : DaemonEvent} (hextends : event.Extends pre) {label : Option SendEvent}
    (hstep : DaemonStep s event s' label) :
    s'.debugfs.ZeroedBehind (updateTimes (pre ++ [event])) ∧
      ∀ value, label = some (.setValidTime value) → s'.debugfs.stValidTime = value := by
  rw [updateTimes_concat]
  rcases hstep.file with ⟨htime, hsame, hlabel⟩ | ⟨rfl, _, hclear, rfl⟩ |
    ⟨t, garbage, behind, htime, rfl, hwrite⟩
  · rw [htime, hsame, Option.toList_none, List.append_nil]
    exact ⟨hzeroed, fun value heq => absurd heq (hlabel value)⟩
  · rw [hclear]
    refine ⟨StDebugfs.zeroedBehind_of_zeroed _ rfl, ?_⟩
    rintro value ⟨⟩
    rfl
  · obtain ⟨hnonneg, hgrowing⟩ := hextends t htime
    rw [htime, hwrite, Option.toList_some]
    refine ⟨hzeroed.write t garbage behind, ?_⟩
    rintro value ⟨⟩
    exact hzeroed.stValidTime_eq hnonneg hgrowing garbage behind

/-- One event, if the time that it sets is the one that the file then means. -/
theorem DaemonStep.simulates {event : DaemonEvent} {label : Option SendEvent}
    (hstep : DaemonStep s event s' label)
    (hvalue : ∀ value, label = some (.setValidTime value) → s'.debugfs.stValidTime = value) :
    s.Simulates s' label := by
  rcases hstep.host with ⟨hsend, hlabel | ⟨value, hlabel⟩⟩ | ⟨sendEvent, hlabel, hsend⟩
  · -- neither the host nor the file has changed
    refine Or.inl ⟨hlabel, ?_⟩
    rcases hstep.file with ⟨_, hsame, _⟩ | ⟨_, _, _, hset⟩ | ⟨t, _, _, _, hset, _⟩
    · rw [SenderApi.sending, SenderApi.sending, hsend, hsame]
    · cases hlabel.symm.trans hset
    · cases hlabel.symm.trans hset
  · refine Or.inr ⟨_, hlabel, ?_⟩
    simp only [sendStep, SenderApi.sending, hsend, hvalue value hlabel]
  · exact Or.inr ⟨sendEvent, hlabel, hsend⟩

theorem everyStep_extends {events : List DaemonEvent} (hnonneg : ∀ t ∈ updateTimes events, 0 ≤ t)
    (hgrowing : (updateTimes events).Pairwise fun t t' =>
      (longText t).length ≤ (longText t').length) (init : SenderDaemon) :
    EveryStep daemonStep (fun pre _ event => event.Extends pre) init events := by
  intro pre event post _ _ hsplit _ t ht
  have htimes : updateTimes events = updateTimes pre ++ t :: updateTimes post := by
    rw [hsplit, updateTimes, List.filterMap_append, List.filterMap_cons_some ht]
    rfl
  rw [htimes] at hnonneg hgrowing
  refine ⟨hnonneg t (by simp), ?_⟩
  intro t' ht'
  exact (List.pairwise_append.mp hgrowing).2.2 t' ht' t List.mem_cons_self

end Simulation

/-- As long as no requested valid time has fewer digits than one before, the datagrams,
the text in the file and its parser come to what they are meant for: each request for a
valid time sets it for the hook. -/
theorem senderDaemon_refines_sending (events : List DaemonEvent)
    (hnonneg : ∀ t ∈ updateTimes events, 0 ≤ t)
    (hgrowing : (updateTimes events).Pairwise fun t t' =>
      (longText t).length ≤ (longText t').length)
    (s : SenderDaemon) (labels : List (Option SendEvent))
    (hrun : runEvents daemonStep .initial events = .ok (s, labels)) :
    ∃ outputs, runEvents sendStep .initial (labels.filterMap id) = .ok (s.sending, outputs) := by
  obtain ⟨send, outputs, hsend, rfl, _⟩ := (everyStep_extends hnonneg hgrowing _).simulation id
    (fun pre s send => send = s.sending ∧ s.debugfs.ZeroedBehind (updateTimes pre))
    ⟨rfl, StDebugfs.zeroedBehind_of_zeroed _ rfl⟩ (by
      rintro pre s _ event next label ⟨rfl, hzeroed⟩ hextends hstep
      have hcases := daemonStep_eq_ok hstep
      obtain ⟨hnext, hvalue⟩ := hcases.text hzeroed hextends
      rcases hcases.simulates hvalue with ⟨hlabel, hquiet⟩ | ⟨sendEvent, hlabel, hsend⟩
      · exact Or.inl ⟨hlabel, hquiet.symm, hnext⟩
      · exact Or.inr ⟨sendEvent, _, (), hlabel, hsend, rfl, hnext⟩) hrun
  exact ⟨outputs, hsend⟩

/-- The times 900 and 1500 are set, a heartbeat is confirmed, another one times out, and a
datagram that is too short ends the server. -/
def daemonRun : List DaemonEvent :=
  [.request (longBytes 1 ++ longBytes 900 ++ longBytes 0) true true openFile,
    .request (longBytes 0 ++ longBytes 100 ++ longBytes 1) true true openFile,
    .kernel (.tick 800), .kernel (.route 0), .kernel (.consume 0), .kernel (.deliver 0),
    .finish true, .request (longBytes 1 ++ longBytes 1500 ++ longBytes 0) true true openFile,
    .request (longBytes 0 ++ longBytes 100 ++ longBytes 0) true true openFile,
    .kernel (.advance ⟨100000000, 0⟩), .finish true, .request [] true true openFile,
    .kernel (.tick 1600)]

theorem senderDaemon_refines_sending_daemonRun :
    ∃ s labels outputs, runEvents daemonStep .initial daemonRun = .ok (s, labels) ∧
      runEvents sendStep .initial (labels.filterMap id) = .ok (s.sending, outputs) ∧
      s.sending.stValidTime = 1500 := by
  have hpart : (runEvents daemonStep .initial daemonRun).map
      (fun result => result.1.sending.stValidTime) = .ok 1500 := by decide +kernel
  have htimes : updateTimes daemonRun = [900, 1500] := by decide +kernel
  have hnonneg : ∀ t ∈ updateTimes daemonRun, 0 ≤ t := by
    rw [htimes, List.forall_mem_cons, List.forall_mem_singleton]
    decide
  obtain ⟨⟨s, labels⟩, hrun, hvalid⟩ := exists_ok_of_map_eq hpart
  obtain ⟨outputs, hsend⟩ := senderDaemon_refines_sending daemonRun hnonneg
    (by decide +kernel) s labels hrun
  exact ⟨s, labels, outputs, hrun, hsend, hvalid⟩

section Silence

variable {s s' : SenderDaemon}

theorem onlyHeartbeats_of_run {events : List DaemonEvent} {labels : List (Option SendEvent)}
    (hrun : runEvents daemonStep .initial events = .ok (s, labels)) :
    s.sending.OnlyHeartbeats := by
  refine runEvents_invariant (fun _ s _ => s.sending.OnlyHeartbeats) ?_ ?_ hrun
  · intro d hd
    cases hd
  · intro pre state early event next label _ hstate hstep
    rcases (daemonStep_eq_ok hstep).host with ⟨hsend, _⟩ | ⟨sendEvent, _, hsend⟩
    · intro d hd
      rw [SenderApi.sending, hsend] at hd
      exact hstate d hd
    · exact hstate.step (sendStep_eq_ok hsend)

/-- The loop has been left and the valid time is over. -/
structure SenderDaemon.Silent (s : SenderDaemon) : Prop where
  ended : s.phase ≠ .serving
  gate : s.sending.GateClosed
  heartbeats : s.sending.OnlyHeartbeats

/-- In such a state only the kernel does something, and the hook drops what reaches it. -/
theorem SenderDaemon.Silent.step (hs : s.Silent) {event : DaemonEvent}
    (hevent : event ≠ .terminate) {label : Option SendEvent}
    (hstep : DaemonStep s event s' label) :
    s'.Silent ∧ ∀ call, .accepted call ∈ s'.send.log → .accepted call ∈ s.send.log := by
  cases hstep with
  | unread hserving | heartbeat hserving | update hserving | unknown hserving | finish hserving =>
      exact absurd hserving hs.ended
  | kernel hkernel hdebugfs hsend =>
      have hhost := sendStep_eq_ok hsend
      refine ⟨⟨hs.ended, ?_, hs.heartbeats.step hhost⟩, ?_⟩
      · exact hhost.gateClosed (KernelEvent.sendEvent_ne hkernel) hs.gate
      · exact fun call hmem => hhost.mem_log_accepted hs.gate hs.heartbeats hmem
  | advance => exact ⟨⟨hs.ended, hs.gate, hs.heartbeats⟩, fun _ hmem => hmem⟩
  | terminate => exact absurd rfl hevent
  | exit => exact ⟨⟨nofun, hs.gate, hs.heartbeats⟩, fun _ hmem => hmem⟩

end Silence

/-- When the loop of the server has been left or the process has ended, nothing extends the
valid time any more: once it is over, no heartbeat passes the hook, unless a termination of
the process still clears it.  What has passed the hook before may still be sent. -/
theorem ended_daemon_falls_silent (pre post : List DaemonEvent) (s s' : SenderDaemon)
    (labels labels' : List (Option SendEvent))
    (hpre : runEvents daemonStep .initial pre = .ok (s, labels)) (hended : s.phase ≠ .serving)
    (hlimited : s.debugfs.stValidTime ≠ 0) (hlate : s.debugfs.stValidTime < s.send.bootTime)
    (hpost : runEvents daemonStep s post = .ok (s', labels'))
    (hrunning : ∀ event ∈ post, event ≠ .terminate) (call : Nat)
    (haccepted : .accepted call ∈ s'.send.log) : .accepted call ∈ s.send.log := by
  have hgate : s.sending.GateClosed :=
    s.sending.gateClosed_iff.mpr ⟨hlimited, Int64.lt_iff_toInt_lt.mp hlate⟩
  have hsilent : s.Silent := ⟨hended, hgate, onlyHeartbeats_of_run hpre⟩
  have hevery : EveryStep daemonStep (fun _ _ event => event ≠ .terminate) s post := by
    intro before event after _ _ hsplit _
    exact hrunning event (by simp [hsplit])
  refine (hevery.invariant (fun _ state _ => state.Silent ∧
    ∀ call, .accepted call ∈ state.send.log → .accepted call ∈ s.send.log)
    ⟨hsilent, fun _ hmem => hmem⟩ ?_ hpost).2 call haccepted
  rintro before state early event next label _ ⟨hstate, hlog⟩ hevent hstep
  obtain ⟨hnext, hmore⟩ := hstate.step hevent (daemonStep_eq_ok hstep)
  exact ⟨hnext, fun call hmem => hlog call (hmore call hmem)⟩

/-- The second heartbeat of the run reaches the hook after the valid time. -/
theorem ended_daemon_falls_silent_daemonRun :
    ∃ s s' labels labels', runEvents daemonStep .initial daemonRun = .ok (s, labels) ∧
      runEvents daemonStep s [.kernel (.route 0)] = .ok (s', labels') ∧
      ∀ call, .accepted call ∈ s'.send.log → .accepted call ∈ s.send.log := by
  have hpart : (runEvents daemonStep .initial daemonRun).map
      (fun result => (result.1.phase, result.1.debugfs.stValidTime, result.1.send.bootTime)) =
        .ok (.ended, 1500, 1600) := by decide +kernel
  obtain ⟨⟨s, labels⟩, hrun, hvalues⟩ := exists_ok_of_map_eq hpart
  simp only [Prod.mk.injEq] at hvalues
  obtain ⟨hended, hvalid, hboot⟩ := hvalues
  have hmore : ((runEvents daemonStep .initial (daemonRun ++ [.kernel (.route 0)])).map
      (fun result => result.1.phase)) = .ok .ended := by decide +kernel
  obtain ⟨⟨s', all⟩, hrun', _⟩ := exists_ok_of_map_eq hmore
  obtain ⟨middle, early, labels', hfirst, hpost, _⟩ := runEvents_append_eq_ok_iff.mp hrun'
  obtain ⟨rfl, _⟩ := Prod.mk.inj (Except.ok.inj (hrun.symm.trans hfirst))
  refine ⟨s, s', labels, labels', hrun, hpost, ?_⟩
  exact ended_daemon_falls_silent daemonRun [.kernel (.route 0)] s s' labels labels' hrun
    (by rw [hended]; decide) (by rw [hvalid]; decide) (by rw [hvalid, hboot]; decide) hpost (by simp)

/-- The handler that ends the process clears the file, and with it the gate: the same
heartbeat gets out. -/
example :
    (runEvents daemonStep .initial (daemonRun ++ [.terminate, .kernel (.route 0)])).map
      (fun result => result.1.send.log.getLast?) = .ok (some (.accepted 1)) := by
  decide +kernel

/-- `destroy_st_sender_api` is not undone. -/
theorem DaemonStep.closed {s s' : SenderDaemon} {event : DaemonEvent} {label : Option SendEvent}
    (hstep : DaemonStep s event s' label) (hclosed : s.closed = true) : s'.closed = true := by
  cases hstep with
  | unread | heartbeat | kernel | advance | exit => exact hclosed
  | update | unknown | finish => rw [SenderDaemon.reply_closed]; exact hclosed
  | terminate => rfl

/-- The handler clears the file before it stops the server.  What the gate is left with is
the last valid time that was requested in between, whenever the process ends. -/
theorem terminated_daemon_validTime (pre post : List DaemonEvent) (s : SenderDaemon)
    (labels : List (Option SendEvent))
    (hrun : runEvents daemonStep .initial (pre ++ .terminate :: post) = .ok (s, labels))
    (hnonneg : ∀ t ∈ updateTimes post, 0 ≤ t)
    (hgrowing : (updateTimes post).Pairwise fun t t' =>
      (longText t).length ≤ (longText t').length) :
    s.debugfs.stValidTime = (updateTimes post).getLastD 0 := by
  obtain ⟨_, _, _, _, hrest, _⟩ := runEvents_append_eq_ok_iff.mp hrun
  obtain ⟨cleared, _, _, hclear, hpost, _⟩ := runEvents_cons_eq_ok_iff.mp hrest
  cases daemonStep_eq_ok hclear
  -- the invariant behind the clear
  refine ((everyStep_extends hnonneg hgrowing _).invariant (fun done state _ =>
    state.closed = true ∧ state.debugfs.ZeroedBehind (updateTimes done) ∧
      state.debugfs.stValidTime = (updateTimes done).getLastD 0)
    ⟨rfl, StDebugfs.zeroedBehind_of_zeroed _ rfl, rfl⟩ ?_ hpost).2.2
  rintro done state early event next label _ ⟨hclosed, hzeroed, hvalid⟩ hextends hlast
  have hstep := daemonStep_eq_ok hlast
  obtain ⟨hzeroed', hvalue⟩ := hstep.text hzeroed hextends
  refine ⟨hstep.closed hclosed, hzeroed', ?_⟩
  rw [updateTimes_concat]
  rcases hstep.file with ⟨htime, hsame, _⟩ | ⟨_, hopen, _⟩ | ⟨t, _, _, htime, hlabel, _⟩
  · rw [htime, hsame, hvalid, Option.toList_none, List.append_nil]
  · cases hclosed.symm.trans hopen
  · rw [htime, hvalue t hlabel, Option.toList_some, List.getLastD_concat]

/-- A request comes between the clear and the end of the process, so that the gate is closed
for good when its time is over. -/
theorem terminated_daemon_validTime_updated :
    ∃ s labels, runEvents daemonStep .initial (daemonRun.take 7 ++ .terminate ::
        [.request (longBytes 1 ++ longBytes 1500 ++ longBytes 0) true true openFile, .exit]) =
        .ok (s, labels) ∧ s.phase = .exited ∧ s.debugfs.stValidTime = 1500 := by
  have hpart : (runEvents daemonStep .initial (daemonRun.take 7 ++ .terminate ::
      [.request (longBytes 1 ++ longBytes 1500 ++ longBytes 0) true true openFile, .exit])).map
        (fun result => result.1.phase) = .ok .exited := by decide +kernel
  have htimes : updateTimes
      [.request (longBytes 1 ++ longBytes 1500 ++ longBytes 0) true true openFile, .exit] =
        [1500] := by decide +kernel
  obtain ⟨⟨s, labels⟩, hrun, hexited⟩ := exists_ok_of_map_eq hpart
  have hvalid := terminated_daemon_validTime _ _ s labels hrun
    (by rw [htimes, List.forall_mem_singleton]; decide) (by rw [htimes]; decide +kernel)
  rw [htimes] at hvalid
  exact ⟨s, labels, hrun, hexited, hvalid⟩

end SafeTimer
