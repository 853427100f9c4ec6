/-
The request servers of SafeTimer, the `server_routine`s of src/st_receiver.c and of
src/st_sender.c, as loops over the datagrams that reach them, and the datagrams of
their clients for HDFS (hdfs/StSenderWrapper.java, hdfs/StReceiverWrapper.java).
-/
import SafeTimer.RequestFormat
import SafeTimer.RequestLoop
import SafeTimer.SenderApi

namespace SafeTimer

/-- `ST_RECEIVER_REQUEST_MSGSIZE`, and `ST_SENDER_REQUEST_MSGSIZE` likewise. -/
def requestMsgSize : Nat := 24

variable {Table : Type → Type}

/-- The `server_routine` of st_receiver.  The heartbeats that `process_packet` enters
come in between. -/
def receiverServer (ht : HashTable Table) :
    RequestServer Fault (HeartbeatTables Table) (List UInt8) CheckRequest Int
      HeartbeatCall where
  read := readRequest
  accepts request := decide (0 ≤ request.appId)
  answer tables request := do
    let reply ← safetimerCheck ht tables request.appId request.nodeIp request.start
    return (tables, reply)
  background tables call := receiveHeartbeat ht tables call.appId call.nodeIp call.state

structure SenderRequest where
  requestType : Int64
  timeout : Int64
  nodeId : Int64
deriving DecidableEq

/-- The `server_routine` of st_sender on a received datagram; `none` leaves the loop. -/
def readSenderRequest (datagram : List UInt8) : Option SenderRequest :=
  match readLong datagram 0, readLong datagram 8, readLong datagram 16 with
  | .ok requestType, .ok timeout, .ok nodeId => some ⟨requestType, timeout, nodeId⟩
  | _, _, _ => none

/-- What a request to st_sender meets: the outcome of `sendto` for the heartbeat, what happens
while the call waits, and the file of the valid time. -/
structure CallEnv where
  sendOk : Bool
  during : List KernelEvent
  file : ValidTimeFile

/-- The effect of a request and its reply. -/
def SenderApi.serve (s : SenderApi) (request : SenderRequest) (env : CallEnv) :
    Except SenderStop (SenderApi × Int64) :=
  if request.requestType = 0 then
    match safetimerSendHeartbeat s request.timeout request.nodeId.toInt32 env.sendOk
        env.during with
    | .error stop => .error stop
    | .ok (s, ret) => .ok (s, ret.toInt64)
  else if request.requestType = 1 then
    match safetimerUpdateValidTime s.debugfs request.timeout env.file with
    | .error fault => .error (.update fault)
    | .ok debugfs => .ok ({ s with debugfs := debugfs }, 0)
  else .ok (s, 0)

/-- The `server_routine` of st_sender.  Between the requests the kernel goes on. -/
def senderServer :
    RequestServer SenderStop SenderApi (List UInt8 × CallEnv) (SenderRequest × CallEnv) Int64
      KernelEvent where
  read datagram := (readSenderRequest datagram.1).map fun request => (request, datagram.2)
  accepts _ := true
  answer s call := s.serve call.1 call.2
  background s event := .ok (s.background event)

/-- The call for a request returns.  A heartbeat has its signal, or its deadline has come on
CLOCK_REALTIME; a valid time fits into the buffer, and its file can be opened. -/
def SenderApi.Returns (s : SenderApi) (call : SenderRequest × CallEnv) : Prop :=
  if call.1.requestType = 0 then
    let woken := call.2.during.foldl SenderApi.background
      (s.sendHeartbeat call.1.nodeId.toInt32 call.2.sendOk)
    woken.send.sentWait ≠ 0 ∨ call.1.timeout.toInt * 1000000 ≤ woken.now.realtime
  else if call.1.requestType = 1 then
    -10 ^ 18 < call.1.timeout.toInt ∧ call.2.file.opened = true
  else True

instance (s : SenderApi) (call : SenderRequest × CallEnv) : Decidable (s.Returns call) :=
  inferInstanceAs (Decidable (ite _ (_ ∨ _) (ite _ (_ ∧ _) _)))

/-- The datagram is a well-formed request to st_receiver. -/
def IsCheckRequest (datagram : List UInt8) : Prop :=
  requestMsgSize ≤ datagram.length ∧ 0 ≤ longAt datagram 0

instance : DecidablePred IsCheckRequest :=
  fun _ => inferInstanceAs (Decidable (_ ∧ _))

/-- The datagram is a well-formed request to st_sender. -/
def IsSenderRequest (datagram : List UInt8) : Prop :=
  requestMsgSize ≤ datagram.length

instance : DecidablePred IsSenderRequest :=
  fun _ => inferInstanceAs (Decidable (_ ≤ _))

/-- Behind a datagram that is too short there is no request any more. -/
def NoRequestBehindShort (IsRequest : List UInt8 → Prop) (datagrams : List (List UInt8)) : Prop :=
  datagrams.Pairwise fun earlier later => earlier.length < requestMsgSize → ¬ IsRequest later

instance (IsRequest : List UInt8 → Prop) [DecidablePred IsRequest]
    (datagrams : List (List UInt8)) : Decidable (NoRequestBehindShort IsRequest datagrams) :=
  inferInstanceAs (Decidable (List.Pairwise _ _))

theorem readLong_of_lt {packet : List UInt8} {offset : Nat}
    (hlt : packet.length < offset + 8) : readLong packet offset = .error .packetRead := by
  rw [readLong, if_neg (Nat.not_le.mpr hlt)]

/-- `recvfrom` returns the full size for datagrams that have it. -/
theorem readRequest_of_le {datagram : List UInt8} (hle : requestMsgSize ≤ datagram.length) :
    ∃ nodeIp, readRequest datagram = some ⟨longAt datagram 0, nodeIp, longAt datagram 16⟩ := by
  rw [requestMsgSize] at hle
  have hbyte : ∀ i < 24, readByte datagram i = .ok (datagram.getD i 0) :=
    fun i hi => readByte_of_lt (by omega)
  rw [readRequest, readLong_of_le (by omega), hbyte 8 (by decide), hbyte 9 (by decide),
    hbyte 10 (by decide), hbyte 11 (by decide), readLong_of_le (by omega)]
  exact ⟨_, rfl⟩

theorem readRequest_of_short {datagram : List UInt8}
    (hlt : datagram.length < requestMsgSize) : readRequest datagram = none := by
  rw [requestMsgSize] at hlt
  simp [readRequest, readLong_of_lt (show datagram.length < 16 + 8 from hlt)]

theorem readSenderRequest_of_le {datagram : List UInt8}
    (hle : requestMsgSize ≤ datagram.length) :
    readSenderRequest datagram =
      some ⟨longAt datagram 0, longAt datagram 8, longAt datagram 16⟩ := by
  rw [requestMsgSize] at hle
  rw [readSenderRequest, readLong_of_le (by omega), readLong_of_le (by omega),
    readLong_of_le (by omega)]

theorem readSenderRequest_of_short {datagram : List UInt8}
    (hlt : datagram.length < requestMsgSize) : readSenderRequest datagram = none := by
  rw [requestMsgSize] at hlt
  simp [readSenderRequest, readLong_of_lt (show datagram.length < 16 + 8 from hlt)]

/-- A server whose loop ends on exactly the short datagrams. -/
theorem RequestServer.Lawful.answers_iff_noRequestBehindShort {R S D Q A B : Type}
    {server : RequestServer R S D Q A B} {Inv : S → Prop} {Returns : S → Q → Prop}
    (hlawful : server.Lawful Inv Returns) {init : S} (hinv : Inv init) (bytes : D → List UInt8)
    {IsRequest : List UInt8 → Prop}
    (hshort : ∀ datagram, server.read datagram = none ↔
      (bytes datagram).length < requestMsgSize)
    (hrequest : ∀ datagram, server.request (.inr datagram : B ⊕ D) = none ↔
      ¬ IsRequest (bytes datagram)) (inputs : List (B ⊕ D)) :
    server.Answers init inputs ↔
      NoRequestBehindShort IsRequest ((inputs.filterMap Sum.getRight?).map bytes) ∧
        server.CallsReturn Returns init true inputs := by
  rw [hlawful.answers_iff hinv, NoRequestBehindShort, List.pairwise_map, List.pairwise_filterMap]
  apply and_congr_left'
  apply List.Pairwise.iff
  intro earlier later
  constructor
  · intro hbehind short hearlier datagram hlater hlt
    rw [Sum.getRight?_eq_some_iff] at hearlier hlater
    subst hearlier hlater
    exact (hrequest datagram).mp (hbehind ((hshort short).mpr hlt))
  · intro hbehind hunreadable
    rcases earlier with event | short
    · exact hunreadable.elim
    · rcases later with event | datagram
      · rfl
      · exact (hrequest datagram).mpr
          (hbehind short rfl datagram rfl ((hshort short).mp hunreadable))

theorem receiverServer_answer_eq_ok {ht : HashTable Table} {tables next : HeartbeatTables Table}
    {request : CheckRequest} {reply : Int}
    (hanswer : (receiverServer ht).answer tables request = .ok (next, reply)) :
    next = tables ∧
      safetimerCheck ht tables request.appId request.nodeIp request.start = .ok reply := by
  simp only [receiverServer] at hanswer
  cases hcheck : safetimerCheck ht tables request.appId request.nodeIp request.start with
  | error fault =>
      rw [hcheck] at hanswer
      cases hanswer
  | ok verdict =>
      rw [hcheck] at hanswer
      cases hanswer
      exact ⟨rfl, rfl⟩

/-- A check always returns. -/
theorem receiverServer_lawful {ht : HashTable Table} (hlawful : ht.Lawful) :
    (receiverServer ht).Lawful (fun tables => ∃ states, HoldsStates ht tables states)
      (fun _ _ => True) where
  returns_iff := by
    rintro tables request ⟨states, hholds⟩
    have hcheck := hholds.safetimerCheck_eq request.appId request.nodeIp request.start
    refine iff_of_true trivial ⟨tables, verdict (states request.appId request.nodeIp) request.start,
      ?_⟩
    simp only [receiverServer, hcheck]
    rfl
  answer_inv := by
    rintro tables request next reply hholds hanswer
    rw [(receiverServer_answer_eq_ok hanswer).1]
    exact hholds
  background := by
    rintro tables call ⟨states, hholds⟩
    obtain ⟨next, hnext, hholdsNext⟩ := hholds.receiveHeartbeat hlawful call
    exact ⟨next, hnext, _, hholdsNext⟩

theorem receiverServer_read_eq_none_iff (ht : HashTable Table) (datagram : List UInt8) :
    (receiverServer ht).read datagram = none ↔ datagram.length < requestMsgSize := by
  constructor
  · intro hread
    by_contra hlong
    obtain ⟨nodeIp, hsome⟩ := readRequest_of_le (Nat.not_lt.mp hlong)
    cases hsome.symm.trans hread
  · exact readRequest_of_short

theorem receiverServer_request_eq_none_iff (ht : HashTable Table) (datagram : List UInt8) :
    (receiverServer ht).request (.inr datagram) = none ↔ ¬ IsCheckRequest datagram := by
  rw [IsCheckRequest]
  by_cases hlt : datagram.length < requestMsgSize
  · have hread := (receiverServer_read_eq_none_iff ht datagram).mpr hlt
    simp [RequestServer.request_unreadable hread, hlt]
  · obtain ⟨nodeIp, hread⟩ := readRequest_of_le (Nat.not_lt.mp hlt)
    simp [RequestServer.request, receiverServer, hread, Option.filter, Nat.not_lt.mp hlt]

theorem SenderApi.returns_iff {s : SenderApi} {call : SenderRequest × CallEnv} :
    s.Returns call ↔ ∃ next reply, s.serve call.1 call.2 = .ok (next, reply) := by
  obtain ⟨request, env⟩ := call
  rw [Returns, serve]
  by_cases hheartbeat : request.requestType = 0
  · rw [if_pos hheartbeat, if_pos hheartbeat, ← @awaitSignal_isSome_iff _ s.send.calls,
      safetimerSendHeartbeat]
    cases SenderApi.awaitSignal _ s.send.calls request.timeout with
    | none => simp
    | some result => simp
  · rw [if_neg hheartbeat, if_neg hheartbeat]
    by_cases hupdate : request.requestType = 1
    · rw [if_pos hupdate, if_pos hupdate, ← exists_safetimerUpdateValidTime_eq_ok (s := s.debugfs)]
      cases safetimerUpdateValidTime s.debugfs request.timeout env.file with
      | error fault => simp
      | ok debugfs => simp
    · rw [if_neg hupdate, if_neg hupdate]
      exact iff_of_true trivial ⟨_, _, rfl⟩

theorem senderServer_lawful : senderServer.Lawful (fun _ => True) SenderApi.Returns where
  returns_iff _ _ _ := SenderApi.returns_iff
  answer_inv _ _ _ _ _ _ := trivial
  background _ _ _ := ⟨_, rfl, trivial⟩

theorem senderServer_read_eq_none_iff (datagram : List UInt8 × CallEnv) :
    senderServer.read datagram = none ↔ datagram.1.length < requestMsgSize := by
  simp only [senderServer, Option.map_eq_none_iff]
  constructor
  · intro hread
    by_contra hlong
    cases (readSenderRequest_of_le (Nat.not_lt.mp hlong)).symm.trans hread
  · exact readSenderRequest_of_short

theorem senderServer_request_eq_none_iff (datagram : List UInt8 × CallEnv) :
    senderServer.request (.inr datagram) = none ↔ ¬ IsSenderRequest datagram.1 := by
  rw [IsSenderRequest, Nat.not_le, ← senderServer_read_eq_none_iff]
  simp [RequestServer.request, senderServer, Option.eq_none_iff_forall_ne_some]

/-- The requests are answered as if there were no malformed datagrams exactly when no request
comes after a datagram of less than three longs and, on the side of st_sender, all calls
return. -/
theorem requestsAnswered_iff {ht : HashTable Table} (hlawful : ht.Lawful) (init : SenderApi) :
    (∀ inputs, (receiverServer ht).Answers (.empty ht) inputs ↔
        NoRequestBehindShort IsCheckRequest (inputs.filterMap Sum.getRight?)) ∧
      ∀ inputs, senderServer.Answers init inputs ↔
        NoRequestBehindShort IsSenderRequest ((inputs.filterMap Sum.getRight?).map Prod.fst) ∧
          senderServer.CallsReturn SenderApi.Returns init true inputs := by
  constructor
  · intro inputs
    have hreturn : (receiverServer ht).CallsReturn (fun _ _ => True) (.empty ht) true inputs :=
      fun _ _ _ _ _ _ _ _ _ _ => trivial
    rw [(receiverServer_lawful hlawful).answers_iff_noRequestBehindShort
      ⟨_, hlawful.holdsStates_empty⟩ id (receiverServer_read_eq_none_iff ht)
      (receiverServer_request_eq_none_iff ht), List.map_id]
    exact and_iff_left hreturn
  · exact senderServer_lawful.answers_iff_noRequestBehindShort trivial Prod.fst
      senderServer_read_eq_none_iff senderServer_request_eq_none_iff

/-- A file that can be opened. -/
def openFile : ValidTimeFile := ⟨true, 7, [1]⟩

/-- A request with a negative application is skipped, and a short datagram comes last.  The
first heartbeat gets its signal and the second one times out. -/
theorem requestsAnswered_skip_and_end :
    (receiverServer entryList).Answers (.empty entryList)
        [.inr (longBytes (-1) ++ longBytes 0 ++ longBytes 0), .inr (requestBytes 300),
          .inl ⟨7, inetNtop ⟨10, 0, 0, 1⟩, 100⟩, .inr (requestBytes 300), .inr [1]] ∧
      senderServer.Answers .initial
        [.inr (longBytes 9 ++ longBytes 0 ++ longBytes 0, ⟨true, [], openFile⟩),
          .inr (longBytes 1 ++ longBytes 500 ++ longBytes 0, ⟨true, [], openFile⟩),
          .inr (longBytes 0 ++ longBytes 100 ++ longBytes 1,
            ⟨true, [.route 0, .consume 0, .deliver 0], openFile⟩),
          .inl (.tick 600),
          .inr (longBytes 0 ++ longBytes 100 ++ longBytes 1,
            ⟨true, [.route 0, .advance ⟨100000000, 0⟩], openFile⟩),
          .inr ([], ⟨true, [], openFile⟩)] := by
  have hanswered := requestsAnswered_iff entryList_lawful .initial
  exact ⟨(hanswered.1 _).mpr (by decide), (hanswered.2 _).mpr
    ⟨by decide, everyStep_iff_checkSteps.mpr (by decide +kernel)⟩⟩

/-- An empty datagram silences both servers. -/
theorem empty_datagram_ends_servers :
    ¬ (receiverServer entryList).Answers (.empty entryList)
        [.inr [], .inr (requestBytes 300)] ∧
      ¬ senderServer.Answers .initial
        [.inr ([], ⟨true, [], openFile⟩),
          .inr (longBytes 1 ++ longBytes 500 ++ longBytes 0, ⟨true, [], openFile⟩)] := by
  constructor
  · rw [(receiverServer_lawful entryList_lawful).answers_iff_noRequestBehindShort
      ⟨_, entryList_lawful.holdsStates_empty⟩ id (receiverServer_read_eq_none_iff entryList)
      (receiverServer_request_eq_none_iff entryList)]
    exact fun hanswered => absurd hanswered.1 (by decide)
  · rw [senderServer_lawful.answers_iff_noRequestBehindShort trivial Prod.fst
      senderServer_read_eq_none_iff senderServer_request_eq_none_iff]
    exact fun hanswered => absurd hanswered.1 (by decide)

/-- One turn of the loop is what the host does with the datagram when the reply can be
sent: `recvRequest`, and the check if there is one. -/
theorem Host.recvRequest_refines_step {ht : HashTable Table} {h : Host Table}
    (hrunning : h.serverRunning = true) (hidle : h.pendingCheck = none)
    {datagram : List UInt8} {tables : HeartbeatTables Table} {running : Bool}
    {output : Option (CheckRequest × Int)}
    (hstep : (receiverServer ht).step (h.receiver.tables, true) (.inr datagram) =
      .ok ((tables, running), output)) :
    ∃ checks h' outputs,
      runEvents (hostStep ht) h (.recvRequest datagram :: checks) = .ok (h', outputs) ∧
      h'.receiver.tables = tables ∧ h'.serverRunning = running ∧ h'.pendingCheck = none ∧
      h'.replies = h.replies ++ (output.map Prod.snd).toList := by
  have hrecv : hostStep ht h (.recvRequest datagram) =
      .ok ((h.recvRequest datagram).tick, ()) := by
    simp [hostStep, hrunning, hidle]
  rw [RequestServer.step] at hstep
  split at hstep
  · -- the loop is left
    rename_i hread
    cases hstep
    rw [Host.recvRequest_of_unread hread] at hrecv
    exact ⟨[], _, _, runEvents_cons_eq_ok_iff.mpr ⟨_, _, _, hrecv, rfl, rfl⟩, rfl, rfl, hidle,
      (List.append_nil _).symm⟩
  · rename_i request hread
    split at hstep
    · rename_i haccepts
      split at hstep
      · cases hstep
      · rename_i next reply hanswer
        cases hstep
        obtain ⟨rfl, hcheck⟩ := receiverServer_answer_eq_ok hanswer
        rw [Host.recvRequest_of_accepted hread (of_decide_eq_true haccepts)] at hrecv
        have hchecked : hostStep ht
            ({ h with pendingCheck := some ⟨request, h.time, h.unprocessed⟩ } : Host Table).tick
              (.check true) =
            .ok (({ h with pendingCheck := none, replies := h.replies ++ [reply] } :
              Host Table).tick.tick, ()) := by
          simp only [hostStep, Host.tick, hcheck]
          rfl
        exact ⟨[.check true], _, _, runEvents_cons_eq_ok_iff.mpr ⟨_, _, _, hrecv,
          runEvents_cons_eq_ok_iff.mpr ⟨_, _, _, hchecked, rfl, rfl⟩, rfl⟩, rfl, hrunning, rfl,
          rfl⟩
    · rename_i haccepts
      cases hstep
      have hnegative : ¬ 0 ≤ request.appId := fun happ => haccepts (decide_eq_true happ)
      rw [Host.recvRequest_of_skipped hread hnegative] at hrecv
      exact ⟨[], _, _, runEvents_cons_eq_ok_iff.mpr ⟨_, _, _, hrecv, rfl, rfl⟩, rfl, hrunning,
        hidle, (List.append_nil _).symm⟩

section Wrappers

/-- The datagram of `stSendHeartbeat`. -/
def stSendHeartbeat (timeout : Int64) : List UInt8 :=
  longBytes 0 ++ longBytes timeout

/-- The datagram of `stUpdateValidTime`. -/
def stUpdateValidTime (time : Int64) : List UInt8 :=
  longBytes 1 ++ longBytes time

/-- The datagram of `st_timestamp_check`, for the application 1. -/
def stTimestampCheck (addr : InAddr) : List UInt8 :=
  longBytes 1 ++ longBytes (nodeIpLong addr)

/-- The server of st_sender takes the datagram for this request. -/
def SenderUnderstands (datagram : List UInt8) (requestType argument : Int64) : Prop :=
  ∃ nodeId, readSenderRequest datagram = some ⟨requestType, argument, nodeId⟩

/-- The server of st_receiver replies to the datagram for the node. -/
def ReceiverUnderstands (datagram : List UInt8) (addr : InAddr) : Prop :=
  ∃ request, readRequest datagram = some request ∧ 0 ≤ request.appId ∧
    request.nodeIp = inetNtop addr

theorem two_longs_short (first second : Int64) :
    (longBytes first ++ longBytes second).length < requestMsgSize := by
  rw [List.length_append, longBytes_length, longBytes_length]
  decide

/-- Two longs are one too few for either server. -/
theorem senderServer_ends (state : SenderApi) (first second : Int64) (env : CallEnv) :
    senderServer.step (state, true) (.inr (longBytes first ++ longBytes second, env)) =
      .ok ((state, false), none) := by
  simp only [RequestServer.step, senderServer,
    readSenderRequest_of_short (two_longs_short first second), Option.map_none]

theorem receiverServer_ends (ht : HashTable Table) (tables : HeartbeatTables Table)
    (first second : Int64) :
    (receiverServer ht).step (tables, true) (.inr (longBytes first ++ longBytes second)) =
      .ok ((tables, false), none) := by
  simp only [RequestServer.step, receiverServer,
    readRequest_of_short (two_longs_short first second)]

theorem not_senderUnderstands (first second requestType argument : Int64) :
    ¬ SenderUnderstands (longBytes first ++ longBytes second) requestType argument := by
  rintro ⟨nodeId, hread⟩
  rw [readSenderRequest_of_short (two_longs_short first second)] at hread
  cases hread

theorem not_receiverUnderstands (first second : Int64) (addr : InAddr) :
    ¬ ReceiverUnderstands (longBytes first ++ longBytes second) addr := by
  rintro ⟨request, hread, _⟩
  rw [readRequest_of_short (two_longs_short first second)] at hread
  cases hread

/-- No request of a wrapper is understood: each of them ends the loop of its server
without a reply. -/
theorem wrapper_requests_end_servers (state : SenderApi) (env : CallEnv) (ht : HashTable Table)
    (tables : HeartbeatTables Table) (t : Int64) (addr : InAddr) :
    (¬ SenderUnderstands (stSendHeartbeat t) 0 t ∧
        senderServer.step (state, true) (.inr (stSendHeartbeat t, env)) =
          .ok ((state, false), none)) ∧
      (¬ SenderUnderstands (stUpdateValidTime t) 1 t ∧
        senderServer.step (state, true) (.inr (stUpdateValidTime t, env)) =
          .ok ((state, false), none)) ∧
      ¬ ReceiverUnderstands (stTimestampCheck addr) addr ∧
        (receiverServer ht).step (tables, true) (.inr (stTimestampCheck addr)) =
          .ok ((tables, false), none) :=
  ⟨⟨not_senderUnderstands 0 t 0 t, senderServer_ends state 0 t env⟩,
    ⟨not_senderUnderstands 1 t 1 t, senderServer_ends state 1 t env⟩,
    not_receiverUnderstands 1 (nodeIpLong addr) addr,
    receiverServer_ends ht tables 1 (nodeIpLong addr)⟩

/-- A valid time of 500 and the node 10.0.0.1. -/
theorem wrapper_requests_not_understood :
    ¬ (SenderUnderstands (stSendHeartbeat 500) 0 500 ∧
      SenderUnderstands (stUpdateValidTime 500) 1 500 ∧
      ReceiverUnderstands (stTimestampCheck ⟨10, 0, 0, 1⟩) ⟨10, 0, 0, 1⟩) := by
  rintro ⟨hsend, _⟩
  exact not_senderUnderstands 0 500 0 500 hsend

end Wrappers

end SafeTimer
