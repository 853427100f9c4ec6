/-
The setup of the barrier channel as a whole: the client `setup_rx_queue_flows` and the
server `barrier_server` of one process (src/barrier.c), the module that records the ports,
and the script that steers the rx queues.  A connection takes several steps, and commands of
the script, packets and connections from other hosts come in between.
-/
import SafeTimer.FlowSetup
import SafeTimer.ServerDescriptors

namespace SafeTimer

/-- The connection that `setup_rx_queue_flows` is at: the results of its calls, the port that
the kernel has chosen, and the reply of the server from when it is sent. -/
structure Dial where
  fd : Int32
  setsockopt : Int32
  connect : Int32
  port : UInt16
  reply : Option Int64
deriving DecidableEq

/-- The attempt as the client sees it when `recv` returns. -/
def Dial.attempt (dial : Dial) (received : Int64) : Attempt where
  fd := dial.fd
  setsockopt := dial.setsockopt
  connect := dial.connect
  received := received
  rxQueue := dial.reply.getD (-1)

/-- `sockets` are the open connections of the client, each with its port, and `peers` the
sockets of the server for connections of the client, each with the port at the other end. -/
structure ChannelHost where
  channel : ChannelSetup
  server : ServerHost
  client : FlowSetup
  dial : Option Dial
  sockets : List (Int32 × UInt16)
  peers : List (Nat × UInt16)

/-- `setup_rx_queue_flows` enters its loop; `clear_sport_on_rx_queues` is done. -/
def ChannelHost.start (setup : ChannelSetup) (server : ServerHost) : ChannelHost where
  channel := { setup with checker := setup.checker.writeOp }
  server := server
  client := ⟨fun _ => 0, fun _ => none, .looping 0⟩
  dial := none
  sockets := []
  peers := []

inductive ChannelHostEvent where
  /-- a command of the script, or a packet -/
  | channel (event : ChannelEvent)
  /-- `socket`, `setsockopt` or `connect` fails -/
  | connectFails (a : Attempt)
  | connect (fd setsockopt connect : Int32) (port : UInt16)
  /-- the server accepts the connection of the client and replies; the files that are missing
  cannot be opened, and the process may or may not survive the `fclose` -/
  | accept (fd : Nat) (missing : Fin irqNum → Option Bool)
  /-- the server does something else -/
  | server (event : ServerEvent)
  /-- `recv` of the client returns -/
  | recv (received : Int64)

inductive ChannelHostStop where
  /-- the event cannot happen -/
  | notEnabled
  | serverFault (fault : ServerFault)
  | clientFault (stop : SetupStop)
deriving DecidableEq

def ServerStop.atHost : ServerStop → ChannelHostStop
  | .notEnabled => .notEnabled
  | .fault cause => .serverFault cause

def SetupStop.atHost : SetupStop → ChannelHostStop
  | .notEnabled => .notEnabled
  | .clientFdsAccess => .clientFault .clientFdsAccess
  | .nullStream => .clientFault .nullStream

/-- The descriptor that an event may close. -/
def ServerEvent.closes : ServerEvent → Option Nat
  | .connection .. | .acceptFails => none
  | .received fd _ => some fd
  | .peerCloses fd => some fd

/-- The event has nothing to do with the open connections of the client, on which nothing is
sent during the setup. -/
def ChannelHost.Foreign (s : ChannelHost) : ServerEvent → Prop
  | .connection addr _ _ _ => inetNtop addr ≠ inetNtop barrierClientAddr
  | .acceptFails => True
  | .received fd _ => fd ∉ s.peers.map Prod.fst
  | .peerCloses fd => ∀ peer ∈ s.peers, peer.1 = fd → peer.2 ∉ s.sockets.map Prod.snd

instance (s : ChannelHost) : DecidablePred s.Foreign
  | .connection .. => inferInstanceAs (Decidable (_ ≠ _))
  | .acceptFails => .isTrue trivial
  | .received .. => inferInstanceAs (Decidable (_ ∉ _))
  | .peerCloses _ => inferInstanceAs (Decidable (∀ _ ∈ _, _))

/-- What the server finds when it opens the files of the module. -/
def ChannelHost.files (s : ChannelHost) (missing : Fin irqNum → Option Bool) :
    Fin irqNum → SportFile :=
  fun i =>
    match missing i with
    | some survives => .unopened survives
    | none => .ofSport (s.channel.checker.sports i)

/-- The kernel chooses descriptors and ports that are not in use. -/
def ChannelHost.Fresh (s : ChannelHost) (fd : Int32) (port : UInt16) : Prop :=
  port ≠ 0 ∧ fd ∉ s.sockets.map Prod.fst ∧ port ∉ s.sockets.map Prod.snd

instance (s : ChannelHost) (fd : Int32) (port : UInt16) : Decidable (s.Fresh fd port) :=
  inferInstanceAs (Decidable (_ ∧ _ ∧ _))

def channelHostStep (ring : UInt32 → Fin irqNum) (s : ChannelHost) :
    ChannelHostEvent → Except ChannelHostStop (ChannelHost × Unit)
  | .channel event =>
      if event = .clear then .error .notEnabled
      else
        match channelStep ring s.channel event with
        | .error _ => .error .notEnabled
        | .ok (channel, _) => .ok ({ s with channel := channel }, ())
  | .connectFails a =>
      if s.dial = none ∧ (a.fd < 0 ∨ a.setsockopt < 0 ∨ a.connect < 0) then
        match s.client.step a with
        | .error stop => .error stop.atHost
        | .ok (client, _) => .ok ({ s with client := client }, ())
      else .error .notEnabled
  | .connect fd setsockopt connect port =>
      if s.dial = none ∧ 0 ≤ fd ∧ 0 ≤ setsockopt ∧ 0 ≤ connect ∧ s.Fresh fd port then
        match s.client.control with
        | .returned _ => .error .notEnabled
        | .looping _ =>
            .ok ({ s with
              dial := some ⟨fd, setsockopt, connect, port, none⟩
              sockets := (fd, port) :: s.sockets }, ())
      else .error .notEnabled
  | .accept fd missing =>
      match s.dial with
      | none => .error .notEnabled
      | some dial =>
          if dial.reply ≠ none then .error .notEnabled
          else
            match s.server.step
                (.connection barrierClientAddr dial.port fd (s.files missing)) with
            | .error stop => .error stop.atHost
            | .ok (server, reply) =>
                .ok ({ s with
                  server := server
                  dial := some { dial with reply := reply }
                  peers := (fd, dial.port) :: s.peers }, ())
  | .server event =>
      if s.Foreign event then
        match s.server.step event with
        | .error stop => .error stop.atHost
        | .ok (server, _) =>
            .ok ({ s with
              server := server
              peers := s.peers.filter fun peer => event.closes ≠ some peer.1 }, ())
      else .error .notEnabled
  | .recv received =>
      match s.dial with
      | none => .error .notEnabled
      | some dial =>
          if received = 8 ∧ dial.reply = none then .error .notEnabled
          else
            match s.client.step (dial.attempt received) with
            | .error stop => .error stop.atHost
            | .ok (client, _) =>
                -- the socket is closed unless it is kept in `client_fds`
                .ok ({ s with
                  client := client
                  dial := none
                  sockets :=
                    if (dial.attempt received).queue?.isSome then s.sockets
                    else s.sockets.filter fun socket => socket.1 ≠ dial.fd }, ())

/-- What an event can do. -/
inductive ChannelHostStep (ring : UInt32 → Fin irqNum) (s : ChannelHost) :
    ChannelHostEvent → ChannelHost → Prop
  | channel {event : ChannelEvent} {channel : ChannelSetup} (hclear : event ≠ .clear)
      (hstep : channelStep ring s.channel event = .ok (channel, ())) :
      ChannelHostStep ring s (.channel event) { s with channel := channel }
  | connectFails {a : Attempt} {client : FlowSetup} (hdial : s.dial = none)
      (hfails : a.fd < 0 ∨ a.setsockopt < 0 ∨ a.connect < 0)
      (hstep : SetupStep s.client a client) :
      ChannelHostStep ring s (.connectFails a) { s with client := client }
  | connect {fd setsockopt connect : Int32} {port : UInt16} (hfresh : s.Fresh fd port) :
      ChannelHostStep ring s (.connect fd setsockopt connect port)
        { s with
          dial := some ⟨fd, setsockopt, connect, port, none⟩
          sockets := (fd, port) :: s.sockets }
  | accept {fd : Nat} {missing : Fin irqNum → Option Bool} {dial : Dial} {server : ServerHost}
      {reply : Option Int64} (hdial : s.dial = some dial)
      (hstep : s.server.step (.connection barrierClientAddr dial.port fd (s.files missing)) =
        .ok (server, reply)) :
      ChannelHostStep ring s (.accept fd missing)
        { s with
          server := server
          dial := some { dial with reply := reply }
          peers := (fd, dial.port) :: s.peers }
  | server {event : ServerEvent} {server : ServerHost} {reply : Option Int64}
      (hforeign : s.Foreign event) (hstep : s.server.step event = .ok (server, reply)) :
      ChannelHostStep ring s (.server event)
        { s with
          server := server
          peers := s.peers.filter fun peer => event.closes ≠ some peer.1 }
  | recv {received : Int64} {dial : Dial} {client : FlowSetup} (hdial : s.dial = some dial)
      (hreply : received = 8 → dial.reply ≠ none)
      (hstep : SetupStep s.client (dial.attempt received) client) :
      ChannelHostStep ring s (.recv received)
        { s with
          client := client
          dial := none
          sockets :=
            if (dial.attempt received).queue?.isSome then s.sockets
            else s.sockets.filter fun socket => socket.1 ≠ dial.fd }

theorem channelHostStep_eq_ok {ring : UInt32 → Fin irqNum} {s s' : ChannelHost}
    {event : ChannelHostEvent} {output : Unit}
    (hstep : channelHostStep ring s event = .ok (s', output)) :
    ChannelHostStep ring s event s' := by
  cases event with
  | channel event =>
      simp only [channelHostStep] at hstep
      split at hstep
      · cases hstep
      · rename_i hclear
        split at hstep
        · cases hstep
        · rename_i channel _ hchannel
          cases hstep
          exact .channel hclear hchannel
  | connectFails a =>
      simp only [channelHostStep] at hstep
      split at hstep
      · rename_i hcalls
        split at hstep
        · cases hstep
        · rename_i client _ hclient
          cases hstep
          exact .connectFails hcalls.1 hcalls.2 (FlowSetup.step_eq_ok hclient)
      · cases hstep
  | connect fd setsockopt connect port =>
      simp only [channelHostStep] at hstep
      split at hstep
      · rename_i hcalls
        split at hstep
        · cases hstep
        · cases hstep
          exact .connect hcalls.2.2.2.2
      · cases hstep
  | accept fd missing =>
      simp only [channelHostStep] at hstep
      split at hstep
      · cases hstep
      · rename_i dial hdial
        split at hstep
        · cases hstep
        · split at hstep
          · cases hstep
          · rename_i server reply hserver
            cases hstep
            exact .accept hdial hserver
  | server event =>
      simp only [channelHostStep] at hstep
      split at hstep
      · rename_i hforeign
        split at hstep
        · cases hstep
        · rename_i server reply hserver
          cases hstep
          exact .server hforeign hserver
      · cases hstep
  | recv received =>
      simp only [channelHostStep] at hstep
      split at hstep
      · cases hstep
      · rename_i dial hdial
        split at hstep
        · cases hstep
        · rename_i hreply
          split at hstep
          · cases hstep
          · rename_i client _ hclient
            cases hstep
            exact .recv hdial (fun hwhole hnone => hreply ⟨hwhole, hnone⟩)
              (FlowSetup.step_eq_ok hclient)

/-- `recv` returns replies only as a whole. -/
def ChannelHostEvent.ReplyWhole : ChannelHostEvent → Prop
  | .recv received => received = 8
  | .channel _ | .connectFails _ | .connect .. | .accept .. | .server _ => True

instance : DecidablePred ChannelHostEvent.ReplyWhole
  | .recv _ => inferInstanceAs (Decidable (_ = _))
  | .channel _ | .connectFails _ | .connect .. | .accept .. | .server _ => .isTrue trivial

/-- A connection of the client whose port is recorded for the queue, with its other end in
`conn_fds`. -/
def ChannelHost.Flow (s : ChannelHost) (fd : Int32) (i : Fin irqNum) : Prop :=
  ∃ port, port ≠ 0 ∧ (fd, port) ∈ s.sockets ∧
    s.channel.checker.sports i = port.toUInt32 ∧ (s.server.vars.connFds i, port) ∈ s.peers

/-- The invariant of the setup. -/
structure ChannelHost.Sound (ring : UInt32 → Fin irqNum) (s : ChannelHost) : Prop where
  steered : ∃ c, s.channel.Steered ring c
  records : s.channel.RecordsPorts
  ports : (s.sockets.map Prod.snd).Nodup
  accepted : ∀ peer ∈ s.peers, peer.1 ∈ s.server.accepted
  flows : ∀ fd i, s.client.answers fd = some i → s.Flow fd i
  dialed : ∀ dial ∈ s.dial, dial.port ≠ 0 ∧ (dial.fd, dial.port) ∈ s.sockets ∧
    s.client.answers dial.fd = none ∧
    ∀ reply ∈ dial.reply, reply = -1 ∨ ∃ i : Fin irqNum, reply = baseIrq + Int64.ofNat i ∧
      s.Flow dial.fd i
  attempted : ∃ attempts, FlowSetup.After attempts s.client ∧
    (∀ a ∈ attempts, ¬a.RecvFails) ∧ (acceptedQueues attempts).Nodup

section Steps

variable {ring : UInt32 → Fin irqNum} {s s' : ChannelHost}

theorem ChannelHost.start_sound {setup : ChannelSetup} {c : Control}
    (hsteered : ChannelSetup.Steered ring { setup with checker := setup.checker.writeOp } c)
    (server : ServerHost) : (ChannelHost.start setup server).Sound ring where
  steered := ⟨c, hsteered⟩
  records := fun _ => Nat.two_pow_pos 16
  ports := List.nodup_nil
  accepted := nofun
  flows := nofun
  dialed := nofun
  attempted := ⟨[], @FlowSetup.start_after .opened _ rfl, nofun, List.nodup_nil⟩

/-- A flow stays as long as its socket, its port and its other end stay. -/
theorem ChannelHost.Flow.keep {fd : Int32} {i : Fin irqNum} (hflow : s.Flow fd i)
    (hsockets : ∀ port, (fd, port) ∈ s.sockets → (fd, port) ∈ s'.sockets)
    (hsports : s.channel.checker.sports i ≠ 0 →
      s'.channel.checker.sports i = s.channel.checker.sports i)
    (hpeers : ∀ port, (fd, port) ∈ s.sockets → (s.server.vars.connFds i, port) ∈ s.peers →
      (s'.server.vars.connFds i, port) ∈ s'.peers) : s'.Flow fd i := by
  obtain ⟨port, hne, hsocket, hsport, hpeer⟩ := hflow
  refine ⟨port, hne, hsockets port hsocket, ?_, hpeers port hsocket hpeer⟩
  rw [hsports, hsport]
  rw [hsport]
  exact fun hzero => hne (UInt16.toUInt32_inj.mp hzero)

/-- No two open connections have one port. -/
theorem ChannelHost.Sound.socket_unique (hs : s.Sound ring) {fd fd' : Int32} {port : UInt16}
    (hsocket : (fd, port) ∈ s.sockets) (hsocket' : (fd', port) ∈ s.sockets) : fd = fd' :=
  congrArg Prod.fst (List.inj_on_of_nodup_map hs.ports hsocket hsocket' rfl)

/-- A queue has one flow at most. -/
theorem ChannelHost.Sound.flow_unique (hs : s.Sound ring) {fd fd' : Int32} {i : Fin irqNum}
    (hflow : s.Flow fd i) (hflow' : s.Flow fd' i) : fd = fd' := by
  obtain ⟨port, _, hsocket, hsport, _⟩ := hflow
  obtain ⟨port', _, hsocket', hsport', _⟩ := hflow'
  rw [hsport] at hsport'
  rw [← UInt16.toUInt32_inj.mp hsport'] at hsocket'
  exact hs.socket_unique hsocket hsocket'

/-- The port of a flow is one of its queue. -/
theorem ChannelHost.Sound.ring_of_flow (hs : s.Sound ring) {fd : Int32} {i : Fin irqNum}
    (hflow : s.Flow fd i) :
    ∃ port, (fd, port) ∈ s.sockets ∧ ring port.toUInt32 = i ∧
      (s.server.vars.connFds i, port) ∈ s.peers := by
  obtain ⟨port, hne, hsocket, hsport, hpeer⟩ := hflow
  obtain ⟨c, hsteered⟩ := hs.steered
  refine ⟨port, hsocket, ?_, hpeer⟩
  have hmatch := hsteered.portsMatch i
  rw [hsport] at hmatch
  exact hmatch fun hzero => hne (UInt16.toUInt32_inj.mp hzero)

theorem ChannelHost.Sound.channel (hs : s.Sound ring) {event : ChannelEvent}
    (hclear : event ≠ .clear) {channel : ChannelSetup}
    (hstep : channelStep ring s.channel event = .ok (channel, ())) :
    ChannelHost.Sound ring { s with channel := channel } := by
  obtain ⟨c, hsteered⟩ := hs.steered
  obtain ⟨hnext, hkept⟩ := hsteered.step hclear hstep
  have hflow : ∀ fd i, s.Flow fd i → ChannelHost.Flow { s with channel := channel } fd i :=
    fun fd i hflow => hflow.keep (fun _ hmem => hmem) (hkept i) fun _ _ hmem => hmem
  refine ⟨hnext, hs.records.step hstep, hs.ports, hs.accepted, ?_, ?_, hs.attempted⟩
  · exact fun fd i hanswer => hflow fd i (hs.flows fd i hanswer)
  · intro dial hdial
    obtain ⟨hne, hsocket, hfresh, hreply⟩ := hs.dialed dial hdial
    refine ⟨hne, hsocket, hfresh, fun reply hmem => (hreply reply hmem).imp_right ?_⟩
    exact fun ⟨i, heq, hi⟩ => ⟨i, heq, hflow _ i hi⟩

theorem ChannelHost.Sound.connectFails (hs : s.Sound ring) (hdial : s.dial = none) {a : Attempt}
    (hfails : a.fd < 0 ∨ a.setsockopt < 0 ∨ a.connect < 0) {client : FlowSetup}
    (hstep : SetupStep s.client a client) :
    ChannelHost.Sound ring { s with client := client } := by
  have hall : a.Fails := by
    rcases hfails with hneg | hneg | hneg
    · exact Or.inl hneg
    · exact Or.inr (Or.inl hneg)
    · exact Or.inr (Or.inr (Or.inl hneg))
  obtain ⟨attempts, hafter, hrecv, hnodup⟩ := hs.attempted
  have hnext := hafter.step hstep
  cases hstep with
  | failed count hcontrol hrecv' hqueue ret hret =>
      refine ⟨hs.steered, hs.records, hs.ports, hs.accepted, hs.flows, ?_,
        attempts ++ [a], hnext, ?_, ?_⟩
      · simp [hdial]
      · rw [List.forall_mem_append, List.forall_mem_singleton]
        exact ⟨hrecv, hrecv'⟩
      · rw [acceptedQueues_concat_of_none attempts hqueue]
        exact hnodup
  | recvFailed count hcontrol hrecv' =>
      rcases hfails with hneg | hneg | hneg
      · exact absurd hneg (Int32.not_lt.mpr hrecv'.1)
      · exact absurd hneg (Int32.not_lt.mpr hrecv'.2.1)
      · exact absurd hneg (Int32.not_lt.mpr hrecv'.2.2.1)
  | accepted count hcontrol hok => exact absurd hall hok
  | redundant count hcontrol hok => exact absurd hall hok

theorem ChannelHost.Sound.connect (hs : s.Sound ring) {fd setsockopt connect : Int32}
    {port : UInt16} (hfresh : s.Fresh fd port) :
    ChannelHost.Sound ring { s with
      dial := some ⟨fd, setsockopt, connect, port, none⟩
      sockets := (fd, port) :: s.sockets } := by
  obtain ⟨hne, hfd, hport⟩ := hfresh
  refine ⟨hs.steered, hs.records, ?_, hs.accepted, ?_, ?_, hs.attempted⟩
  · rw [List.map_cons, List.nodup_cons]
    exact ⟨hport, hs.ports⟩
  · exact fun fd' i hanswer => (hs.flows fd' i hanswer).keep
      (fun _ hmem => List.mem_cons_of_mem _ hmem) (fun _ => rfl) fun _ _ hmem => hmem
  · intro dial hdial
    cases hdial
    refine ⟨hne, List.mem_cons_self, ?_, nofun⟩
    -- a descriptor that is answered is in use
    rw [Option.eq_none_iff_forall_ne_some]
    intro i hanswer
    obtain ⟨_, _, hsocket, _⟩ := hs.flows fd i hanswer
    exact hfd (List.mem_map_of_mem hsocket)

/-- What the server does with a connection of the client. -/
theorem ServerHost.step_client {host next : ServerHost} {port : UInt16} {fd : Nat}
    {files : Fin irqNum → SportFile} {reply : Option Int64}
    (hstep : host.step (.connection barrierClientAddr port fd files) = .ok (next, reply)) :
    fd ∉ host.accepted ∧ next.accepted = insert fd host.accepted ∧
      (reply = some (-1) ∧ next.vars = host.vars ∨
        ∃ k : Fin irqNum, LeastMatch (clientPort port) files k ∧
          reply = some (baseIrq + Int64.ofNat k) ∧ next.vars = host.vars.record k fd) := by
  simp only [ServerHost.step, BarrierServer.accept, ne_eq, not_true_eq_false, if_false] at hstep
  split at hstep
  · cases hstep
  rename_i hfresh
  have hclassified := host.vars.acceptClient_classified port fd files
  generalize host.vars.acceptClient port fd files = result at hclassified hstep
  rw [Finset.mem_insert, not_or] at hfresh
  cases hclassified with
  | recorded k hmatch hfd =>
      cases hstep
      exact ⟨hfresh.2, rfl, Or.inr ⟨k, hmatch, rfl, rfl⟩⟩
  | redundant hpassed =>
      cases hstep
      exact ⟨hfresh.2, rfl, Or.inl ⟨rfl, rfl⟩⟩
  | unrecorded k hmatch hfd => cases hstep
  | failed k fault hpassed hfailed => cases hstep

/-- A file that cannot be opened holds no port. -/
theorem ChannelHost.read_of_files {missing : Fin irqNum → Option Bool} {k : Fin irqNum}
    {port : UInt16} (hread : getSportByRxQueue (s.files missing k) = .ok (clientPort port)) :
    getSportByRxQueue (.ofSport (s.channel.checker.sports k)) = .ok (clientPort port) := by
  rw [files] at hread
  split at hread
  · rename_i survives _
    cases survives with
    | false => cases hread
    | true =>
        have hneg : -1 = clientPort port := Except.ok.inj hread
        exact absurd (clientPort_nonneg port) (by rw [← hneg]; decide)
  · exact hread

theorem ChannelHost.Sound.accept (hs : s.Sound ring) {dial : Dial} (hdial : s.dial = some dial)
    {fd : Nat} {missing : Fin irqNum → Option Bool} {server : ServerHost} {reply : Option Int64}
    (hstep : s.server.step (.connection barrierClientAddr dial.port fd (s.files missing)) =
      .ok (server, reply)) :
    ChannelHost.Sound ring { s with
      server := server
      dial := some { dial with reply := reply }
      peers := (fd, dial.port) :: s.peers } := by
  obtain ⟨hfresh, haccepted, houtcome⟩ := ServerHost.step_client hstep
  obtain ⟨hne, hsocket, hunanswered, _⟩ := hs.dialed dial hdial
  have hpeers : ∀ peer ∈ (fd, dial.port) :: s.peers, peer.1 ∈ server.accepted := by
    rw [haccepted, List.forall_mem_cons]
    exact ⟨Finset.mem_insert_self _ _,
      fun peer hpeer => Finset.mem_insert_of_mem (hs.accepted peer hpeer)⟩
  rcases houtcome with ⟨rfl, hvars⟩ | ⟨k, hmatch, rfl, hvars⟩
  · refine ⟨hs.steered, hs.records, hs.ports, hpeers, ?_, ?_, hs.attempted⟩
    · refine fun fd' i hanswer => (hs.flows fd' i hanswer).keep (fun _ hmem => hmem)
        (fun _ => rfl) fun port _ hmem => List.mem_cons_of_mem _ ?_
      rw [hvars]
      exact hmem
    · intro dial' hdial'
      cases hdial'
      refine ⟨hne, hsocket, hunanswered, fun reply hreply => Or.inl ?_⟩
      exact (Option.some.inj hreply).symm
  · have hsport : s.channel.checker.sports k = dial.port.toUInt32 :=
      sport_eq_of_read (ChannelHost.read_of_files hmatch.2) (hs.records k)
    refine ⟨hs.steered, hs.records, hs.ports, hpeers, ?_, ?_, hs.attempted⟩
    · intro fd' i hanswer
      have hflow := hs.flows fd' i hanswer
      -- the queue of a flow that is there already has another port
      have hi : i ≠ k := by
        rintro rfl
        obtain ⟨port, _, hsocket', hsport', _⟩ := hflow
        rw [hsport] at hsport'
        rw [← UInt16.toUInt32_inj.mp hsport'] at hsocket'
        rw [← hs.socket_unique hsocket hsocket', hunanswered] at hanswer
        cases hanswer
      refine hflow.keep (fun _ hmem => hmem) (fun _ => rfl)
        fun port _ hmem => List.mem_cons_of_mem _ ?_
      simp only [hvars, BarrierServer.record, Function.update_of_ne hi]
      exact hmem
    · intro dial' hdial'
      cases hdial'
      refine ⟨hne, hsocket, hunanswered, fun reply hreply => Or.inr ⟨k, ?_, ?_⟩⟩
      · exact (Option.some.inj hreply).symm
      · refine ⟨dial.port, hne, hsocket, hsport, ?_⟩
        simp only [hvars, BarrierServer.record, Function.update_self]
        exact List.mem_cons_self

/-- An accepted descriptor stays until an event closes it. -/
theorem ServerStep.mem_accepted {host next : ServerHost} {event : ServerEvent}
    (hstep : ServerStep host event next) {fd : Nat} (hmem : fd ∈ host.accepted)
    (hcloses : event.closes ≠ some fd) : fd ∈ next.accepted := by
  cases hstep with
  | watched | redundant => exact Finset.mem_insert_of_mem hmem
  | kept | unnoticed => exact hmem
  | closed | noticed =>
      exact Finset.mem_erase_of_ne_of_mem (fun heq => hcloses (congrArg some heq.symm)) hmem

/-- What the server does apart from the connections of the client. -/
theorem ServerHost.step_foreign {host next : ServerHost} {event : ServerEvent}
    {reply : Option Int64} (hforeign : ∀ addr port fd files,
      event = .connection addr port fd files → inetNtop addr ≠ inetNtop barrierClientAddr)
    (hstep : host.step event = .ok (next, reply)) :
    next.vars.connFds = host.vars.connFds ∧
      ∀ fd ∈ host.accepted, event.closes ≠ some fd → fd ∈ next.accepted := by
  refine ⟨?_, fun fd => (ServerHost.step_eq_ok hstep).mem_accepted⟩
  cases event with
  | connection addr port fd files =>
      -- `ServerStep` does not say which variables a watched connection leaves alone
      have haddr := hforeign addr port fd files rfl
      simp only [ServerHost.step, BarrierServer.accept, if_pos haddr, BarrierServer.fdSet] at hstep
      split at hstep
      · cases hstep
      · split at hstep
        · cases hstep
        · rename_i vars _ hset
          cases hstep
          split at hset
          · cases hset
            rfl
          · cases hset
  | acceptFails | received | peerCloses => cases ServerHost.step_eq_ok hstep <;> rfl

/-- No such event closes the other end of an open connection. -/
theorem ChannelHost.Foreign.closes_ne {event : ServerEvent} (hforeign : s.Foreign event)
    {peer : Nat × UInt16} (hpeer : peer ∈ s.peers) (hopen : peer.2 ∈ s.sockets.map Prod.snd) :
    event.closes ≠ some peer.1 := by
  cases event with
  | connection | acceptFails => nofun
  | received fd count =>
      rintro heq
      cases heq
      exact hforeign (List.mem_map_of_mem hpeer)
  | peerCloses fd =>
      rintro heq
      cases heq
      exact hforeign peer hpeer rfl hopen

theorem ChannelHost.Sound.server (hs : s.Sound ring) {event : ServerEvent}
    (hforeign : s.Foreign event) {server : ServerHost} {reply : Option Int64}
    (hstep : s.server.step event = .ok (server, reply)) :
    ChannelHost.Sound ring { s with
      server := server
      peers := s.peers.filter fun peer => event.closes ≠ some peer.1 } := by
  have haddr : ∀ addr port fd files, event = .connection addr port fd files →
      inetNtop addr ≠ inetNtop barrierClientAddr := by
    rintro addr port fd files rfl
    exact hforeign
  obtain ⟨hconn, hkept⟩ := ServerHost.step_foreign haddr hstep
  have hflow : ∀ fd i, s.Flow fd i → ChannelHost.Flow { s with
      server := server
      peers := s.peers.filter fun peer => event.closes ≠ some peer.1 } fd i := by
    intro fd i hflow
    refine hflow.keep (fun _ hmem => hmem) (fun _ => rfl) fun port hsocket hpeer => ?_
    rw [hconn, List.mem_filter, decide_eq_true_eq]
    exact ⟨hpeer, hforeign.closes_ne hpeer (List.mem_map_of_mem hsocket)⟩
  refine ⟨hs.steered, hs.records, hs.ports, ?_, ?_, ?_, hs.attempted⟩
  · intro peer hpeer
    rw [List.mem_filter, decide_eq_true_eq] at hpeer
    exact hkept peer.1 (hs.accepted peer hpeer.1) hpeer.2
  · exact fun fd i hanswer => hflow fd i (hs.flows fd i hanswer)
  · intro dial hdial
    obtain ⟨hne, hsocket, hfresh, hreply⟩ := hs.dialed dial hdial
    refine ⟨hne, hsocket, hfresh, fun reply hmem => (hreply reply hmem).imp_right ?_⟩
    exact fun ⟨i, heq, hi⟩ => ⟨i, heq, hflow _ i hi⟩

/-- An accepted reply names the queue of a flow. -/
theorem ChannelHost.Sound.flow_of_reply (hs : s.Sound ring) {dial : Dial}
    (hdial : s.dial = some dial) (hreply : dial.reply ≠ none) {received : Int64}
    {i : Fin irqNum} (hqueue : (dial.attempt received).queue? = some i) : s.Flow dial.fd i := by
  obtain ⟨_, hpos, hindex⟩ := Attempt.queue?_eq_some hqueue
  obtain ⟨reply, hsent⟩ := Option.ne_none_iff_exists'.mp hreply
  simp only [Dial.attempt, hsent, Option.getD_some] at hpos hindex
  rcases (hs.dialed dial hdial).2.2.2 reply hsent with rfl | ⟨k, rfl, hflow⟩
  · exact absurd hpos (by decide)
  · rw [queueIndex?_reply] at hindex
    cases hindex
    exact hflow

/-- The socket of a redundant connection is closed; the other flows keep theirs. -/
theorem ChannelHost.Sound.close (hs : s.Sound ring) {dial : Dial} (hdial : s.dial = some dial)
    {client : FlowSetup} (hanswers : client.answers = s.client.answers)
    (hattempted : ∃ attempts, FlowSetup.After attempts client ∧
      (∀ a ∈ attempts, ¬a.RecvFails) ∧ (acceptedQueues attempts).Nodup) :
    ChannelHost.Sound ring { s with
      client := client
      dial := none
      sockets := s.sockets.filter fun socket => socket.1 ≠ dial.fd } := by
  obtain ⟨_, _, hunanswered, _⟩ := hs.dialed dial hdial
  refine ⟨hs.steered, hs.records, ?_, hs.accepted, ?_, nofun, hattempted⟩
  · exact hs.ports.sublist (List.filter_sublist.map _)
  · intro fd i hanswer
    simp only [hanswers] at hanswer
    refine (hs.flows fd i hanswer).keep (fun port hmem => ?_) (fun _ => rfl) fun _ _ hmem => hmem
    rw [List.mem_filter, decide_eq_true_eq]
    refine ⟨hmem, ?_⟩
    rintro rfl
    rw [hunanswered] at hanswer
    cases hanswer

theorem ChannelHost.Sound.recv (hs : s.Sound ring) {dial : Dial} (hdial : s.dial = some dial)
    (hreply : dial.reply ≠ none) {client : FlowSetup}
    (hstep : SetupStep s.client (dial.attempt 8) client) :
    ChannelHost.Sound ring { s with
      client := client
      dial := none
      sockets :=
        if (dial.attempt 8).queue?.isSome then s.sockets
        else s.sockets.filter fun socket => socket.1 ≠ dial.fd } := by
  obtain ⟨attempts, hafter, hrecv, hnodup⟩ := hs.attempted
  have hnext := hafter.step hstep
  have hwhole : ¬(dial.attempt 8).RecvFails := fun hfails => hfails.2.2.2 rfl
  have hrecv' : ∀ a ∈ attempts ++ [dial.attempt 8], ¬a.RecvFails := by
    rw [List.forall_mem_append, List.forall_mem_singleton]
    exact ⟨hrecv, hwhole⟩
  cases hqueue : (dial.attempt 8).queue? with
  | none =>
      rw [if_neg (by decide)]
      have hnodup' : (acceptedQueues (attempts ++ [dial.attempt 8])).Nodup := by
        rw [acceptedQueues_concat_of_none attempts hqueue]
        exact hnodup
      refine hs.close hdial ?_ ⟨_, hnext, hrecv', hnodup'⟩
      cases hstep with
      | failed | redundant => rfl
      | recvFailed count hcontrol hfails => exact absurd hfails hwhole
      | accepted count hcontrol hok i hqueue' =>
          rw [hqueue] at hqueue'
          cases hqueue'
  | some i =>
      rw [if_pos (by rfl)]
      have hflow : s.Flow dial.fd i := hs.flow_of_reply hdial hreply hqueue
      obtain ⟨_, _, hunanswered, _⟩ := hs.dialed dial hdial
      -- a queue that is accepted already has another flow
      have hnew : i ∉ acceptedQueues attempts := by
        intro hmem
        have hanswer := hafter.covers.covered i hmem
        rw [hs.flow_unique (hs.flows _ i hanswer) hflow, hunanswered] at hanswer
        cases hanswer
      have hnodup' : (acceptedQueues (attempts ++ [dial.attempt 8])).Nodup := by
        rw [acceptedQueues_concat_of_some attempts hqueue]
        exact List.nodup_append.mpr ⟨hnodup, List.nodup_singleton i, by
          rintro j hj k hk rfl
          rw [List.mem_singleton.mp hk] at hj
          exact hnew hj⟩
      refine ⟨hs.steered, hs.records, hs.ports, hs.accepted, ?_, nofun,
        _, hnext, hrecv', hnodup'⟩
      intro fd j hanswer
      cases hstep with
      | failed | redundant => exact hs.flows fd j hanswer
      | recvFailed count hcontrol hfails => exact absurd hfails hwhole
      | accepted count hcontrol hok i' hqueue' hfresh =>
          rw [hqueue] at hqueue'
          cases hqueue'
          by_cases hfd : fd = dial.fd
          · rw [hfd] at hanswer ⊢
            rw [← Option.some.inj ((Function.update_self (f := s.client.answers) ..).symm.trans
              hanswer)]
            exact hflow
          · exact hs.flows fd j ((Function.update_of_ne hfd (f := s.client.answers) ..).symm.trans
              hanswer)

theorem ChannelHost.Sound.step (hs : s.Sound ring) {event : ChannelHostEvent}
    (hwhole : event.ReplyWhole) (hstep : ChannelHostStep ring s event s') : s'.Sound ring := by
  cases hstep with
  | channel hclear hstep => exact hs.channel hclear hstep
  | connectFails hdial hfails hstep => exact hs.connectFails hdial hfails hstep
  | connect hfresh => exact hs.connect hfresh
  | accept hdial hstep => exact hs.accept hdial hstep
  | server hforeign hstep => exact hs.server hforeign hstep
  | recv hdial hreply hstep =>
      cases (hwhole : _ = (8 : Int64))
      exact hs.recv hdial (hreply rfl) hstep

theorem ChannelHost.Sound.run (hs : s.Sound ring) {events : List ChannelHostEvent}
    (hwhole : ∀ event ∈ events, event.ReplyWhole) {outputs : List Unit}
    (hrun : runEvents (channelHostStep ring) s events = .ok (s', outputs)) : s'.Sound ring := by
  have hevery : EveryStep (channelHostStep ring) (fun _ _ event => event.ReplyWhole) s events := by
    intro before event after _ _ hsplit _
    exact hwhole event (by simp [hsplit])
  exact hevery.invariant (fun _ state _ => state.Sound ring) hs
    (fun _ _ _ _ _ _ _ hstate hevent hstep =>
      hstate.step hevent (channelHostStep_eq_ok hstep)) hrun

/-- When `setup_rx_queue_flows` has returned and not failed, every queue has its flow. -/
theorem ChannelHost.Sound.flow_of_returned (hs : s.Sound ring) {ret : Int32}
    (hreturned : s.client.control = .returned ret) (hret : 0 ≤ ret) (i : Fin irqNum) :
    s.Flow (s.client.clientFds i) i := by
  obtain ⟨attempts, hafter, hrecv, hnodup⟩ := hs.attempted
  exact hs.flows _ i ((hafter.setupCorrect hrecv fun _ => hnodup).1 ret hreturned hret i)

end Steps

/-- However script, packets, connections and other hosts interleave: when
`setup_rx_queue_flows` returns and no call has failed, the packets on each of `client_fds`
come in on the rx queue of this index, and `conn_fds` holds their other end. -/
theorem setup_steers_every_flow {ring : UInt32 → Fin irqNum} {init mid : ChannelSetup}
    (hscript : init.script = bruteforce2cpus) {pre : List ChannelEvent} {early : List Unit}
    (hpre : runEvents (channelStep ring) init pre = .ok (mid, early))
    (hpoll : mid.script.head? = some (.poll 0)) (server : ServerHost)
    (events : List ChannelHostEvent) (hwhole : ∀ event ∈ events, event.ReplyWhole)
    (s : ChannelHost) (outputs : List Unit)
    (hrun : runEvents (channelHostStep ring) (.start mid server) events = .ok (s, outputs))
    (ret : Int32) (hreturned : s.client.control = .returned ret) (hret : 0 ≤ ret)
    (i : Fin irqNum) :
    ∃ port, (s.client.clientFds i, port) ∈ s.sockets ∧ ring port.toUInt32 = i ∧
      (s.server.vars.connFds i, port) ∈ s.peers := by
  have hsound : s.Sound ring :=
    (ChannelHost.start_sound (steered_of_first_poll hscript hpre hpoll) server).run hwhole hrun
  exact hsound.ring_of_flow (hsound.flow_of_returned hreturned hret i)

/-- A connection from its first packet, which is handled on the given CPU, to the reply. -/
def connection (fd : Int32) (port : UInt16) (cpu acceptedFd : Nat) : List ChannelHostEvent :=
  [.connect fd 0 0 port, .channel (clientPacket port (ringInTurn port.toUInt32) cpu),
    .accept acceptedFd fun _ => none, .recv 8]

/-- The script from one poll to the next. -/
def nextPoll : List ChannelHostEvent :=
  List.replicate 12 (.channel .script)

/-- A connection on a queue that is not steered yet, one from another host, and then one for
each queue. -/
def setupRun : List ChannelHostEvent :=
  connection 5 1001 0 9 ++
    .server (.connection ⟨10, 0, 0, 12⟩ 50000 10 fun _ => .ofSport 0) ::
    (connection 5 1000 1 11 ++ nextPoll ++ connection 6 1005 1 12 ++ nextPoll ++
      connection 7 1002 1 13 ++ nextPoll ++ connection 8 1003 1 14)

theorem setup_steers_every_flow_setupRun :
    ∃ mid early s outputs,
      runEvents (channelStep ringInTurn) setupLoaded (List.replicate 12 .script) =
        .ok (mid, early) ∧
      runEvents (channelHostStep ringInTurn) (.start mid (.start 3)) setupRun =
        .ok (s, outputs) ∧
      s.client.control = .returned 0 ∧
      ∀ i, ∃ port, (s.client.clientFds i, port) ∈ s.sockets ∧
        ringInTurn port.toUInt32 = i ∧ (s.server.vars.connFds i, port) ∈ s.peers := by
  have hparts : (runEvents (channelStep ringInTurn) setupLoaded (List.replicate 12 .script)).map
      (fun result => (result.1.script.head?,
        (runEvents (channelHostStep ringInTurn) (.start result.1 (.start 3)) setupRun).map
          fun result => result.1.client.control)) =
      .ok (some (.poll 0), .ok (.returned 0)) := by decide +kernel
  obtain ⟨⟨mid, early⟩, hmid, hmidParts⟩ := exists_ok_of_map_eq hparts
  obtain ⟨hpoll, hsetup⟩ := Prod.mk.inj hmidParts
  obtain ⟨⟨s, outputs⟩, hrun, hreturned⟩ := exists_ok_of_map_eq hsetup
  exact ⟨mid, early, s, outputs, hmid, hrun, hreturned,
    setup_steers_every_flow rfl hmid hpoll _ setupRun (by decide) s outputs hrun 0 hreturned
      (by decide)⟩

section Starvation

variable {ring : UInt32 → Fin irqNum} {s s' : ChannelHost}

/-- The port of a new connection. -/
def ChannelHostEvent.newPort : ChannelHostEvent → Option UInt16
  | .connect _ _ _ port => some port
  | .channel _ | .connectFails _ | .accept .. | .server _ | .recv _ => none

/-- The port of the queue is that of no open connection. -/
def ChannelHost.Starves (s : ChannelHost) (i : Fin irqNum) (port : UInt16) : Prop :=
  s.channel.checker.sports i = port.toUInt32 ∧ port ∉ s.sockets.map Prod.snd

theorem ChannelHost.Sound.starves_step (hs : s.Sound ring) {i : Fin irqNum} {port : UInt16}
    (hport : port ≠ 0) (hstarves : s.Starves i port) {event : ChannelHostEvent}
    (hother : event.newPort ≠ some port) (hstep : ChannelHostStep ring s event s') :
    s'.Starves i port := by
  obtain ⟨hsport, hclosed⟩ := hstarves
  cases hstep with
  | channel hclear hstep =>
      obtain ⟨c, hsteered⟩ := hs.steered
      refine ⟨?_, hclosed⟩
      rw [← hsport]
      refine (hsteered.step hclear hstep).2 i ?_
      rw [hsport]
      exact fun hzero => hport (UInt16.toUInt32_inj.mp hzero)
  | connectFails | accept | server => exact ⟨hsport, hclosed⟩
  | connect hfresh =>
      refine ⟨hsport, ?_⟩
      rw [List.map_cons, List.mem_cons, not_or]
      refine ⟨?_, hclosed⟩
      rintro rfl
      exact hother rfl
  | recv hdial hreply hstep =>
      refine ⟨hsport, fun hmem => hclosed ?_⟩
      dsimp only at hmem
      split at hmem
      · exact hmem
      · exact (List.filter_sublist.map _).subset hmem

end Starvation

/-- A packet of a connection that is closed again may come late and be recorded for its queue.
Unless the port is used once more, no connection is then accepted for this queue, and the
setup cannot succeed. -/
theorem late_packet_starves_setup {ring : UInt32 → Fin irqNum} {init mid : ChannelSetup}
    (hscript : init.script = bruteforce2cpus) {pre : List ChannelEvent} {early : List Unit}
    (hpre : runEvents (channelStep ring) init pre = .ok (mid, early))
    (hpoll : mid.script.head? = some (.poll 0)) (server : ServerHost)
    (before after : List ChannelHostEvent)
    (hwhole : ∀ event ∈ before ++ after, event.ReplyWhole)
    (s s' : ChannelHost) (outputs outputs' : List Unit)
    (hbefore : runEvents (channelHostStep ring) (.start mid server) before = .ok (s, outputs))
    (hafter : runEvents (channelHostStep ring) s after = .ok (s', outputs'))
    (i : Fin irqNum) (port : UInt16) (hport : port ≠ 0)
    (hrecorded : s.channel.checker.sports i = port.toUInt32)
    (hclosed : port ∉ s.sockets.map Prod.snd)
    (hother : ∀ event ∈ after, event.newPort ≠ some port)
    (ret : Int32) : s'.client.control = .returned ret → ret < 0 := by
  intro hreturned
  rw [List.forall_mem_append] at hwhole
  have hsound : s.Sound ring :=
    (ChannelHost.start_sound (steered_of_first_poll hscript hpre hpoll) server).run hwhole.1 hbefore
  have hevery : EveryStep (channelHostStep ring)
      (fun _ _ event => event.ReplyWhole ∧ event.newPort ≠ some port) s after := by
    intro done event rest _ _ hsplit _
    have hmem : event ∈ after := by simp [hsplit]
    exact ⟨hwhole.2 event hmem, hother event hmem⟩
  obtain ⟨hsound', hrecorded', hclosed'⟩ := hevery.invariant
    (fun _ state _ => state.Sound ring ∧ state.Starves i port) ⟨hsound, hrecorded, hclosed⟩
    (fun _ _ _ _ _ _ _ hstate hevent hstep =>
      ⟨hstate.1.step hevent.1 (channelHostStep_eq_ok hstep),
        hstate.1.starves_step hport hstate.2 hevent.2 (channelHostStep_eq_ok hstep)⟩) hafter
  by_contra hnonneg
  obtain ⟨port', _, hsocket, hsport, _⟩ :=
    hsound'.flow_of_returned hreturned (Int32.not_lt.mp hnonneg) i
  rw [hrecorded'] at hsport
  rw [← UInt16.toUInt32_inj.mp hsport] at hsocket
  exact hclosed' (List.mem_map_of_mem hsocket)

/-- The second queue is steered when a packet of the first connection is still on its way. -/
def latePacketRun : List ChannelHostEvent :=
  connection 5 1001 0 9 ++ connection 5 1000 1 11 ++ nextPoll ++
    [.channel (clientPacket 1001 (ringInTurn 1001) 1)]

theorem late_packet_starves_setup_latePacketRun :
    ∃ mid early s s' outputs outputs',
      runEvents (channelStep ringInTurn) setupLoaded (List.replicate 12 .script) =
        .ok (mid, early) ∧
      runEvents (channelHostStep ringInTurn) (.start mid (.start 3)) latePacketRun =
        .ok (s, outputs) ∧
      runEvents (channelHostStep ringInTurn) s (nextPoll ++ connection 6 1005 0 12) =
        .ok (s', outputs') ∧
      s'.client.control = .looping 1 ∧ ∀ ret, s'.client.control = .returned ret → ret < 0 := by
  have hparts : (runEvents (channelStep ringInTurn) setupLoaded (List.replicate 12 .script)).map
      (fun result => (result.1.script.head?,
        (runEvents (channelHostStep ringInTurn) (.start result.1 (.start 3)) latePacketRun).map
          fun result => (result.1.channel.checker.sports 1, result.1.sockets))) =
      .ok (some (.poll 0), .ok (1001, [(5, 1000)])) := by decide +kernel
  have hwhole : (runEvents (channelStep ringInTurn) setupLoaded (List.replicate 12 .script)).map
      (fun result => (runEvents (channelHostStep ringInTurn) (.start result.1 (.start 3))
        (latePacketRun ++ (nextPoll ++ connection 6 1005 0 12))).map
          fun result => result.1.client.control) = .ok (.ok (.looping 1)) := by decide +kernel
  obtain ⟨⟨mid, early⟩, hmid, hmidParts⟩ := exists_ok_of_map_eq hparts
  obtain ⟨hpoll, hbefore⟩ := Prod.mk.inj hmidParts
  obtain ⟨⟨s, outputs⟩, hrun, hrunParts⟩ := exists_ok_of_map_eq hbefore
  obtain ⟨hsport, hsockets⟩ := Prod.mk.inj hrunParts
  rw [hmid] at hwhole
  obtain ⟨⟨s', all⟩, hall, hlooping⟩ := exists_ok_of_map_eq (Except.ok.inj hwhole)
  obtain ⟨_, _, outputs', hfirst, hrest, _⟩ := runEvents_append_eq_ok_iff.mp hall
  obtain ⟨rfl, rfl⟩ := Prod.mk.inj (Except.ok.inj (hrun.symm.trans hfirst))
  refine ⟨mid, early, s, s', outputs, outputs', hmid, hrun, hrest, hlooping, ?_⟩
  exact late_packet_starves_setup rfl hmid hpoll _ latePacketRun _ (by decide) s s' outputs
    outputs' hrun hrest 1 1001 (by decide) hsport (by rw [hsockets]; decide) (by decide)

section Bounds

variable {ring : UInt32 → Fin irqNum} {s : ChannelHost}

/-- `FD_SET` has a bit for the descriptor that `accept` returns. -/
def ChannelHostEvent.FitsFdSet : ChannelHostEvent → Prop
  | .accept fd _ => fd < fdSetSize
  | .server (.connection _ _ fd _) => fd < fdSetSize
  | .server _ | .channel _ | .connectFails _ | .connect .. | .recv _ => True

/-- The files of the ports can be opened. -/
def ChannelHostEvent.FilesOpen : ChannelHostEvent → Prop
  | .accept _ missing => ∀ i, missing i = none
  | .channel _ | .connectFails _ | .connect .. | .server _ | .recv _ => True

/-- `client_fds` is accessed out of its bounds for no other reason than a reply that names
no queue. -/
theorem FlowSetup.step_eq_error {client : FlowSetup} {a : Attempt} {stop : SetupStop}
    (hreply : ¬a.Fails → 0 < a.rxQueue → queueIndex? a.rxQueue ≠ none)
    (hstep : client.step a = .error stop) : stop = .notEnabled := by
  rw [FlowSetup.step] at hstep
  split at hstep
  · cases hstep
    rfl
  · rename_i count hcontrol
    rw [FlowSetup.iterate] at hstep
    by_cases hqueue : queueIndex? a.rxQueue = none
    · rw [hqueue] at hstep
      dsimp only at hstep
      split_ifs at hstep with hfd hused hsetsockopt hconnect hreceived hpos
      · cases hstep
        rfl
      · have hok := Attempt.not_fails hfd hsetsockopt hconnect hreceived
        exact absurd hqueue (hreply hok hpos)
    · obtain ⟨i, hi⟩ := Option.ne_none_iff_exists'.mp hqueue
      rw [hi] at hstep
      dsimp only at hstep
      split_ifs at hstep
      cases hstep
      rfl

/-- A reply that the client reads as a whole names a queue or is not positive. -/
theorem ChannelHost.Sound.queueIndex?_reply (hs : s.Sound ring) {dial : Dial}
    (hdial : s.dial = some dial) (hpos : 0 < dial.reply.getD (-1)) :
    queueIndex? (dial.reply.getD (-1)) ≠ none := by
  cases hreply : dial.reply with
  | none =>
      rw [hreply] at hpos
      exact absurd hpos (by decide)
  | some reply =>
      rw [hreply, Option.getD_some] at hpos
      rw [Option.getD_some]
      rcases (hs.dialed dial hdial).2.2.2 reply hreply with rfl | ⟨k, rfl, _⟩
      · exact absurd hpos (by decide)
      · rw [SafeTimer.queueIndex?_reply]
        exact Option.some_ne_none k

/-- A file that is there holds a port, so that no connection of the client leads to a
fault. -/
theorem ChannelHost.Sound.accept_eq_error (hs : s.Sound ring) {port : UInt16} {fd : Nat}
    (hfd : fd < fdSetSize) {missing : Fin irqNum → Option Bool} (hopen : ∀ i, missing i = none)
    {stop : ServerStop}
    (hstep : s.server.step (.connection barrierClientAddr port fd (s.files missing)) =
      .error stop) :
    stop = .notEnabled := by
  simp only [ServerHost.step, BarrierServer.accept, ne_eq, not_true_eq_false, if_false] at hstep
  split at hstep
  · cases hstep
    rfl
  have hclassified := s.server.vars.acceptClient_classified port fd (s.files missing)
  generalize s.server.vars.acceptClient port fd (s.files missing) = result at hclassified hstep
  cases hclassified with
  | recorded | redundant => cases hstep
  | unrecorded k hmatch hnot => exact absurd hfd hnot
  | failed k fault hpassed hfailed =>
      simp only [files, hopen] at hfailed
      exact absurd (hs.records.readable k) hfailed

/-- Other hosts reach nothing but `FD_SET`. -/
theorem ServerHost.step_eq_error {host : ServerHost} {event : ServerEvent}
    (hforeign : s.Foreign event) (hfits : ChannelHostEvent.FitsFdSet (.server event))
    {stop : ServerStop} (hstep : host.step event = .error stop) : stop = .notEnabled := by
  cases event with
  | connection addr port fd files =>
      have haddr : inetNtop addr ≠ inetNtop barrierClientAddr := hforeign
      have hfd : fd < fdSetSize := hfits
      simp only [ServerHost.step, BarrierServer.accept, if_pos haddr, BarrierServer.fdSet,
        if_pos hfd] at hstep
      split at hstep
      · cases hstep
        rfl
      · cases hstep
  | acceptFails => cases hstep
  | received fd count =>
      simp only [ServerHost.step] at hstep
      split_ifs at hstep
      cases hstep
      rfl
  | peerCloses fd =>
      simp only [ServerHost.step] at hstep
      split_ifs at hstep
      cases hstep
      rfl

theorem ChannelHost.Sound.step_eq_error (hs : s.Sound ring) {event : ChannelHostEvent}
    (hfits : event.FitsFdSet) (hopen : event.FilesOpen) {stop : ChannelHostStop}
    (hstep : channelHostStep ring s event = .error stop) : stop = .notEnabled := by
  cases event with
  | channel event =>
      simp only [channelHostStep] at hstep
      split at hstep
      · cases hstep
        rfl
      · split at hstep
        · cases hstep
          rfl
        · cases hstep
  | connectFails a =>
      simp only [channelHostStep] at hstep
      split at hstep
      · rename_i hcalls
        split at hstep
        · rename_i stop' hclient
          cases hstep
          rw [FlowSetup.step_eq_error (fun hok _ => absurd ?_ hok) hclient]
          · rfl
          · rcases hcalls.2 with hneg | hneg | hneg
            · exact Or.inl hneg
            · exact Or.inr (Or.inl hneg)
            · exact Or.inr (Or.inr (Or.inl hneg))
        · cases hstep
      · cases hstep
        rfl
  | connect fd setsockopt connect port =>
      simp only [channelHostStep] at hstep
      split at hstep
      · split at hstep
        · cases hstep
          rfl
        · cases hstep
      · cases hstep
        rfl
  | accept fd missing =>
      simp only [channelHostStep] at hstep
      split at hstep
      · cases hstep
        rfl
      · split at hstep
        · cases hstep
          rfl
        · split at hstep
          · rename_i stop' hserver
            cases hstep
            rw [hs.accept_eq_error hfits hopen hserver]
            rfl
          · cases hstep
  | server event =>
      simp only [channelHostStep] at hstep
      split at hstep
      · rename_i hforeign
        split at hstep
        · rename_i stop' hserver
          cases hstep
          rw [ServerHost.step_eq_error hforeign hfits hserver]
          rfl
        · cases hstep
      · cases hstep
        rfl
  | recv received =>
      simp only [channelHostStep] at hstep
      split at hstep
      · cases hstep
        rfl
      · rename_i dial hdial
        split at hstep
        · cases hstep
          rfl
        · split at hstep
          · rename_i stop' hclient
            cases hstep
            rw [FlowSetup.step_eq_error (fun _ => hs.queueIndex?_reply hdial) hclient]
            rfl
          · cases hstep

end Bounds

/-- Whatever happens next during the setup, no array of client or server is accessed out of
its bounds and every port is read, as long as the descriptors fit into the set and the files
of the ports can be opened. -/
theorem setup_stays_in_bounds {ring : UInt32 → Fin irqNum} {init mid : ChannelSetup}
    (hscript : init.script = bruteforce2cpus) {pre : List ChannelEvent} {early : List Unit}
    (hpre : runEvents (channelStep ring) init pre = .ok (mid, early))
    (hpoll : mid.script.head? = some (.poll 0)) (server : ServerHost)
    (events : List ChannelHostEvent) (hwhole : ∀ event ∈ events, event.ReplyWhole)
    (s : ChannelHost) (outputs : List Unit)
    (hrun : runEvents (channelHostStep ring) (.start mid server) events = .ok (s, outputs))
    (event : ChannelHostEvent) (hfits : event.FitsFdSet) (hopen : event.FilesOpen) :
    (∀ fault, channelHostStep ring s event ≠ .error (.serverFault fault)) ∧
      ∀ stop, channelHostStep ring s event ≠ .error (.clientFault stop) := by
  have hsound : s.Sound ring :=
    (ChannelHost.start_sound (steered_of_first_poll hscript hpre hpoll) server).run hwhole hrun
  constructor
  · intro fault hstep
    cases hsound.step_eq_error hfits hopen hstep
  · intro stop hstep
    cases hsound.step_eq_error hfits hopen hstep

/-- The server accepts and the client reads while the first queue is steered. -/
theorem setup_stays_in_bounds_connection :
    ∃ mid early s s' outputs outputs',
      runEvents (channelStep ringInTurn) setupLoaded (List.replicate 12 .script) =
        .ok (mid, early) ∧
      runEvents (channelHostStep ringInTurn) (.start mid (.start 3))
        ((connection 5 1000 1 11).take 2) = .ok (s, outputs) ∧
      (∀ fault, channelHostStep ringInTurn s (.accept 11 fun _ => none) ≠
        .error (.serverFault fault)) ∧
      runEvents (channelHostStep ringInTurn) (.start mid (.start 3))
        ((connection 5 1000 1 11).take 3) = .ok (s', outputs') ∧
      ∀ stop, channelHostStep ringInTurn s' (.recv 8) ≠ .error (.clientFault stop) := by
  have hparts : (runEvents (channelStep ringInTurn) setupLoaded (List.replicate 12 .script)).map
      (fun result => (result.1.script.head?,
        (runEvents (channelHostStep ringInTurn) (.start result.1 (.start 3))
          ((connection 5 1000 1 11).take 2)).map fun result => result.1.sockets)) =
      .ok (some (.poll 0), .ok [(5, 1000)]) := by decide +kernel
  have haccepted : (runEvents (channelStep ringInTurn) setupLoaded
      (List.replicate 12 .script)).map (fun result =>
        (runEvents (channelHostStep ringInTurn) (.start result.1 (.start 3))
          ((connection 5 1000 1 11).take 3)).map fun result => result.1.sockets) =
      .ok (.ok [(5, 1000)]) := by decide +kernel
  obtain ⟨⟨mid, early⟩, hmid, hmidParts⟩ := exists_ok_of_map_eq hparts
  obtain ⟨hpoll, hdialed⟩ := Prod.mk.inj hmidParts
  obtain ⟨⟨s, outputs⟩, hrun, _⟩ := exists_ok_of_map_eq hdialed
  rw [hmid] at haccepted
  obtain ⟨⟨s', outputs'⟩, hrun', _⟩ := exists_ok_of_map_eq (Except.ok.inj haccepted)
  refine ⟨mid, early, s, s', outputs, outputs', hmid, hrun, ?_, hrun', ?_⟩
  · exact (setup_stays_in_bounds rfl hmid hpoll _ _ (by decide) s outputs hrun
      (.accept 11 fun _ => none) (by decide : 11 < fdSetSize) fun _ => rfl).1
  · exact (setup_stays_in_bounds rfl hmid hpoll _ _ (by decide) s' outputs' hrun' (.recv 8)
      trivial trivial).2

/-- A file that cannot be opened ends the server with an access out of bounds, even if
the process survives the `fclose`. -/
example :
    (runEvents (channelStep ringInTurn) setupLoaded (List.replicate 12 .script)).map (fun result =>
      (runEvents (channelHostStep ringInTurn) (.start result.1 (.start 3))
        ((connection 5 1000 1 11).take 2 ++ [.accept 11 fun _ => some true])).map
          fun result => result.1.sockets) =
      .ok (.error (.serverFault .connFdsAccess)) := by
  decide +kernel

end SafeTimer
