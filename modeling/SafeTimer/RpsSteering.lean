/-
Receive packet steering in front of the NFQUEUE.  Where it is configured, the softirq of
an rx queue asks `get_rps_cpu` for each packet and may leave it to the backlog of another
CPU, behind which later packets of the same queue get ahead.  The probe of
kmodule/receive/hb_rps_kretprobe makes `get_rps_cpu` answer -1 for heartbeats and barrier
messages, and these stay in order whatever the steering does with the rest.
-/
import SafeTimer.BarrierChannel
import SafeTimer.BarrierFlush
import SafeTimer.Kretprobe

namespace SafeTimer

section Probe

/-- What the probe sees of a packet: its bytes from the IP header on, and where
`skb->transport_header` points. -/
structure RpsSkb where
  packet : List UInt8
  transport : Nat
deriving DecidableEq

/-- `ntohs(udph->dest)` and `ntohs(tcph->dest)`: both headers have the port there. -/
def RpsSkb.dest (skb : RpsSkb) : Nat :=
  (skb.packet.getD (skb.transport + 2) 0).toNat * 256 +
    (skb.packet.getD (skb.transport + 3) 0).toNat

/-- `entry_handler`: the `dport` that is left in `my_data`. -/
def entryHandler (skb : RpsSkb) : Nat :=
  if skb.packet.getD 9 0 = 17 then skb.dest
  else if skb.packet.getD 9 0 = 6 then skb.dest
  else 0

/-- `ret_handler` on the value of `get_rps_cpu`, where `none` is -1. -/
def retHandler {Cpu : Type} (dport : Nat) (ax : Option Cpu) : Option Cpu :=
  if dport = hbServerPort.toNat ∨ dport = barrierServerPort.toNat then none else ax

/-- A call of `get_rps_cpu`, for a packet of one of the rx queues or of another device. -/
structure RpsCall where
  source : Option (Fin irqNum)
  skb : RpsSkb
deriving DecidableEq

def myKretprobe (Cpu : Type) : Kretprobe RpsCall Nat (Option Cpu) where
  entryHandler := fun call => entryHandler call.skb
  handler := retHandler
  maxactive := 20

instance (packet : List UInt8) (protocol : UInt8) (dport header : Nat) :
    Decidable (IpPacket packet protocol dport header) :=
  decidable_of_iff
    (packet.getD 0 0 >>> 4 = 4 ∧ 5 ≤ (packet.getD 0 0 &&& 15).toNat ∧
      (packet.getD 2 0).toNat * 256 + (packet.getD 3 0).toNat = packet.length ∧
      packet.getD 9 0 = protocol ∧ ipHeaderSize packet + header ≤ packet.length ∧
      (packet.getD (ipHeaderSize packet + 2) 0).toNat * 256 +
        (packet.getD (ipHeaderSize packet + 3) 0).toNat = dport)
    ⟨fun ⟨hversion, hihl, htotal, hprotocol, htransport, hdport⟩ =>
        ⟨hversion, hihl, htotal, hprotocol, htransport, hdport⟩,
      fun hp => ⟨hp.version, hp.ihl, hp.total_length, hp.protocol_eq, hp.transport, hp.dport_eq⟩⟩

instance : DecidablePred FromFilter :=
  fun _ => inferInstanceAs (Decidable (_ ∨ _))

/-- The transport header of a packet for the NFQUEUE has been found. -/
def RpsSkb.Parsed (skb : RpsSkb) : Prop :=
  FromFilter skb.packet → skb.transport = ipHeaderSize skb.packet

instance (skb : RpsSkb) : Decidable skb.Parsed :=
  inferInstanceAs (Decidable (_ → _))

/-- The probe knows every packet that goes to the NFQUEUE. -/
theorem retHandler_eq_none {Cpu : Type} {skb : RpsSkb} (hparsed : skb.Parsed)
    (hfilter : FromFilter skb.packet) (ax : Option Cpu) :
    retHandler (entryHandler skb) ax = none := by
  have htransport := hparsed hfilter
  apply if_pos
  rcases hfilter with hudp | htcp
  · left
    rw [entryHandler, if_pos hudp.protocol_eq, RpsSkb.dest, htransport]
    exact hudp.dport_eq
  · right
    rw [entryHandler, htcp.protocol_eq, if_neg (by decide), if_pos rfl, RpsSkb.dest, htransport]
    exact htcp.dport_eq

theorem fromFilter_barrierPacket (epochId : Int64) (i : Fin irqNum) :
    FromFilter (barrierPacket epochId i) := by
  have hlength : (barrierPacket epochId i).length = 56 := by
    simp [barrierPacket, ipHeader, tcpHeader, longBytes_length]
  have hfirst : (barrierPacket epochId i).getD 0 0 = 69 := rfl
  have hhigh : (barrierPacket epochId i).getD 2 0 = 0 := rfl
  have hlow : (barrierPacket epochId i).getD 3 0 = 56 := rfl
  have hport : (barrierPacket epochId i).getD 22 0 = 19 := rfl
  have hport' : (barrierPacket epochId i).getD 23 0 = 138 := rfl
  have hsize : ipHeaderSize (barrierPacket epochId i) = 20 := by
    rw [ipHeaderSize, hfirst]
    decide
  refine Or.inr ⟨by rw [hfirst]; decide, by rw [hfirst]; decide, ?_, rfl, ?_, ?_⟩
  · rw [hhigh, hlow, hlength]
    decide
  · rw [hsize, hlength]
    decide
  · rw [hsize, hport, hport']
    decide

end Probe

/-- The host with the steering in front.  The rx queues hold packets of all kinds, the
first one also while `get_rps_cpu` runs for it. -/
structure SteeredHost (Table : Type → Type) (Cpu : Type) where
  host : Host Table
  poller : Fin irqNum → Option Cpu
  probe : ProbeState Cpu RpsCall Nat
  backlogs : Cpu → List Packet

inductive SteeredEvent (Cpu : Type) where
  /-- anything but the way from an rx queue to the NFQUEUE -/
  | host (event : HostEvent)
  /-- the softirq takes the first packet of the rx queue to `get_rps_cpu` -/
  | poll (cpu : Cpu) (queue : Fin irqNum) (transport : Nat)
  /-- the same for a packet of another device -/
  | pollOther (cpu : Cpu) (skb : RpsSkb)
  /-- `get_rps_cpu` returns the value, before the probe has seen it -/
  | rpsReturn (cpu : Cpu) (value : Option Cpu)
  | processBacklog (cpu : Cpu)

variable {Table : Type → Type} {Cpu : Type}

def SteeredHost.initial (ht : HashTable Table) : SteeredHost Table Cpu :=
  ⟨.initial ht, fun _ => none, .initial, fun _ => []⟩

/-- `__netif_receive_skb`: the rules of sbin/add_filter_rule.sh hand the packet over, or
it goes elsewhere. -/
def SteeredHost.receive (s : SteeredHost Table Cpu) (p : Packet) :
    SteeredHost Table Cpu × Option HostEvent :=
  if FromFilter p.payload then
    ({ s with host := { s.host with nfqueue := s.host.nfqueue ++ [p] }.tick },
      some (.softirq p.queue))
  else (s, none)

/-- One step, with the event of the plain host that it stands for. -/
def steeredStep [DecidableEq Cpu] (kretprobe : Kretprobe RpsCall Nat (Option Cpu))
    (ht : HashTable Table) (s : SteeredHost Table Cpu) :
    SteeredEvent Cpu → Except Stop (SteeredHost Table Cpu × Option HostEvent)
  | .host (.softirq _) => .error .notEnabled
  | .host (.arrive queue payload) =>
      if FromFilter payload then
        .ok ({ s with host := (s.host.enqueue queue payload none).tick },
          some (.arrive queue payload))
      else .ok ({ s with host := s.host.enqueue queue payload none }, none)
  | .host event =>
      match hostStep ht s.host event with
      | .error stop => .error stop
      | .ok (host, _) => .ok ({ s with host := host }, some event)
  | .poll cpu queue transport =>
      match s.host.rxQueues queue with
      | [] => .error .notEnabled
      | p :: _ =>
          -- an rx queue is polled by one CPU at a time, a CPU runs one softirq
          if s.poller queue = none ∧ (s.probe.calls cpu).isEmpty then
            .ok ({ s with
              poller := Function.update s.poller queue (some cpu)
              probe := kretprobe.enter s.probe cpu ⟨some queue, p.payload, transport⟩ }, none)
          else .error .notEnabled
  | .pollOther cpu skb =>
      if (s.probe.calls cpu).isEmpty then
        .ok ({ s with probe := kretprobe.enter s.probe cpu ⟨none, skb⟩ }, none)
      else .error .notEnabled
  | .rpsReturn cpu value =>
      match kretprobe.leave s.probe cpu value with
      | none => .error .notEnabled
      | some (probe, ⟨none, _⟩, _) => .ok ({ s with probe := probe }, none)
      | some (probe, ⟨some queue, _⟩, target) =>
          match s.host.rxQueues queue with
          | [] => .error .notEnabled
          | p :: rest =>
              let s' := { s with
                host := { s.host with rxQueues := Function.update s.host.rxQueues queue rest }
                poller := Function.update s.poller queue none
                probe := probe }
              match target with
              | none => .ok (s'.receive p)
              | some other =>
                  .ok ({ s' with
                    backlogs := Function.update s.backlogs other (s.backlogs other ++ [p]) },
                    none)
  | .processBacklog cpu =>
      match s.backlogs cpu with
      | [] => .error .notEnabled
      | p :: rest => .ok ({ s with backlogs := Function.update s.backlogs cpu rest }.receive p)

section Filtered

/-- The host without the packets that do not go to the NFQUEUE. -/
def Host.filtered (h : Host Table) : Host Table :=
  { h with
    rxQueues := fun queue => (h.rxQueues queue).filter fun p => FromFilter p.payload
    pendingCheck := h.pendingCheck.map fun c =>
      { c with unprocessed := c.unprocessed.filter fun p => FromFilter p.payload } }

/-- What is in the NFQUEUE or on its way from `send_barrier_message` has to be there. -/
structure Host.HandedOver (h : Host Table) : Prop where
  nfqueue : ∀ p ∈ h.nfqueue, FromFilter p.payload
  inFlight : ∀ queue, ∀ message ∈ h.inFlight queue, FromFilter message.1

variable {ht : HashTable Table} {h h' : Host Table}

theorem Host.HandedOver.filtered_unprocessed (hh : h.HandedOver) :
    h.filtered.unprocessed = h.unprocessed.filter fun p => FromFilter p.payload := by
  have hnf : h.nfqueue.filter (fun p => FromFilter p.payload) = h.nfqueue := by
    rw [List.filter_eq_self]
    intro p hp
    exact decide_eq_true (hh.nfqueue p hp)
  rw [unprocessed, unprocessed, List.filter_append, hnf, List.filter_flatMap]
  rfl

theorem Host.filtered_enqueue (h : Host Table) (queue : Fin irqNum) {payload : List UInt8}
    (hfilter : FromFilter payload) (sentAt : Option Nat) :
    (h.enqueue queue payload sentAt).filtered = h.filtered.enqueue queue payload sentAt := by
  have hqueues : (fun queue' => ((h.enqueue queue payload sentAt).rxQueues queue').filter
      fun p => FromFilter p.payload) =
        (h.filtered.enqueue queue payload sentAt).rxQueues := by
    funext queue'
    by_cases hsame : queue' = queue
    · simp [enqueue, filtered, hsame, hfilter]
    · simp [enqueue, filtered, hsame]
  rw [filtered, hqueues]
  rfl

theorem Host.filtered_enqueue_foreign (h : Host Table) (queue : Fin irqNum)
    {payload : List UInt8} (hforeign : ¬ FromFilter payload) (sentAt : Option Nat) :
    (h.enqueue queue payload sentAt).filtered = h.filtered := by
  have hqueues : (fun queue' => ((h.enqueue queue payload sentAt).rxQueues queue').filter
      fun p => FromFilter p.payload) = h.filtered.rxQueues := by
    funext queue'
    by_cases hsame : queue' = queue
    · simp [enqueue, filtered, hsame, hforeign]
    · simp [enqueue, filtered, hsame]
  rw [filtered, hqueues]
  rfl

theorem Host.HandedOver.filtered_recvRequest (hh : h.HandedOver) (datagram : List UInt8) :
    (h.recvRequest datagram).filtered = h.filtered.recvRequest datagram := by
  cases hread : readRequest datagram with
  | none =>
      rw [recvRequest_of_unread hread, recvRequest_of_unread hread]
      rfl
  | some request =>
      by_cases happ : 0 ≤ request.appId
      · rw [recvRequest_of_accepted hread happ, recvRequest_of_accepted hread happ,
          hh.filtered_unprocessed]
        rfl
      · rw [recvRequest_of_skipped hread happ, recvRequest_of_skipped hread happ]

theorem Host.filtered_pop (h : Host Table) (queue : Fin irqNum) (rest : List Packet) :
    ({ h with rxQueues := Function.update h.rxQueues queue rest } : Host Table).filtered =
      { h.filtered with
        rxQueues := Function.update h.filtered.rxQueues queue
          (rest.filter fun p => FromFilter p.payload) } := by
  have hqueues : (fun queue' => (Function.update h.rxQueues queue rest queue').filter
      fun p => FromFilter p.payload) = Function.update h.filtered.rxQueues queue
        (rest.filter fun p => FromFilter p.payload) := by
    funext queue'
    by_cases hsame : queue' = queue
    · simp [hsame]
    · simp [Host.filtered, hsame]
  rw [Host.filtered, hqueues]
  rfl

/-- The rx queues only get longer. -/
def Host.RxGrow (h h' : Host Table) : Prop :=
  ∀ queue, ∃ new, h'.rxQueues queue = h.rxQueues queue ++ new ∧ ∀ p ∈ new, p.queue = queue

theorem Host.RxGrow.of_eq (hrx : h'.rxQueues = h.rxQueues) : h.RxGrow h' := by
  intro queue
  refine ⟨[], ?_, ?_⟩
  · rw [hrx, List.append_nil]
  · intro p hp
    cases hp

theorem Host.rxGrow_enqueue (h : Host Table) (queue : Fin irqNum) (payload : List UInt8)
    (sentAt : Option Nat) : h.RxGrow (h.enqueue queue payload sentAt) := by
  intro queue'
  by_cases hsame : queue' = queue
  · refine ⟨[⟨payload, queue, h.time, sentAt⟩], ?_, ?_⟩
    · simp [enqueue, hsame]
    · intro p hp
      rw [List.mem_singleton.mp hp, hsame]
  · refine ⟨[], ?_, ?_⟩
    · simp [enqueue, hsame]
    · intro p hp
      cases hp

/-- The event does not come near the steering, and brings no packet but for the
NFQUEUE. -/
def HostEvent.PassesBy : HostEvent → Prop
  | .softirq _ => False
  | .arrive _ payload => FromFilter payload
  | _ => True

theorem HostStep.rxGrow {event : HostEvent} (hstep : HostStep ht h event h')
    (hpasses : event.PassesBy) : h.RxGrow h' := by
  cases hstep with
  | arrive queue payload => exact h.rxGrow_enqueue queue payload none
  | @barrierArrive queue payload sentAt => exact h.rxGrow_enqueue queue payload (some sentAt)
  | softirq => exact hpasses.elim
  | sendBarrier | handle => exact .of_eq rfl
  | @recvRequest datagram =>
      obtain ⟨running, pending, replies, hmoves⟩ := h.serverMoves_recvRequest datagram
      rw [hmoves]
      exact .of_eq rfl
  | @check sendOk c reply =>
      obtain ⟨running, pending, replies, hmoves⟩ := h.serverMoves_sendReply reply sendOk
      rw [hmoves]
      exact .of_eq rfl

theorem HostStep.handedOver (hh : h.HandedOver) {event : HostEvent}
    (hstep : HostStep ht h event h') (hpasses : event.PassesBy) : h'.HandedOver := by
  cases hstep with
  | arrive => exact ⟨hh.nfqueue, hh.inFlight⟩
  | sendBarrier epochId flows =>
      refine ⟨hh.nfqueue, fun queue message hmem => ?_⟩
      simp only [Host.tick, Host.sendBarrier] at hmem
      split at hmem
      · rcases List.mem_append.mp hmem with hold | hnew
        · exact hh.inFlight queue message hold
        · rw [List.mem_singleton.mp hnew]
          exact fromFilter_barrierPacket epochId queue
      · exact hh.inFlight queue message hmem
  | @barrierArrive queue payload sentAt rest hflight =>
      refine ⟨hh.nfqueue, fun queue' message hmem => ?_⟩
      by_cases hsame : queue' = queue
      · subst hsame
        simp only [Host.tick, Function.update_self] at hmem
        exact hh.inFlight queue' message (by rw [hflight]; exact List.mem_cons_of_mem _ hmem)
      · simp only [Host.tick, Function.update_of_ne hsame] at hmem
        exact hh.inFlight queue' message hmem
  | softirq => exact hpasses.elim
  | @handle now p rest receiver hqueue =>
      refine ⟨fun p' hp' => ?_, hh.inFlight⟩
      exact hh.nfqueue p' (by rw [hqueue]; exact List.mem_cons_of_mem p hp')
  | @recvRequest datagram =>
      obtain ⟨running, pending, replies, hmoves⟩ := h.serverMoves_recvRequest datagram
      rw [hmoves]
      exact ⟨hh.nfqueue, hh.inFlight⟩
  | @check sendOk c reply =>
      obtain ⟨running, pending, replies, hmoves⟩ := h.serverMoves_sendReply reply sendOk
      rw [hmoves]
      exact ⟨hh.nfqueue, hh.inFlight⟩

/-- Such events are the same on the filtered host. -/
theorem HostStep.filtered (hh : h.HandedOver) {event : HostEvent}
    (hstep : HostStep ht h event h') (hpasses : event.PassesBy) :
    HostStep ht h.filtered event h'.filtered := by
  cases hstep with
  | arrive queue payload =>
      have hsame : (h.enqueue queue payload none).tick.filtered =
          (h.filtered.enqueue queue payload none).tick := by
        rw [← h.filtered_enqueue queue hpasses none]
        rfl
      rw [hsame]
      exact .arrive queue payload
  | sendBarrier epochId flows => exact .sendBarrier epochId flows
  | @barrierArrive queue payload sentAt rest hflight =>
      have hfilter : FromFilter payload :=
        hh.inFlight queue (payload, sentAt) (by rw [hflight]; exact List.mem_cons_self)
      have hsame : ({ h.enqueue queue payload (some sentAt) with
            inFlight := Function.update h.inFlight queue rest }.tick : Host Table).filtered =
          { h.filtered.enqueue queue payload (some sentAt) with
            inFlight := Function.update h.filtered.inFlight queue rest }.tick := by
        rw [← h.filtered_enqueue queue hfilter (some sentAt)]
        rfl
      rw [hsame]
      exact .barrierArrive hflight
  | softirq => exact hpasses.elim
  | @handle now p rest receiver hqueue hprocess => exact .handle hqueue hprocess
  | @recvRequest datagram hrunning hidle =>
      have hidle' : h.filtered.pendingCheck.isNone := by
        rw [Host.filtered, Option.isNone_map]
        exact hidle
      have hsame : (h.recvRequest datagram).tick.filtered =
          (h.filtered.recvRequest datagram).tick := by
        rw [← hh.filtered_recvRequest]
        rfl
      rw [hsame]
      exact .recvRequest hrunning hidle'
  | @check sendOk c reply hpending hcheck =>
      have hpending' : h.filtered.pendingCheck = some
          { c with unprocessed := c.unprocessed.filter fun p => FromFilter p.payload } := by
        rw [Host.filtered, hpending]
        rfl
      have hsame : (h.sendReply reply sendOk).tick.filtered =
          (h.filtered.sendReply reply sendOk).tick := by
        cases sendOk <;> rfl
      rw [hsame]
      exact .check hpending' hcheck

end Filtered

section Steering

/-- The transport header has been found by the time `get_rps_cpu` is called. -/
def SteeredHost.HeadersParsed (s : SteeredHost Table Cpu) : SteeredEvent Cpu → Prop
  | .poll _ queue transport =>
      ∀ p ∈ (s.host.rxQueues queue).head?, RpsSkb.Parsed ⟨p.payload, transport⟩
  | _ => True

instance (s : SteeredHost Table Cpu) :
    (event : SteeredEvent Cpu) → Decidable (s.HeadersParsed event)
  | .poll _ queue _ => inferInstanceAs (Decidable (∀ p ∈ (s.host.rxQueues queue).head?, _))
  | .host _ | .pollOther .. | .rpsReturn .. | .processBacklog _ => isTrue trivial

/-- A call for an rx queue is about its first packet, on the CPU that polls the queue. -/
def SteeredHost.Polls (s : SteeredHost Table Cpu) (cpu : Cpu) (call : RpsCall) : Prop :=
  ∀ queue, call.source = some queue →
    s.poller queue = some cpu ∧ call.skb.Parsed ∧
      ∃ p rest, s.host.rxQueues queue = p :: rest ∧ p.payload = call.skb.packet

variable [Fintype Cpu]

/-- The steering has not got hold of a packet for the NFQUEUE. -/
structure SteeredHost.InOrder (s : SteeredHost Table Cpu) : Prop where
  covers : (myKretprobe Cpu).Covers s.probe
  single : ∀ cpu, (s.probe.calls cpu).length ≤ 1
  polled : ∀ cpu, ∀ call ∈ s.probe.calls cpu, s.Polls cpu call.arg
  rx_queue : ∀ queue, ∀ p ∈ s.host.rxQueues queue, p.queue = queue
  backlogs : ∀ cpu, ∀ p ∈ s.backlogs cpu, ¬ FromFilter p.payload
  handed : s.host.HandedOver

variable {ht : HashTable Table} {s s' : SteeredHost Table Cpu}

theorem inOrder_initial (ht : HashTable Table) :
    (SteeredHost.initial ht : SteeredHost Table Cpu).InOrder := by
  constructor
  case covers => exact (myKretprobe Cpu).covers_initial
  case single =>
    intro cpu
    exact Nat.zero_le 1
  case polled | rx_queue | backlogs =>
    intro index entry hmem
    cases hmem
  case handed =>
    constructor
    · intro p hp
      cases hp
    · intro queue message hmem
      cases hmem

/-- Packets come in behind those that are there. -/
theorem SteeredHost.InOrder.grow (hs : s.InOrder) {h' : Host Table} (hgrow : s.host.RxGrow h')
    (hhanded : h'.HandedOver) : ({ s with host := h' } : SteeredHost Table Cpu).InOrder := by
  refine ⟨hs.covers, hs.single, ?_, ?_, hs.backlogs, hhanded⟩
  · intro cpu call hmem queue hsource
    obtain ⟨hpoller, hparsed, p, rest, hqueue, hpayload⟩ := hs.polled cpu call hmem queue hsource
    obtain ⟨new, hnew, _⟩ := hgrow queue
    refine ⟨hpoller, hparsed, p, rest ++ new, ?_, hpayload⟩
    rw [hnew, hqueue, List.cons_append]
  · intro queue p hp
    obtain ⟨new, hnew, hqueue⟩ := hgrow queue
    rw [hnew] at hp
    rcases List.mem_append.mp hp with hold | hlast
    · exact hs.rx_queue queue p hold
    · exact hqueue p hlast

/-- What a step means for the plain host behind the filter. -/
def SteeredHost.Simulates (ht : HashTable Table) (s s' : SteeredHost Table Cpu)
    (label : Option HostEvent) : Prop :=
  label = none ∧ s'.host.filtered = s.host.filtered ∨
    ∃ event, label = some event ∧ hostStep ht s.host.filtered event = .ok (s'.host.filtered, ())

theorem SteeredHost.InOrder.host (hs : s.InOrder) {event : HostEvent} {h' : Host Table}
    (hhost : hostStep ht s.host event = .ok (h', ())) (hpasses : event.PassesBy) :
    ({ s with host := h' } : SteeredHost Table Cpu).InOrder ∧
      s.Simulates ht { s with host := h' } (some event) := by
  have hstep := hostStep_eq_ok_iff.mp hhost
  refine ⟨hs.grow (hstep.rxGrow hpasses) (hstep.handedOver hs.handed hpasses), Or.inr ?_⟩
  exact ⟨event, rfl, hostStep_eq_ok_iff.mpr (hstep.filtered hs.handed hpasses)⟩

/-- The packet that has left its rx queue is the next one there for the plain host. -/
theorem SteeredHost.simulates_receive (ht : HashTable Table) {s s₁ : SteeredHost Table Cpu}
    (hs : s.InOrder) (hs₁ : s₁.InOrder) {queue : Fin irqNum} {p : Packet} {rest : List Packet}
    (hqueue : s.host.rxQueues queue = p :: rest)
    (hhost : s₁.host =
      { s.host with rxQueues := Function.update s.host.rxQueues queue rest }) :
    (s₁.receive p).1.InOrder ∧ s.Simulates ht (s₁.receive p).1 (s₁.receive p).2 := by
  have hp : p.queue = queue := hs.rx_queue queue p (by rw [hqueue]; exact List.mem_cons_self)
  have hpopped : s₁.host.filtered = { s.host.filtered with
      rxQueues := Function.update s.host.filtered.rxQueues queue
        (rest.filter fun p => FromFilter p.payload) } := by
    rw [hhost, Host.filtered_pop]
  by_cases hfilter : FromFilter p.payload
  · rw [SteeredHost.receive, if_pos hfilter]
    have hnext : s.host.filtered.rxQueues queue =
        p :: rest.filter fun p => FromFilter p.payload := by
      simp [Host.filtered, hqueue, hfilter]
    refine ⟨hs₁.grow (.of_eq rfl) ⟨?_, hs₁.handed.inFlight⟩, Or.inr ⟨_, rfl, ?_⟩⟩
    · intro p' hp'
      rcases List.mem_append.mp hp' with hold | hlast
      · exact hs₁.handed.nfqueue p' hold
      · rw [List.mem_singleton.mp hlast]
        exact hfilter
    · have hafter : ({ s₁.host with nfqueue := s₁.host.nfqueue ++ [p] }.tick).filtered =
          ({ s₁.host.filtered with nfqueue := s₁.host.nfqueue ++ [p] }).tick := rfl
      rw [hp]
      simp only [hostStep, hnext, hafter, hpopped]
      rw [hhost]
      rfl
  · rw [SteeredHost.receive, if_neg hfilter]
    refine ⟨hs₁, Or.inl ⟨rfl, ?_⟩⟩
    have hsame : s.host.filtered.rxQueues queue =
        rest.filter fun p => FromFilter p.payload := by
      simp [Host.filtered, hqueue, hfilter]
    rw [hpopped, ← hsame, Function.update_eq_self]

variable [DecidableEq Cpu]

theorem SteeredHost.InOrder.backlog (hs : s.InOrder) (cpu : Cpu) {packets : List Packet}
    (hforeign : ∀ p ∈ packets, ¬ FromFilter p.payload) :
    ({ s with backlogs := Function.update s.backlogs cpu packets } :
      SteeredHost Table Cpu).InOrder := by
  refine ⟨hs.covers, hs.single, hs.polled, hs.rx_queue, ?_, hs.handed⟩
  intro cpu' p hp
  by_cases hsame : cpu' = cpu
  · subst hsame
    simp only [Function.update_self] at hp
    exact hforeign p hp
  · simp only [Function.update_of_ne hsame] at hp
    exact hs.backlogs cpu' p hp

/-- A call begins on an idle CPU. -/
theorem SteeredHost.InOrder.enter (hs : s.InOrder) (hcpus : Fintype.card Cpu ≤ 20) {cpu : Cpu}
    (hidle : s.probe.calls cpu = []) {call : RpsCall} {poller : Fin irqNum → Option Cpu}
    (hcall : ({ s with poller := poller } : SteeredHost Table Cpu).Polls cpu call)
    (hpoller : ∀ queue cpu', s.poller queue = some cpu' → poller queue = some cpu') :
    ({ s with
      poller := poller
      probe := (myKretprobe Cpu).enter s.probe cpu call } :
        SteeredHost Table Cpu).InOrder := by
  have hfew : s.probe.underWay < (myKretprobe Cpu).maxactive :=
    Nat.lt_of_lt_of_le (ProbeState.underWay_lt_card hs.single hidle) hcpus
  obtain ⟨hcovers, hcalls⟩ := hs.covers.enter hfew cpu call
  refine ⟨hcovers, ?_, ?_, hs.rx_queue, hs.backlogs, hs.handed⟩
  · intro cpu'
    by_cases hsame : cpu' = cpu
    · simp [hcalls, hsame, hidle]
    · simp only [hcalls, Function.update_of_ne hsame]
      exact hs.single cpu'
  · intro cpu' call' hmem
    by_cases hsame : cpu' = cpu
    · subst hsame
      simp only [hcalls, Function.update_self, hidle, List.mem_singleton] at hmem
      rw [hmem]
      exact hcall
    · simp only [hcalls, Function.update_of_ne hsame] at hmem
      intro queue hsource
      obtain ⟨hold, hrest⟩ := hs.polled cpu' call' hmem queue hsource
      exact ⟨hpoller queue cpu' hold, hrest⟩

/-- The calls that are left when the one of a CPU has returned. -/
theorem SteeredHost.InOrder.mem_left (hs : s.InOrder) {cpu : Cpu}
    {call : ProbedCall RpsCall Nat} {rest : List (ProbedCall RpsCall Nat)}
    (hcalls : s.probe.calls cpu = call :: rest) {cpu' : Cpu} {call' : ProbedCall RpsCall Nat}
    (hmem : call' ∈ Function.update s.probe.calls cpu rest cpu') :
    cpu' ≠ cpu ∧ call' ∈ s.probe.calls cpu' := by
  have hsingle := hs.single cpu
  rw [hcalls, List.length_cons] at hsingle
  have hrest : rest = [] := List.eq_nil_of_length_eq_zero (by omega)
  by_cases hsame : cpu' = cpu
  · rw [hsame, Function.update_self, hrest] at hmem
    cases hmem
  · rw [Function.update_of_ne hsame] at hmem
    exact ⟨hsame, hmem⟩

theorem SteeredHost.InOrder.single_left (hs : s.InOrder) {cpu : Cpu}
    {call : ProbedCall RpsCall Nat} {rest : List (ProbedCall RpsCall Nat)}
    (hcalls : s.probe.calls cpu = call :: rest) (cpu' : Cpu) :
    (Function.update s.probe.calls cpu rest cpu').length ≤ 1 := by
  by_cases hsame : cpu' = cpu
  · have hsingle := hs.single cpu
    rw [hcalls, List.length_cons] at hsingle
    rw [hsame, Function.update_self]
    omega
  · rw [Function.update_of_ne hsame]
    exact hs.single cpu'

/-- The first packet of a queue leaves with the call that was made for it. -/
theorem SteeredHost.InOrder.pop (hs : s.InOrder) {cpu : Cpu} {call : ProbedCall RpsCall Nat}
    {left : List (ProbedCall RpsCall Nat)} (hcalls : s.probe.calls cpu = call :: left)
    {queue : Fin irqNum} (hsource : call.arg.source = some queue) {p : Packet}
    {rest : List Packet} (hqueue : s.host.rxQueues queue = p :: rest)
    {probe : ProbeState Cpu RpsCall Nat} (hcovers : (myKretprobe Cpu).Covers probe)
    (hleft : probe.calls = Function.update s.probe.calls cpu left) :
    ({ s with
      host := { s.host with rxQueues := Function.update s.host.rxQueues queue rest }
      poller := Function.update s.poller queue none
      probe := probe } : SteeredHost Table Cpu).InOrder := by
  have hpoller : s.poller queue = some cpu :=
    (hs.polled cpu call (by rw [hcalls]; exact List.mem_cons_self) queue hsource).1
  refine ⟨hcovers, ?_, ?_, ?_, hs.backlogs, ⟨hs.handed.nfqueue, hs.handed.inFlight⟩⟩
  · intro cpu'
    simp only [hleft]
    exact hs.single_left hcalls cpu'
  · intro cpu' call' hmem queue' hsource'
    simp only [hleft] at hmem
    obtain ⟨hne, hold⟩ := hs.mem_left hcalls hmem
    obtain ⟨hpoller', hparsed, p', rest', hqueue', hpayload⟩ :=
      hs.polled cpu' call' hold queue' hsource'
    -- the other calls are for other queues: a queue has one poller
    have hother : queue' ≠ queue := by
      rintro rfl
      rw [hpoller] at hpoller'
      exact hne (Option.some.inj hpoller').symm
    refine ⟨?_, hparsed, p', rest', ?_, hpayload⟩
    · simp only [Function.update_of_ne hother]
      exact hpoller'
    · simp only [Function.update_of_ne hother]
      exact hqueue'
  · intro queue' p' hp'
    by_cases hsame : queue' = queue
    · subst hsame
      simp only [Function.update_self] at hp'
      exact hs.rx_queue queue' p' (by rw [hqueue]; exact List.mem_cons_of_mem p hp')
    · simp only [Function.update_of_ne hsame] at hp'
      exact hs.rx_queue queue' p' hp'

/-- `get_rps_cpu` returns for a packet of another device. -/
theorem SteeredHost.InOrder.returnOther (hs : s.InOrder) {cpu : Cpu} {value target : Option Cpu}
    {probe : ProbeState Cpu RpsCall Nat} {skb : RpsSkb}
    (hleave : (myKretprobe Cpu).leave s.probe cpu value = some (probe, ⟨none, skb⟩, target)) :
    ({ s with probe := probe } : SteeredHost Table Cpu).InOrder := by
  obtain ⟨hcovers, _, call, rest, hcalls, _, hleft⟩ := hs.covers.leave hleave
  refine ⟨hcovers, ?_, ?_, hs.rx_queue, hs.backlogs, hs.handed⟩
  · intro cpu'
    simp only [hleft]
    exact hs.single_left hcalls cpu'
  · intro cpu' call' hmem
    simp only [hleft] at hmem
    exact hs.polled cpu' call' (hs.mem_left hcalls hmem).2

/-- It returns for a packet of an rx queue: one for the NFQUEUE goes straight on. -/
theorem SteeredHost.InOrder.returnQueue (hs : s.InOrder) {cpu : Cpu} {value target : Option Cpu}
    {probe : ProbeState Cpu RpsCall Nat} {queue : Fin irqNum} {skb : RpsSkb}
    (hleave : (myKretprobe Cpu).leave s.probe cpu value =
      some (probe, ⟨some queue, skb⟩, target))
    {p : Packet} {rest : List Packet} (hqueue : s.host.rxQueues queue = p :: rest) :
    ({ s with
      host := { s.host with rxQueues := Function.update s.host.rxQueues queue rest }
      poller := Function.update s.poller queue none
      probe := probe } : SteeredHost Table Cpu).InOrder ∧
      (FromFilter p.payload → target = none) := by
  obtain ⟨hcovers, htarget, call, left, hcalls, harg, hleft⟩ := hs.covers.leave hleave
  have hsource : call.arg.source = some queue := by rw [harg]
  refine ⟨hs.pop hcalls hsource hqueue hcovers hleft, ?_⟩
  intro hfilter
  obtain ⟨_, hparsed, p', rest', hqueue', hpayload⟩ :=
    hs.polled cpu call (by rw [hcalls]; exact List.mem_cons_self) queue hsource
  obtain ⟨rfl, _⟩ := List.cons.inj (hqueue.symm.trans hqueue')
  rw [harg] at hparsed hpayload
  rw [htarget]
  exact retHandler_eq_none hparsed (by rw [← hpayload]; exact hfilter) value

/-- One step. -/
theorem SteeredHost.InOrder.step (hs : s.InOrder) (hcpus : Fintype.card Cpu ≤ 20)
    {event : SteeredEvent Cpu} (hparsed : s.HeadersParsed event) {label : Option HostEvent}
    (hstep : steeredStep (myKretprobe Cpu) ht s event = .ok (s', label)) :
    s'.InOrder ∧ s.Simulates ht s' label := by
  cases event with
  | host event =>
      cases event with
      | softirq queue => cases hstep
      | arrive queue payload =>
          simp only [steeredStep] at hstep
          split at hstep
          · rename_i hfilter
            cases hstep
            exact hs.host rfl hfilter
          · rename_i hforeign
            cases hstep
            refine ⟨hs.grow (s.host.rxGrow_enqueue queue payload none) ?_, Or.inl ⟨rfl, ?_⟩⟩
            · exact ⟨hs.handed.nfqueue, hs.handed.inFlight⟩
            · exact s.host.filtered_enqueue_foreign queue hforeign none
      | sendBarrier | barrierArrive | handle | recvRequest | check =>
          simp only [steeredStep] at hstep
          split at hstep
          · cases hstep
          · rename_i h' _ hhost
            cases hstep
            exact hs.host hhost trivial
  | poll cpu queue transport =>
      simp only [steeredStep] at hstep
      split at hstep
      · cases hstep
      · rename_i p rest hqueue
        split at hstep
        · rename_i henabled
          cases hstep
          refine ⟨hs.enter hcpus (List.isEmpty_iff.mp henabled.2) ?_ ?_, Or.inl ⟨rfl, rfl⟩⟩
          · intro queue' hsource
            cases hsource
            refine ⟨Function.update_self _ _ _, ?_, p, rest, hqueue, rfl⟩
            exact hparsed p (by rw [hqueue]; rfl)
          · intro queue' cpu' hpoller
            by_cases hsame : queue' = queue
            · rw [hsame, henabled.1] at hpoller
              cases hpoller
            · rw [Function.update_of_ne hsame]
              exact hpoller
        · cases hstep
  | pollOther cpu skb =>
      simp only [steeredStep] at hstep
      split at hstep
      · rename_i henabled
        cases hstep
        exact ⟨hs.enter hcpus (List.isEmpty_iff.mp henabled) nofun (fun _ _ hold => hold),
          Or.inl ⟨rfl, rfl⟩⟩
      · cases hstep
  | rpsReturn cpu value =>
      simp only [steeredStep] at hstep
      split at hstep
      · cases hstep
      · rename_i hleave
        cases hstep
        exact ⟨hs.returnOther hleave, Or.inl ⟨rfl, rfl⟩⟩
      · rename_i probe queue skb target hleave
        split at hstep
        · cases hstep
        · rename_i p rest hqueue
          obtain ⟨hs₁, hstays⟩ := hs.returnQueue hleave hqueue
          have hreceive := SteeredHost.simulates_receive ht hs hs₁ hqueue rfl
          split at hstep
          · rw [Except.ok.inj hstep] at hreceive
            exact hreceive
          · rename_i other
            cases hstep
            have hforeign : ¬ FromFilter p.payload := by
              intro hfilter
              cases hstays hfilter
            rw [SteeredHost.receive, if_neg hforeign] at hreceive
            refine ⟨hs₁.backlog other ?_, hreceive.2⟩
            intro p' hp'
            rcases List.mem_append.mp hp' with hold | hlast
            · exact hs.backlogs other p' hold
            · rw [List.mem_singleton.mp hlast]
              exact hforeign
  | processBacklog cpu =>
      simp only [steeredStep] at hstep
      split at hstep
      · cases hstep
      · rename_i p rest hbacklog
        have hforeign : ¬ FromFilter p.payload :=
          hs.backlogs cpu p (by rw [hbacklog]; exact List.mem_cons_self)
        rw [SteeredHost.receive, if_neg hforeign] at hstep
        cases hstep
        refine ⟨hs.backlog cpu ?_, Or.inl ⟨rfl, rfl⟩⟩
        intro p' hp'
        exact hs.backlogs cpu p' (by rw [hbacklog]; exact List.mem_cons_of_mem p hp')

theorem steered_run (hcpus : Fintype.card Cpu ≤ 20) {events : List (SteeredEvent Cpu)}
    (hparsed : EveryStep (steeredStep (myKretprobe Cpu) ht) (fun _ => SteeredHost.HeadersParsed)
      (.initial ht) events)
    {labels : List (Option HostEvent)}
    (hrun : runEvents (steeredStep (myKretprobe Cpu) ht) (.initial ht) events =
      .ok (s, labels)) :
    s.InOrder ∧ ∃ outputs,
      runEvents (hostStep ht) (.initial ht) (labels.filterMap id) =
        .ok (s.host.filtered, outputs) := by
  obtain ⟨h, outputs, hhost, hs, rfl⟩ := hparsed.simulation id
    (fun _ s h => s.InOrder ∧ h = s.host.filtered) ⟨inOrder_initial ht, rfl⟩ (by
      rintro pre state _ event next label ⟨hstate, rfl⟩ hheaders hstep
      obtain ⟨hnext, hquiet | ⟨hostEvent, hlabel, hhost⟩⟩ := hstate.step hcpus hheaders hstep
      · exact Or.inl ⟨hquiet.1, hnext, hquiet.2.symm⟩
      · exact Or.inr ⟨hostEvent, _, (), hlabel, hhost, hnext, rfl⟩) hrun
  exact ⟨hs, outputs, hhost⟩

end Steering

/-- With the probe, steering of any kind is invisible behind the filter: what arrives in
the NFQUEUE is what the plain host brings there, no packet for it is in a backlog, and the
probe misses no call. -/
theorem steeredHost_refines_host [DecidableEq Cpu] [Fintype Cpu]
    (hcpus : Fintype.card Cpu ≤ 20) (ht : HashTable Table) (events : List (SteeredEvent Cpu))
    (hparsed : EveryStep (steeredStep (myKretprobe Cpu) ht) (fun _ => SteeredHost.HeadersParsed)
      (.initial ht) events)
    (s : SteeredHost Table Cpu) (labels : List (Option HostEvent))
    (hrun : runEvents (steeredStep (myKretprobe Cpu) ht) (.initial ht) events =
      .ok (s, labels)) :
    (∃ outputs, runEvents (hostStep ht) (.initial ht) (labels.filterMap id) =
        .ok (s.host.filtered, outputs)) ∧
      (∀ cpu, ∀ p ∈ s.backlogs cpu, ¬ FromFilter p.payload) ∧ s.probe.nmissed = 0 := by
  obtain ⟨hs, hhost⟩ := steered_run hcpus hparsed hrun
  exact ⟨hhost, hs.backlogs, hs.covers.nmissed_eq⟩

/-- A datagram for port 53. -/
def foreignPacket : List UInt8 :=
  ipHeader 17 ⟨10, 0, 0, 9⟩ 28 ++ [0, 0, 0, 53, 0, 8, 0, 0]

attribute [local instance] instNeZeroIrqNum

/-- Everything is to go to the other CPU.  The barrier is announced while one heartbeat is
in its rx queue and the datagram in the backlog. -/
def steeredRun : List (SteeredEvent (Fin 2)) :=
  [.host (.arrive 0 (heartbeatPacket ⟨10, 0, 0, 1⟩ 7)), .host (.arrive 0 foreignPacket),
    .host (.sendBarrier 1 4), .host (.barrierArrive 0), .host (.barrierArrive 1),
    .host (.barrierArrive 2), .host (.barrierArrive 3), .poll 0 0 20, .rpsReturn 0 (some 1),
    .poll 0 0 20, .rpsReturn 0 (some 1), .poll 0 0 20, .rpsReturn 0 (some 1),
    .host (.arrive 0 (heartbeatPacket ⟨10, 0, 0, 2⟩ 7)), .poll 1 1 20, .poll 0 2 20,
    .rpsReturn 1 (some 0), .rpsReturn 0 (some 1), .poll 0 3 20, .rpsReturn 0 (some 1),
    .host (.handle 100), .host (.handle 100), .host (.handle 100), .host (.handle 100),
    .host (.handle 100)]

theorem steeredRun_parsed :
    EveryStep (steeredStep (myKretprobe (Fin 2)) entryList)
      (fun _ => SteeredHost.HeadersParsed) (.initial entryList) steeredRun :=
  everyStep_iff_checkSteps.mpr (by decide)

theorem steeredHost_refines_host_steeredRun :
    ∃ s labels, runEvents (steeredStep (myKretprobe (Fin 2)) entryList) (.initial entryList)
        steeredRun = .ok (s, labels) ∧
      (∃ outputs, runEvents (hostStep entryList) (.initial entryList) (labels.filterMap id) =
        .ok (s.host.filtered, outputs)) ∧
      (s.backlogs 1).length = 1 := by
  have hpart : (runEvents (steeredStep (myKretprobe (Fin 2)) entryList) (.initial entryList)
      steeredRun).map (fun result => (result.1.backlogs 1).length) = .ok 1 := by decide
  obtain ⟨⟨s, labels⟩, hrun, hlength⟩ := exists_ok_of_map_eq hpart
  exact ⟨s, labels, hrun, (steeredHost_refines_host (by decide) entryList steeredRun
    steeredRun_parsed s labels hrun).1, hlength⟩

/-- So the announcement of a barrier still means that every older packet for the NFQUEUE
has been processed, wherever such packets may be. -/
theorem announced_barrier_flushes_steered [DecidableEq Cpu] [Fintype Cpu]
    (hcpus : Fintype.card Cpu ≤ 20) (ht : HashTable Table) (events : List (SteeredEvent Cpu))
    (hparsed : EveryStep (steeredStep (myKretprobe Cpu) ht) (fun _ => SteeredHost.HeadersParsed)
      (.initial ht) events)
    (s : SteeredHost Table Cpu) (labels : List (Option HostEvent))
    (hrun : runEvents (steeredStep (myKretprobe Cpu) ht) (.initial ht) events =
      .ok (s, labels))
    (hturns : BarriersInTurn ht (labels.filterMap id)) (k sentAt : Nat)
    (hsent : BarrierSentAt (labels.filterMap id) k sentAt)
    (hannounced : k < s.host.receiver.barrierAllProcessed) (p : Packet)
    (hp : p ∈ s.host.unprocessed ∨ ∃ cpu, p ∈ s.backlogs cpu)
    (hfilter : FromFilter p.payload) : sentAt ≤ p.arrivedAt := by
  obtain ⟨hs, outputs, hhost⟩ := steered_run hcpus hparsed hrun
  rcases hp with hhere | ⟨cpu, hbacklog⟩
  · have hstate := barrierRun_of_run hturns hhost
    have hmem : p ∈ s.host.filtered.unprocessed := by
      rw [hs.handed.filtered_unprocessed]
      exact List.mem_filter.mpr ⟨hhere, decide_eq_true hfilter⟩
    exact hstate.ordered.sentAt_le_of_passed
      (hstate.exact.announced k sentAt hsent hannounced p.queue) hmem rfl
  · exact absurd hfilter (hs.backlogs cpu p hbacklog)

/-- The same on the plain host. -/
def steeredRunLabels : List HostEvent :=
  [.arrive 0 (heartbeatPacket ⟨10, 0, 0, 1⟩ 7), .sendBarrier 1 4, .barrierArrive 0,
    .barrierArrive 1, .barrierArrive 2, .barrierArrive 3, .softirq 0, .softirq 0,
    .arrive 0 (heartbeatPacket ⟨10, 0, 0, 2⟩ 7), .softirq 1, .softirq 2, .softirq 3,
    .handle 100, .handle 100, .handle 100, .handle 100, .handle 100]

theorem announced_barrier_flushes_steeredRun :
    ∃ s labels, runEvents (steeredStep (myKretprobe (Fin 2)) entryList) (.initial entryList)
        steeredRun = .ok (s, labels) ∧
      s.host.receiver.barrierAllProcessed = 1 ∧
      ∀ p, p ∈ s.host.unprocessed ∨ (∃ cpu, p ∈ s.backlogs cpu) → FromFilter p.payload →
        1 ≤ p.arrivedAt := by
  have hpart : (runEvents (steeredStep (myKretprobe (Fin 2)) entryList) (.initial entryList)
      steeredRun).map (fun result => (result.1.host.receiver.barrierAllProcessed,
        result.2.filterMap id)) = .ok (1, steeredRunLabels) := by decide
  obtain ⟨⟨s, labels⟩, hrun, hvalues⟩ := exists_ok_of_map_eq hpart
  obtain ⟨hannounced, hlabels⟩ := Prod.mk.inj hvalues
  have hturns : BarriersInTurn entryList (labels.filterMap id) := by
    rw [hlabels]
    exact everyStep_of_checkStepsFrom (by decide)
  have hsent : BarrierSentAt (labels.filterMap id) 0 1 := by
    rw [hlabels]
    exact ⟨[_], 1, 4, ⟨_, rfl⟩, rfl, rfl⟩
  refine ⟨s, labels, hrun, hannounced, ?_⟩
  exact announced_barrier_flushes_steered (by decide) entryList steeredRun steeredRun_parsed s
    labels hrun hturns 0 1 hsent (by rw [hannounced]; decide)

/-- Without the probe, which is to say without instances, the heartbeat goes to the
backlog and the barrier is announced ahead of it. -/
example :
    (runEvents (steeredStep { myKretprobe (Fin 2) with maxactive := 0 } entryList)
      (.initial entryList)
      [.host (.arrive 0 (heartbeatPacket ⟨10, 0, 0, 1⟩ 7)), .host (.sendBarrier 1 4),
        .host (.barrierArrive 0), .host (.barrierArrive 1), .host (.barrierArrive 2),
        .host (.barrierArrive 3), .poll 0 0 20, .rpsReturn 0 (some 1), .poll 0 0 20,
        .rpsReturn 0 none, .poll 0 1 20, .rpsReturn 0 none, .poll 0 2 20, .rpsReturn 0 none,
        .poll 0 3 20, .rpsReturn 0 none, .host (.handle 100), .host (.handle 100),
        .host (.handle 100), .host (.handle 100)]).map
      (fun result => (result.1.host.receiver.barrierAllProcessed,
        (result.1.backlogs 1).map Packet.arrivedAt)) = .ok (1, [0]) := by
  decide

end SafeTimer
