/-
The receiving host: packets wait in the rx queues and in the NFQUEUE until
`process_packet` handles them, barrier messages travel the same way, and the server
thread (src/st_receiver.c) answers check requests.
-/
import SafeTimer.EventRun
import SafeTimer.PacketPath

namespace SafeTimer

/-- A packet on the host, with its rx queue and the time of its arrival.  A barrier
message also carries the time at which it was sent. -/
structure Packet where
  payload : List UInt8
  queue : Fin irqNum
  arrivedAt : Nat
  sentAt : Option Nat
deriving DecidableEq

/-- The packet is a heartbeat of the node. -/
def Packet.IsHeartbeat (p : Packet) (appId : Int64) (nodeIp : CString) : Prop :=
  decodePacket p.payload = .ok (.heartbeat appId nodeIp)

instance (p : Packet) (appId : Int64) (nodeIp : CString) :
    Decidable (p.IsHeartbeat appId nodeIp) :=
  inferInstanceAs (Decidable (_ = _))

/-- The arguments of `safetimer_check` in a request. -/
structure CheckRequest where
  appId : Int64
  nodeIp : CString
  start : Int64

/-- `server_routine` on a received datagram.  A long datagram is cut off by
`recvfrom`; for a short one the result is `none` and the loop is left.  The address
goes through `ntohl`, so that its first byte comes last in the message. -/
def readRequest (datagram : List UInt8) : Option CheckRequest :=
  match readLong datagram 0, readByte datagram 8, readByte datagram 9,
      readByte datagram 10, readByte datagram 11, readLong datagram 16 with
  | .ok appId, .ok b3, .ok b2, .ok b1, .ok b0, .ok start =>
      some ⟨appId, inetNtop ⟨b0, b1, b2, b3⟩, start⟩
  | _, _, _, _, _, _ => none

/-- A request that the server has received and not answered yet, with the time and
the packets that were unprocessed then. -/
structure PendingCheck extends CheckRequest where
  receivedAt : Nat
  unprocessed : List Packet

/-- The host.  The times, `processed` and what a pending check remembers are for the
statement only. -/
structure Host (Table : Type → Type) where
  time : Nat
  inFlight : Fin irqNum → List (List UInt8 × Nat)
  rxQueues : Fin irqNum → List Packet
  nfqueue : List Packet
  processed : List Packet
  receiver : Receiver Table
  serverRunning : Bool
  pendingCheck : Option PendingCheck
  replies : List Int

variable {Table : Type → Type}

def Host.initial (ht : HashTable Table) : Host Table :=
  ⟨0, fun _ => [], fun _ => [], [], [], .initial ht, true, none, []⟩

/-- The packets that have arrived and have not been handled. -/
def Host.unprocessed (h : Host Table) : List Packet :=
  h.nfqueue ++ (List.finRange irqNum).flatMap h.rxQueues

inductive HostEvent where
  | arrive (queue : Fin irqNum) (payload : List UInt8)
  | sendBarrier (epochId : Int64) (flows : Nat)
  | barrierArrive (queue : Fin irqNum)
  | softirq (queue : Fin irqNum)
  | handle (now : Int64)
  | recvRequest (datagram : List UInt8)
  | check (sendOk : Bool)
deriving DecidableEq

/-- An event is refused because it cannot happen, or it runs into a fault. -/
inductive Stop where
  | notEnabled
  | fault (fault : Fault)
deriving DecidableEq

/-- A packet enters an rx queue. -/
def Host.enqueue (h : Host Table) (queue : Fin irqNum) (payload : List UInt8)
    (sentAt : Option Nat) : Host Table :=
  { h with
    rxQueues := Function.update h.rxQueues queue
      (h.rxQueues queue ++ [⟨payload, queue, h.time, sentAt⟩]) }

/-- `send_barrier_message`: one message on the flow of every rx queue.  The loop ends
before the flow `flows` if the sender is not runnable any more or `send` fails. -/
def Host.sendBarrier (h : Host Table) (epochId : Int64) (flows : Nat) : Host Table :=
  { h with
    inFlight := fun i =>
      if i.val < flows then h.inFlight i ++ [(barrierPacket epochId i, h.time)]
      else h.inFlight i }

/-- `server_routine` from `recvfrom` to the call of `safetimer_check`. -/
def Host.recvRequest (h : Host Table) (datagram : List UInt8) : Host Table :=
  match readRequest datagram with
  | none => { h with serverRunning := false }
  | some request =>
      if 0 ≤ request.appId then
        { h with pendingCheck := some ⟨request, h.time, h.unprocessed⟩ }
      else h

theorem Host.recvRequest_of_unread {h : Host Table} {datagram : List UInt8}
    (hread : readRequest datagram = none) :
    h.recvRequest datagram = { h with serverRunning := false } := by
  rw [Host.recvRequest, hread]

theorem Host.recvRequest_of_accepted {h : Host Table} {datagram : List UInt8}
    {request : CheckRequest} (hread : readRequest datagram = some request)
    (happ : 0 ≤ request.appId) :
    h.recvRequest datagram =
      { h with pendingCheck := some ⟨request, h.time, h.unprocessed⟩ } := by
  rw [Host.recvRequest, hread]
  exact if_pos happ

theorem Host.recvRequest_of_skipped {h : Host Table} {datagram : List UInt8}
    {request : CheckRequest} (hread : readRequest datagram = some request)
    (happ : ¬ 0 ≤ request.appId) : h.recvRequest datagram = h := by
  rw [Host.recvRequest, hread]
  exact if_neg happ

/-- `server_routine` behind the call: when `sendto` fails, the loop is left. -/
def Host.sendReply (h : Host Table) (reply : Int) (sendOk : Bool) : Host Table :=
  if sendOk then { h with pendingCheck := none, replies := h.replies ++ [reply] }
  else { h with pendingCheck := none, serverRunning := false }

def Host.tick (h : Host Table) : Host Table :=
  { h with time := h.time + 1 }

def hostStep (ht : HashTable Table) (h : Host Table) :
    HostEvent → Except Stop (Host Table × Unit)
  | .arrive queue payload => .ok ((h.enqueue queue payload none).tick, ())
  | .sendBarrier epochId flows => .ok ((h.sendBarrier epochId flows).tick, ())
  | .barrierArrive queue =>
      match h.inFlight queue with
      | [] => .error .notEnabled
      | (payload, sentAt) :: rest =>
          .ok ({ h.enqueue queue payload (some sentAt) with
            inFlight := Function.update h.inFlight queue rest }.tick, ())
  | .softirq queue =>
      match h.rxQueues queue with
      | [] => .error .notEnabled
      | p :: rest =>
          .ok ({ h with
            rxQueues := Function.update h.rxQueues queue rest
            nfqueue := h.nfqueue ++ [p] }.tick, ())
  | .handle now =>
      match h.nfqueue with
      | [] => .error .notEnabled
      | p :: rest =>
          match processPacket ht h.receiver p.payload now with
          | .error fault => .error (.fault fault)
          | .ok receiver =>
              .ok ({ h with
                nfqueue := rest
                processed := h.processed ++ [p]
                receiver := receiver }.tick, ())
  | .recvRequest datagram =>
      if h.serverRunning ∧ h.pendingCheck.isNone then
        .ok ((h.recvRequest datagram).tick, ())
      else .error .notEnabled
  | .check sendOk =>
      match h.pendingCheck with
      | none => .error .notEnabled
      | some c =>
          match safetimerCheck ht h.receiver.tables c.appId c.nodeIp c.start with
          | .error fault => .error (.fault fault)
          | .ok reply =>
              .ok ((h.sendReply reply sendOk).tick, ())

/-- What a step can do. -/
inductive HostStep (ht : HashTable Table) (h : Host Table) : HostEvent → Host Table → Prop where
  | arrive (queue : Fin irqNum) (payload : List UInt8) :
      HostStep ht h (.arrive queue payload) (h.enqueue queue payload none).tick
  | sendBarrier (epochId : Int64) (flows : Nat) :
      HostStep ht h (.sendBarrier epochId flows) (h.sendBarrier epochId flows).tick
  | barrierArrive {queue : Fin irqNum} {payload : List UInt8} {sentAt : Nat}
      {rest : List (List UInt8 × Nat)} (hflight : h.inFlight queue = (payload, sentAt) :: rest) :
      HostStep ht h (.barrierArrive queue)
        { h.enqueue queue payload (some sentAt) with
          inFlight := Function.update h.inFlight queue rest }.tick
  | softirq {queue : Fin irqNum} {p : Packet} {rest : List Packet}
      (hqueue : h.rxQueues queue = p :: rest) :
      HostStep ht h (.softirq queue)
        { h with
          rxQueues := Function.update h.rxQueues queue rest
          nfqueue := h.nfqueue ++ [p] }.tick
  | handle {now : Int64} {p : Packet} {rest : List Packet} {receiver : Receiver Table}
      (hqueue : h.nfqueue = p :: rest)
      (hprocess : processPacket ht h.receiver p.payload now = .ok receiver) :
      HostStep ht h (.handle now)
        { h with nfqueue := rest, processed := h.processed ++ [p], receiver := receiver }.tick
  | recvRequest {datagram : List UInt8} (hrunning : h.serverRunning = true)
      (hidle : h.pendingCheck.isNone) :
      HostStep ht h (.recvRequest datagram) (h.recvRequest datagram).tick
  | check {sendOk : Bool} {c : PendingCheck} {reply : Int} (hpending : h.pendingCheck = some c)
      (hcheck : safetimerCheck ht h.receiver.tables c.appId c.nodeIp c.start = .ok reply) :
      HostStep ht h (.check sendOk) (h.sendReply reply sendOk).tick

theorem hostStep_eq_ok_iff {ht : HashTable Table} {h h' : Host Table} {event : HostEvent} :
    hostStep ht h event = .ok (h', ()) ↔ HostStep ht h event h' := by
  constructor
  · intro hstep
    cases event with
    | arrive queue payload =>
        cases hstep
        exact .arrive queue payload
    | sendBarrier epochId flows =>
        cases hstep
        exact .sendBarrier epochId flows
    | barrierArrive queue =>
        simp only [hostStep] at hstep
        split at hstep
        · cases hstep
        · rename_i hflight
          cases hstep
          exact .barrierArrive hflight
    | softirq queue =>
        simp only [hostStep] at hstep
        split at hstep
        · cases hstep
        · rename_i hqueue
          cases hstep
          exact .softirq hqueue
    | handle now =>
        simp only [hostStep] at hstep
        split at hstep
        · cases hstep
        · rename_i hqueue
          split at hstep
          · cases hstep
          · rename_i hprocess
            cases hstep
            exact .handle hqueue hprocess
    | recvRequest datagram =>
        simp only [hostStep] at hstep
        split at hstep
        · rename_i henabled
          cases hstep
          exact .recvRequest henabled.1 henabled.2
        · cases hstep
    | check sendOk =>
        simp only [hostStep] at hstep
        split at hstep
        · cases hstep
        · rename_i hpending
          split at hstep
          · cases hstep
          · rename_i hcheck
            cases hstep
            exact .check hpending hcheck
  · intro hstep
    cases hstep with
    | arrive | sendBarrier => rfl
    | barrierArrive hflight => simp only [hostStep, hflight]
    | softirq hqueue => simp only [hostStep, hqueue]
    | handle hqueue hprocess => simp only [hostStep, hqueue, hprocess]
    | recvRequest hrunning hidle => simp only [hostStep, if_pos (And.intro hrunning hidle)]
    | check hpending hcheck => simp only [hostStep, hpending, hcheck]

/-- The thread of the server moves no packet. -/
def Host.ServerMoves (h h' : Host Table) : Prop :=
  ∃ running pending replies,
    h' = { h with serverRunning := running, pendingCheck := pending, replies := replies }

theorem Host.serverMoves_recvRequest (h : Host Table) (datagram : List UInt8) :
    h.ServerMoves (h.recvRequest datagram) := by
  rw [recvRequest]
  split
  · exact ⟨_, _, _, rfl⟩
  · split <;> exact ⟨_, _, _, rfl⟩

theorem Host.serverMoves_sendReply (h : Host Table) (reply : Int) (sendOk : Bool) :
    h.ServerMoves (h.sendReply reply sendOk) := by
  cases sendOk <;> exact ⟨_, _, _, rfl⟩

/-- The pending check does not report a failure while a heartbeat of the node that
had arrived when the request was received is unprocessed. -/
def Host.VerdictSafe (ht : HashTable Table) (h : Host Table) : HostEvent → Prop
  | .check _ => ∀ c ∈ h.pendingCheck,
      safetimerCheck ht h.receiver.tables c.appId c.nodeIp c.start = .ok 1 →
      ∀ p ∈ h.unprocessed, p.IsHeartbeat c.appId c.nodeIp → c.receivedAt ≤ p.arrivedAt
  | _ => True

instance (ht : HashTable Table) (h : Host Table) :
    (event : HostEvent) → Decidable (h.VerdictSafe ht event)
  | .check _ => inferInstanceAs (Decidable (∀ c ∈ h.pendingCheck, _))
  | .arrive .. | .sendBarrier .. | .barrierArrive _ | .softirq _ | .handle _
  | .recvRequest _ => inferInstanceAs (Decidable True)

/-- Whenever a check is answered, no heartbeat of the node from before the request
is pending where the answer is 1. -/
def NoVerdictWhilePending (ht : HashTable Table) (events : List HostEvent) : Prop :=
  EveryStep (hostStep ht) (fun _ h event => h.VerdictSafe ht event) (.initial ht) events

/-- The queues are flushed for the pending check: wherever a heartbeat of the node
was waiting when the request was received, a barrier message sent since then has
been processed on the same rx queue. -/
def Host.Flushed (h : Host Table) : HostEvent → Prop
  | .check _ => ∀ c ∈ h.pendingCheck, ∀ p ∈ c.unprocessed, p.IsHeartbeat c.appId c.nodeIp →
      ∃ b ∈ h.processed, b.queue = p.queue ∧ ∃ sentAt ∈ b.sentAt, c.receivedAt ≤ sentAt
  | _ => True

instance (h : Host Table) : (event : HostEvent) → Decidable (h.Flushed event)
  | .check _ => inferInstanceAs (Decidable (∀ c ∈ h.pendingCheck, _))
  | .arrive .. | .sendBarrier .. | .barrierArrive _ | .softirq _ | .handle _
  | .recvRequest _ => inferInstanceAs (Decidable True)

def ChecksFlushed (ht : HashTable Table) (events : List HostEvent) : Prop :=
  EveryStep (hostStep ht) (fun _ h event => h.Flushed event) (.initial ht) events

/-- The packets of one rx queue in the order of their arrival: those that are
processed, those in the NFQUEUE, and those still in the rx queue. -/
def Host.lane (h : Host Table) (queue : Fin irqNum) : List Packet :=
  (h.processed ++ h.nfqueue).filter (fun p => p.queue = queue) ++ h.rxQueues queue

/-- Each rx queue stays in order on its way through the host, and a pending check
remembers every packet from before it. -/
structure HostOrdered (h : Host Table) : Prop where
  rx_queue : ∀ queue, ∀ p ∈ h.rxQueues queue, p.queue = queue
  fifo : ∀ queue, (h.lane queue).Pairwise fun p p' => p.arrivedAt < p'.arrivedAt
  arrived : ∀ queue, ∀ p ∈ h.lane queue, p.arrivedAt < h.time
  inFlight : ∀ queue, ∀ m ∈ h.inFlight queue, m.2 ≤ h.time
  sent : ∀ queue, ∀ p ∈ h.lane queue, ∀ sentAt ∈ p.sentAt, sentAt ≤ p.arrivedAt
  received : ∀ c ∈ h.pendingCheck, c.receivedAt ≤ h.time
  remembered : ∀ c ∈ h.pendingCheck, ∀ p ∈ h.unprocessed,
    p.arrivedAt < c.receivedAt → p ∈ c.unprocessed

section Order

variable {ht : HashTable Table} {h : Host Table}

theorem hostOrdered_initial (ht : HashTable Table) : HostOrdered (Host.initial ht) := by
  constructor
  case rx_queue | arrived | inFlight | sent =>
    intro queue p hmem
    cases hmem
  case fifo =>
    intro queue
    exact List.Pairwise.nil
  case received | remembered =>
    intro c hc
    cases hc

theorem Host.mem_unprocessed {p : Packet} :
    p ∈ h.unprocessed ↔ p ∈ h.nfqueue ∨ ∃ queue, p ∈ h.rxQueues queue := by
  simp [unprocessed]

/-- What is processed has arrived before what is not, on the same rx queue. -/
theorem HostOrdered.processed_lt (hs : HostOrdered h) {b p : Packet}
    (hb : b ∈ h.processed) (hp : p ∈ h.unprocessed) (hqueue : b.queue = p.queue) :
    b.arrivedAt < p.arrivedAt := by
  have hfifo := hs.fifo p.queue
  rw [Host.lane, List.filter_append, List.append_assoc] at hfifo
  apply (List.pairwise_append.mp hfifo).2.2 b _ p _
  · simp [hb, hqueue]
  · rcases Host.mem_unprocessed.mp hp with hnf | ⟨queue, hrx⟩
    · simp [hnf]
    · rw [hs.rx_queue queue p hrx]
      simp [hrx]

/-- Events that bring no packet to the host. -/
theorem HostOrdered.keep (hs : HostOrdered h) {h' : Host Table}
    (hrx : ∀ queue, ∀ p ∈ h'.rxQueues queue, p ∈ h.rxQueues queue)
    (hlane : ∀ queue, h'.lane queue = h.lane queue)
    (hunprocessed : ∀ p ∈ h'.unprocessed, p ∈ h.unprocessed)
    (hflight : ∀ queue, ∀ m ∈ h'.inFlight queue, m.2 ≤ h.time)
    (htime : h'.time = h.time + 1)
    (hpending : ∀ c ∈ h'.pendingCheck,
      c ∈ h.pendingCheck ∨ (c.receivedAt = h.time ∧ c.unprocessed = h.unprocessed)) :
    HostOrdered h' := by
  constructor
  case rx_queue =>
    intro queue p hmem
    exact hs.rx_queue queue p (hrx queue p hmem)
  case fifo =>
    intro queue
    rw [hlane]
    exact hs.fifo queue
  case arrived =>
    intro queue p hmem
    rw [hlane] at hmem
    rw [htime]
    exact Nat.lt_succ_of_lt (hs.arrived queue p hmem)
  case inFlight =>
    intro queue m hmem
    rw [htime]
    exact Nat.le_succ_of_le (hflight queue m hmem)
  case sent =>
    intro queue p hmem
    rw [hlane] at hmem
    exact hs.sent queue p hmem
  case received =>
    intro c hc
    rw [htime]
    rcases hpending c hc with hold | ⟨hnow, _⟩
    · exact Nat.le_succ_of_le (hs.received c hold)
    · omega
  case remembered =>
    intro c hc p hp hearlier
    rcases hpending c hc with hold | ⟨_, hsnapshot⟩
    · exact hs.remembered c hold p (hunprocessed p hp) hearlier
    · rw [hsnapshot]
      exact hunprocessed p hp

theorem Host.lane_enqueue (h : Host Table) (queue : Fin irqNum) (payload : List UInt8)
    (sentAt : Option Nat) (queue' : Fin irqNum) :
    (h.enqueue queue payload sentAt).lane queue' =
      if queue' = queue then h.lane queue ++ [⟨payload, queue, h.time, sentAt⟩]
      else h.lane queue' := by
  by_cases heq : queue' = queue
  · simp [lane, enqueue, heq]
  · simp [lane, enqueue, heq]

theorem Host.mem_lane_enqueue {queue queue' : Fin irqNum} {payload : List UInt8}
    {sentAt : Option Nat} {p : Packet}
    (hp : p ∈ (h.enqueue queue payload sentAt).lane queue') :
    p ∈ h.lane queue' ∨ p = ⟨payload, queue, h.time, sentAt⟩ := by
  rw [lane_enqueue] at hp
  split at hp
  · rename_i hsame
    rw [hsame]
    exact (List.mem_append.mp hp).imp_right List.mem_singleton.mp
  · exact Or.inl hp

theorem Host.mem_rxQueues_enqueue {queue queue' : Fin irqNum} {payload : List UInt8}
    {sentAt : Option Nat} {p : Packet}
    (hp : p ∈ (h.enqueue queue payload sentAt).rxQueues queue') :
    p ∈ h.rxQueues queue' ∨ queue' = queue ∧ p = ⟨payload, queue, h.time, sentAt⟩ := by
  simp only [enqueue] at hp
  by_cases heq : queue' = queue
  · rw [heq, Function.update_self, List.mem_append, List.mem_singleton] at hp
    rw [heq]
    exact hp.imp_right (fun hnew => ⟨rfl, hnew⟩)
  · rw [Function.update_of_ne heq] at hp
    exact Or.inl hp

theorem Host.mem_unprocessed_enqueue {queue : Fin irqNum} {payload : List UInt8}
    {sentAt : Option Nat} {p : Packet} (hp : p ∈ (h.enqueue queue payload sentAt).unprocessed) :
    p ∈ h.unprocessed ∨ p = ⟨payload, queue, h.time, sentAt⟩ := by
  rcases mem_unprocessed.mp hp with hnf | ⟨queue', hrx⟩
  · exact Or.inl (mem_unprocessed.mpr (Or.inl hnf))
  · rcases mem_rxQueues_enqueue hrx with hold | ⟨_, hnew⟩
    · exact Or.inl (mem_unprocessed.mpr (Or.inr ⟨queue', hold⟩))
    · exact Or.inr hnew

/-- A packet comes last in its rx queue. -/
theorem HostOrdered.enqueue (hs : HostOrdered h) (queue : Fin irqNum) (payload : List UInt8)
    {sentAt : Option Nat} (hsent : ∀ t ∈ sentAt, t ≤ h.time)
    {flight : Fin irqNum → List (List UInt8 × Nat)}
    (hflight : ∀ queue, ∀ m ∈ flight queue, m ∈ h.inFlight queue) :
    HostOrdered { h.enqueue queue payload sentAt with inFlight := flight }.tick := by
  -- neither the messages in flight nor the clock are part of a lane
  have hlane : ∀ queue' p, p ∈ (h.enqueue queue payload sentAt).lane queue' →
      p ∈ h.lane queue' ∨ p = ⟨payload, queue, h.time, sentAt⟩ :=
    fun queue' p hp => Host.mem_lane_enqueue hp
  constructor
  case rx_queue =>
    intro queue' p hmem
    rcases Host.mem_rxQueues_enqueue hmem with hold | ⟨hsame, rfl⟩
    · exact hs.rx_queue queue' p hold
    · exact hsame.symm
  case fifo =>
    intro queue'
    change ((h.enqueue queue payload sentAt).lane queue').Pairwise _
    rw [Host.lane_enqueue]
    split
    · apply List.pairwise_append.mpr
      refine ⟨hs.fifo queue, List.pairwise_singleton _ _, ?_⟩
      intro p hmem p' hlast
      rw [List.mem_singleton.mp hlast]
      exact hs.arrived queue p hmem
    · exact hs.fifo queue'
  case arrived =>
    intro queue' p hmem
    apply Nat.lt_succ_of_le
    rcases hlane queue' p hmem with hold | rfl
    · exact Nat.le_of_lt (hs.arrived queue' p hold)
    · exact Nat.le_refl h.time
  case inFlight =>
    intro queue' m hmem
    exact Nat.le_succ_of_le (hs.inFlight queue' m (hflight queue' m hmem))
  case sent =>
    intro queue' p hmem
    rcases hlane queue' p hmem with hold | rfl
    · exact hs.sent queue' p hold
    · exact hsent
  case received =>
    intro c hc
    exact Nat.le_succ_of_le (hs.received c hc)
  case remembered =>
    intro c hc p hp hearlier
    have hmem : p ∈ (h.enqueue queue payload sentAt).unprocessed := hp
    rcases Host.mem_unprocessed_enqueue hmem with hold | rfl
    · exact hs.remembered c hc p hold hearlier
    · exact absurd (hs.received c hc) (Nat.not_le.mpr hearlier)

theorem HostOrdered.softirq (hs : HostOrdered h) {queue : Fin irqNum} {p : Packet}
    {rest : List Packet} (hqueue : h.rxQueues queue = p :: rest) :
    HostOrdered { h with
      rxQueues := Function.update h.rxQueues queue rest
      nfqueue := h.nfqueue ++ [p] }.tick := by
  have hp : p.queue = queue := hs.rx_queue queue p (by rw [hqueue]; exact List.mem_cons_self)
  have hrx : ∀ queue', ∀ p' ∈ Function.update h.rxQueues queue rest queue',
      p' ∈ h.rxQueues queue' := by
    intro queue' p' hmem
    by_cases heq : queue' = queue
    · rw [heq, Function.update_self] at hmem
      rw [heq, hqueue]
      exact List.mem_cons_of_mem p hmem
    · rwa [Function.update_of_ne heq] at hmem
  refine hs.keep hrx ?_ ?_ hs.inFlight rfl (fun c hc => Or.inl hc)
  · intro queue'
    by_cases heq : queue' = queue
    · simp [Host.lane, Host.tick, heq, hp, hqueue]
    · have hne : ¬ queue = queue' := fun hsame => heq hsame.symm
      simp [Host.lane, Host.tick, heq, hp, hne]
  · intro p' hmem
    rcases Host.mem_unprocessed.mp hmem with hnf | ⟨queue', hmem'⟩
    · rcases List.mem_append.mp hnf with hold | hlast
      · exact Host.mem_unprocessed.mpr (Or.inl hold)
      · rw [List.mem_singleton.mp hlast]
        exact Host.mem_unprocessed.mpr (Or.inr ⟨queue, by rw [hqueue]; exact List.mem_cons_self⟩)
    · exact Host.mem_unprocessed.mpr (Or.inr ⟨queue', hrx queue' p' hmem'⟩)

theorem HostOrdered.handle (hs : HostOrdered h) {p : Packet} {rest : List Packet}
    (hqueue : h.nfqueue = p :: rest) (receiver : Receiver Table) :
    HostOrdered { h with
      nfqueue := rest
      processed := h.processed ++ [p]
      receiver := receiver }.tick := by
  refine hs.keep (fun _ _ hmem => hmem) ?_ ?_ hs.inFlight rfl (fun c hc => Or.inl hc)
  · intro queue
    simp [Host.lane, Host.tick, hqueue]
  · intro p' hmem
    rcases Host.mem_unprocessed.mp hmem with hnf | hrx
    · apply Host.mem_unprocessed.mpr
      rw [hqueue]
      exact Or.inl (List.mem_cons_of_mem p hnf)
    · exact Host.mem_unprocessed.mpr (Or.inr hrx)

theorem HostOrdered.sendBarrier (hs : HostOrdered h) (epochId : Int64) (flows : Nat) :
    HostOrdered (h.sendBarrier epochId flows).tick := by
  refine hs.keep (fun _ _ hmem => hmem) (fun _ => rfl) (fun _ hmem => hmem) ?_ rfl
    (fun c hc => Or.inl hc)
  intro queue m hmem
  simp only [Host.sendBarrier, Host.tick] at hmem
  split at hmem
  · rcases List.mem_append.mp hmem with hold | hlast
    · exact hs.inFlight queue m hold
    · rw [List.mem_singleton.mp hlast]
  · exact hs.inFlight queue m hmem

/-- Events of the server thread, which moves no packet. -/
theorem HostOrdered.server (hs : HostOrdered h) (running : Bool) (replies : List Int)
    {pending : Option PendingCheck}
    (hpending : ∀ c ∈ pending,
      c ∈ h.pendingCheck ∨ (c.receivedAt = h.time ∧ c.unprocessed = h.unprocessed)) :
    HostOrdered { h with
      serverRunning := running
      pendingCheck := pending
      replies := replies }.tick :=
  hs.keep (fun _ _ hmem => hmem) (fun _ => rfl) (fun _ hmem => hmem) hs.inFlight rfl hpending

theorem HostOrdered.recvRequest (hs : HostOrdered h) (datagram : List UInt8) :
    HostOrdered (h.recvRequest datagram).tick := by
  rw [Host.recvRequest]
  split
  · exact hs.server false h.replies (fun c hc => Or.inl hc)
  · split
    · apply hs.server h.serverRunning h.replies
      intro c hc
      cases hc
      exact Or.inr ⟨rfl, rfl⟩
    · exact hs.server h.serverRunning h.replies (fun c hc => Or.inl hc)

theorem HostOrdered.sendReply (hs : HostOrdered h) (reply : Int) (sendOk : Bool) :
    HostOrdered (h.sendReply reply sendOk).tick := by
  have hnone : ∀ c ∈ (none : Option PendingCheck),
      c ∈ h.pendingCheck ∨ (c.receivedAt = h.time ∧ c.unprocessed = h.unprocessed) := by
    intro c hc
    cases hc
  cases sendOk with
  | true => exact hs.server h.serverRunning (h.replies ++ [reply]) hnone
  | false => exact hs.server false h.replies hnone

/-- One event. -/
theorem HostStep.ordered (hs : HostOrdered h) {event : HostEvent} {h' : Host Table}
    (hstep : HostStep ht h event h') : HostOrdered h' := by
  cases hstep with
  | arrive queue payload =>
      exact hs.enqueue queue payload (fun t ht => by cases ht) (fun _ _ hmem => hmem)
  | sendBarrier epochId flows => exact hs.sendBarrier epochId flows
  | @barrierArrive queue payload sentAt rest hflight =>
      apply hs.enqueue queue payload
      · intro t ht
        cases ht
        exact hs.inFlight queue (payload, sentAt) (by rw [hflight]; exact List.mem_cons_self)
      · intro queue' m hmem
        by_cases heq : queue' = queue
        · rw [heq, Function.update_self] at hmem
          rw [heq, hflight]
          exact List.mem_cons_of_mem _ hmem
        · rwa [Function.update_of_ne heq] at hmem
  | softirq hqueue => exact hs.softirq hqueue
  | handle hqueue hprocess => exact hs.handle hqueue _
  | recvRequest hrunning hidle => exact hs.recvRequest _
  | check hpending hcheck => exact hs.sendReply _ _

theorem hostOrdered_of_run {events : List HostEvent} {outputs : List Unit}
    (hrun : runEvents (hostStep ht) (.initial ht) events = .ok (h, outputs)) : HostOrdered h := by
  refine runEvents_invariant (fun _ state _ => HostOrdered state) (hostOrdered_initial ht) ?_ hrun
  intro pre state early event next _ _ hstate hstep
  exact (hostStep_eq_ok_iff.mp hstep).ordered hstate

/-- A flushed host has no old heartbeat of the node left: the barrier message came
behind it on the same rx queue. -/
theorem HostOrdered.verdictSafe (hs : HostOrdered h) {event : HostEvent}
    (hflushed : h.Flushed event) : h.VerdictSafe ht event := by
  cases event with
  | check sendOk =>
      intro c hc _ p hp hheartbeat
      by_contra hearlier
      have hold := hs.remembered c hc p hp (Nat.not_le.mp hearlier)
      obtain ⟨b, hb, hqueue, sentAt, hsentAt, hsince⟩ := hflushed c hc p hold hheartbeat
      have hlane : b ∈ h.lane p.queue := by simp [Host.lane, hb, hqueue]
      have hsent := hs.sent p.queue b hlane sentAt hsentAt
      have hbefore := hs.processed_lt hb hp hqueue
      omega
  | _ => trivial

end Order

/-- If every check is answered only after the rx queues with heartbeats of the node
have been flushed by barrier messages, no failure is reported while such a heartbeat
is pending. -/
theorem noVerdictWhilePending_of_checksFlushed (ht : HashTable Table)
    (events : List HostEvent) (hflushed : ChecksFlushed ht events) :
    NoVerdictWhilePending ht events := by
  intro pre event post h outputs hsplit hrun
  exact (hostOrdered_of_run hrun).verdictSafe (hflushed pre event post h outputs hsplit hrun)

/-- The request for application 7 on the node 10.0.0.1. -/
def requestBytes (start : Int64) : List UInt8 :=
  longBytes 7 ++ [1, 0, 0, 10, 0, 0, 0, 0] ++ longBytes start

/-- A heartbeat waits when the request comes; the barrier message behind it is
processed before the check. -/
theorem noVerdictWhilePending_flushed :
    let events : List HostEvent :=
      [.arrive 0 (heartbeatPacket ⟨10, 0, 0, 1⟩ 7), .recvRequest (requestBytes 300),
        .sendBarrier 1 4, .barrierArrive 0, .softirq 0, .softirq 0, .handle 100, .handle 100,
        .check true]
    ChecksFlushed entryList events ∧ NoVerdictWhilePending entryList events := by
  intro events
  have hflushed : ChecksFlushed entryList events := everyStep_iff_checkSteps.mpr (by decide)
  exact ⟨hflushed, noVerdictWhilePending_of_checksFlushed entryList events hflushed⟩

/-- Two heartbeats are processed, the third waits in its rx queue.  The check from 300
on reports a failure without waiting for it. -/
theorem pending_heartbeat_reported_failed :
    ¬ ∀ (Table : Type → Type) (ht : HashTable Table), ht.Lawful →
      ∀ events : List HostEvent, NoVerdictWhilePending ht events := by
  intro hproperty
  let heartbeat := heartbeatPacket ⟨10, 0, 0, 1⟩ 7
  let events : List HostEvent :=
    [.arrive 0 heartbeat, .arrive 0 heartbeat, .softirq 0, .softirq 0, .handle 100,
      .handle 200, .arrive 0 heartbeat, .recvRequest (requestBytes 300), .check true]
  have hsafe := hproperty _ entryList entryList_lawful events
  exact absurd (everyStep_iff_checkSteps.mp hsafe) (by decide)

end SafeTimer
