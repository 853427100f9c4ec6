/-
What the barrier is for: when `process_packet` announces a barrier, every packet that was
on the host before the barrier was sent has been processed, whatever its rx queue.  The
barriers go out one at a time, each after the one before has been announced, and packets
of any other kind come in between.
-/
import SafeTimer.BarrierRounds
import SafeTimer.PacketBounds
import SafeTimer.ReceiverHost

namespace SafeTimer

def HostEvent.isSend : HostEvent → Bool
  | .sendBarrier .. => true
  | _ => false

/-- How many times `send_barrier_message` has been called. -/
def barriersSent (events : List HostEvent) : Nat :=
  events.countP HostEvent.isSend

/-- After `k` other barriers one was sent at this time.  The host counts its events, so
the time is the number of the events before. -/
def BarrierSentAt (events : List HostEvent) (k sentAt : Nat) : Prop :=
  ∃ pre epochId flows, Occurs events pre (.sendBarrier epochId flows) ∧
    barriersSent pre = k ∧ pre.length = sentAt

section Sent

variable {events : List HostEvent} {event : HostEvent} {k sentAt sentAt' : Nat}

theorem barriersSent_concat (events : List HostEvent) (event : HostEvent) :
    barriersSent (events ++ [event]) = barriersSent events + if event.isSend then 1 else 0 := by
  rw [barriersSent, List.countP_append, List.countP_singleton, barriersSent]

theorem BarrierSentAt.lt (hsent : BarrierSentAt events k sentAt) : k < barriersSent events := by
  obtain ⟨pre, epochId, flows, ⟨post, rfl⟩, rfl, _⟩ := hsent
  rw [barriersSent, barriersSent, List.countP_append, List.countP_cons]
  simp [HostEvent.isSend]

/-- The number of the barriers before tells when a barrier was sent. -/
theorem BarrierSentAt.unique (hsent : BarrierSentAt events k sentAt)
    (hsent' : BarrierSentAt events k sentAt') : sentAt = sentAt' := by
  obtain ⟨pre, epochId, flows, hoccurs, hcount, hlength⟩ := hsent
  obtain ⟨pre', epochId', flows', hoccurs', hcount', hlength'⟩ := hsent'
  rcases hoccurs.trichotomy hoccurs' with ⟨rfl, _⟩ | hbefore | hafter
  · exact hlength.symm.trans hlength'
  · have hlt : barriersSent pre < barriersSent pre' :=
      BarrierSentAt.lt ⟨pre, epochId, flows, hbefore, rfl, rfl⟩
    omega
  · have hlt : barriersSent pre' < barriersSent pre :=
      BarrierSentAt.lt ⟨pre', epochId', flows', hafter, rfl, rfl⟩
    omega

theorem barrierSentAt_concat_iff :
    BarrierSentAt (events ++ [event]) k sentAt ↔
      BarrierSentAt events k sentAt ∨
        event.isSend = true ∧ barriersSent events = k ∧ events.length = sentAt := by
  constructor
  · rintro ⟨pre, epochId, flows, hoccurs, hcount, hlength⟩
    rcases occurs_concat_iff.mp hoccurs with ⟨rfl, rfl⟩ | hold
    · exact Or.inr ⟨rfl, hcount, hlength⟩
    · exact Or.inl ⟨pre, epochId, flows, hold, hcount, hlength⟩
  · rintro (⟨pre, epochId, flows, hoccurs, hcount, hlength⟩ | ⟨hsend, hcount, hlength⟩)
    · exact ⟨pre, epochId, flows, hoccurs.append [event], hcount, hlength⟩
    · cases event with
      | sendBarrier epochId flows =>
          exact ⟨events, epochId, flows, ⟨[], rfl⟩, hcount, hlength⟩
      | _ => cases hsend

theorem barrierSentAt_iff :
    BarrierSentAt events k sentAt ↔
      events[sentAt]?.any HostEvent.isSend = true ∧ barriersSent (events.take sentAt) = k := by
  constructor
  · rintro ⟨pre, epochId, flows, ⟨post, rfl⟩, hcount, rfl⟩
    simp [HostEvent.isSend, hcount]
  · rintro ⟨hsend, hcount⟩
    obtain ⟨event, hget, hevent⟩ := (Option.any_eq_true _ _).mp hsend
    obtain ⟨hlt, rfl⟩ := List.getElem?_eq_some_iff.mp hget
    have hsplit : events = events.take sentAt ++ events[sentAt] :: events.drop (sentAt + 1) := by
      rw [← List.drop_eq_getElem_cons hlt, List.take_append_drop]
    generalize events[sentAt] = event at hevent hsplit
    cases event with
    | sendBarrier epochId flows =>
        refine ⟨events.take sentAt, epochId, flows, ⟨_, hsplit⟩, hcount, ?_⟩
        rw [List.length_take]
        omega
    | _ => cases hevent

instance (events : List HostEvent) (k sentAt : Nat) :
    Decidable (BarrierSentAt events k sentAt) :=
  decidable_of_iff _ barrierSentAt_iff.symm

end Sent

section Packets

/-- A barrier message with the time at which it was sent. -/
def Packet.barrier (p : Packet) : Option (List UInt8 × Nat) :=
  p.sentAt.map fun sentAt => (p.payload, sentAt)

variable {Table : Type → Type} {h : Host Table}

/-- The messages of the barrier flow of one rx queue that are not processed, the next one
first. -/
def Host.barriersOn (h : Host Table) (queue : Fin irqNum) : List (List UInt8 × Nat) :=
  (h.nfqueue.filter (fun p => p.queue = queue) ++ h.rxQueues queue).filterMap Packet.barrier ++
    h.inFlight queue

theorem Host.barriersOn_enqueue_none (h : Host Table) (queue : Fin irqNum)
    (payload : List UInt8) (queue' : Fin irqNum) :
    (h.enqueue queue payload none).barriersOn queue' = h.barriersOn queue' := by
  by_cases heq : queue' = queue
  · simp [barriersOn, enqueue, heq, Packet.barrier]
  · simp [barriersOn, enqueue, heq]

/-- A message that arrives is the next one of its flow, and stays where it is in the
order. -/
theorem Host.barriersOn_arrive {queue : Fin irqNum} {payload : List UInt8} {sentAt : Nat}
    {rest : List (List UInt8 × Nat)} (hflight : h.inFlight queue = (payload, sentAt) :: rest)
    (queue' : Fin irqNum) :
    ({ h.enqueue queue payload (some sentAt) with
      inFlight := Function.update h.inFlight queue rest } : Host Table).barriersOn queue' =
        h.barriersOn queue' := by
  by_cases heq : queue' = queue
  · subst heq
    simp [barriersOn, enqueue, Packet.barrier, hflight]
  · simp [barriersOn, enqueue, heq]

theorem Host.barriersOn_softirq {queue : Fin irqNum} {p : Packet} {rest : List Packet}
    (hqueue : h.rxQueues queue = p :: rest) (hp : p.queue = queue) (queue' : Fin irqNum) :
    ({ h with
      rxQueues := Function.update h.rxQueues queue rest
      nfqueue := h.nfqueue ++ [p] } : Host Table).barriersOn queue' = h.barriersOn queue' := by
  by_cases heq : queue' = queue
  · subst heq
    simp [barriersOn, hp, hqueue]
  · have hne : ¬ queue = queue' := fun hsame => heq hsame.symm
    simp [barriersOn, heq, hp, hne]

/-- The packet that is handled next, and what is left behind it. -/
theorem Host.barriersOn_handle {p : Packet} {rest : List Packet}
    (hqueue : h.nfqueue = p :: rest) (queue' : Fin irqNum) :
    h.barriersOn queue' =
      (if p.queue = queue' then p.barrier.toList else []) ++
        ({ h with nfqueue := rest } : Host Table).barriersOn queue' := by
  by_cases heq : p.queue = queue'
  · subst heq
    cases hp : p.barrier with
    | none => simp [barriersOn, hqueue, hp]
    | some message => simp [barriersOn, hqueue, hp]
  · simp [barriersOn, hqueue, heq]

theorem Host.barriersOn_sendBarrier (h : Host Table) (epochId : Int64) {flows : Nat}
    (hflows : irqNum ≤ flows) (queue : Fin irqNum) :
    (h.sendBarrier epochId flows).barriersOn queue =
      h.barriersOn queue ++ [(barrierPacket epochId queue, h.time)] := by
  have hlt : queue.val < flows := Nat.lt_of_lt_of_le queue.isLt hflows
  simp [barriersOn, sendBarrier, hlt]

theorem wellFormedBarrier_iff_of_decode {packet : List UInt8} {epoch queueIndex : Int}
    (hdecode : decodePacket packet = .ok (.barrier (some (epoch, queueIndex)))) :
    WellFormedBarrier packet ↔ 1 ≤ epoch ∧ 0 ≤ queueIndex ∧ queueIndex < irqNum := by
  constructor
  · rintro ⟨epoch', queueIndex', hdecode', hfields⟩
    rw [hdecode] at hdecode'
    cases hdecode'
    exact hfields
  · intro hfields
    exact ⟨epoch, queueIndex, hdecode, hfields⟩

instance (packet : List UInt8) : Decidable (WellFormedBarrier packet) :=
  match hdecode : decodePacket packet with
  | .ok (.barrier (some _)) =>
      decidable_of_iff _ (wellFormedBarrier_iff_of_decode hdecode).symm
  | .ok (.barrier none) | .ok (.heartbeat _ _) | .ok .other | .error _ =>
      isFalse fun ⟨_, _, hbarrier, _⟩ => by rw [hdecode] at hbarrier; cases hbarrier

/-- A packet that is no barrier message leaves the ring and the semaphore alone. -/
theorem processPacket_barrier_eq {ht : HashTable Table} {r r' : Receiver Table}
    {packet : List UInt8} {now : Int64} (hforeign : ¬ WellFormedBarrier packet)
    (hprocess : processPacket ht r packet now = .ok r') :
    r'.barrier = r.barrier ∧ r'.barrierAllProcessed = r.barrierAllProcessed := by
  rw [processPacket] at hprocess
  cases hdecode : decodePacket packet with
  | error fault =>
      rw [hdecode] at hprocess
      cases hprocess
  | ok content =>
      rw [hdecode] at hprocess
      change r.process ht now content = .ok r' at hprocess
      cases content with
      | heartbeat appId saddr =>
          rw [Receiver.process] at hprocess
          cases htables : receiveHeartbeat ht r.tables appId saddr now with
          | error fault =>
              rw [htables] at hprocess
              cases hprocess
          | ok tables =>
              rw [htables] at hprocess
              cases hprocess
              exact ⟨rfl, rfl⟩
      | other =>
          cases hprocess
          exact ⟨rfl, rfl⟩
      | barrier fields =>
          rcases fields with _ | ⟨epoch, queueIndex⟩
          · cases hprocess
          · by_cases hignored : epoch ≤ 0 ∨ queueIndex < 0
            · rw [Receiver.process, tcpBranch, if_pos hignored] at hprocess
              cases hprocess
              exact ⟨rfl, rfl⟩
            · have houtside : (irqNum : Int) ≤ queueIndex := by
                rw [wellFormedBarrier_iff_of_decode hdecode] at hforeign
                omega
              rw [Receiver.process, tcpBranch_arrayAccess (by omega) houtside] at hprocess
              cases hprocess

end Packets

section Ring

/-- The ring while the barrier after `k` others comes in: the messages of the queues
`done` have been recorded. -/
def RingFilling (k : Nat) (s : BarrierState) (done : List (Fin irqNum)) : Prop :=
  ∃ before, RingAfter k before ∧ s = before.markAll (epochRow k) done

theorem RingAfter.ringFilling {k : Nat} {s : BarrierState} (hring : RingAfter k s) :
    RingFilling k s [] :=
  ⟨s, hring, rfl⟩

theorem BarrierState.markAll_concat (s : BarrierState) (row : Fin arraySize)
    (queues : List (Fin irqNum)) (queue : Fin irqNum) :
    s.markAll row (queues ++ [queue]) = (s.markAll row queues).mark row queue := by
  rw [markAll, List.foldl_append, List.foldl_cons, List.foldl_nil, markAll]

theorem BarrierState.Sound.markAll {s : BarrierState} (hs : s.Sound) (k : Nat)
    (queues : List (Fin irqNum)) : (s.markAll (epochRow k) queues).Sound := by
  induction queues generalizing s with
  | nil => exact hs
  | cons queue rest ih =>
      have hmark := hs.record ⟨(k : Int) + 1, queue, by omega⟩
      rw [BarrierState.record, epochMessage_row] at hmark
      exact ih hmark

/-- The message of a queue that is still missing: it completes the barrier if it is the
last one. -/
theorem RingFilling.feed {k : Nat} {s s' : BarrierState} {done : List (Fin irqNum)}
    (hring : RingFilling k s done) {m : BarrierMsg} (hepoch : m.epoch = (k : Int) + 1)
    (hmissing : m.queueIndex ∉ done) {posted : Bool}
    (hfeed : feedBarrier s m = .ok (s', posted)) :
    (∀ queue, queue ∈ done ++ [m.queueIndex]) ∧ posted = true ∧ RingAfter (k + 1) s' ∨
      (∃ queue, queue ∉ done ++ [m.queueIndex]) ∧ posted = false ∧
        RingFilling k s' (done ++ [m.queueIndex]) := by
  obtain ⟨before, hbefore, rfl⟩ := hring
  have hrow : m.row = epochRow k := by
    rw [← epochMessage_row k m.queueIndex (by omega)]
    simp only [BarrierMsg.row, hepoch]
  have hsound := hbefore.sound.markAll k done
  have hround : (before.markAll (epochRow k) done).arrayRound = before.arrayRound :=
    before.markAll_arrayRound _ _
  have hnew : ¬ (before.markAll (epochRow k) done).Redundant m := by
    rw [BarrierState.Redundant, hrow, hround, before.markAll_slot_of_not_mem _ hmissing]
    exact hbefore.next_row_open m.queueIndex
  have hrecord : (before.markAll (epochRow k) done).record m =
      before.markAll (epochRow k) (done ++ [m.queueIndex]) := by
    rw [BarrierState.record, hrow, before.markAll_concat]
  -- a slot of the row is set exactly for the queues that have delivered
  have hcomplete : ((before.markAll (epochRow k) done).record m).RowComplete m.row ↔
      ∀ queue, queue ∈ done ++ [m.queueIndex] := by
    rw [hrecord, hrow, BarrierState.RowComplete]
    refine forall_congr' fun queue => ?_
    rw [before.markAll_arrayRound]
    constructor
    · intro hslot
      by_contra hnot
      rw [before.markAll_slot_of_not_mem _ hnot] at hslot
      exact hbefore.next_row_open queue hslot
    · exact fun hmem => before.markAll_slot_of_mem _ hmem
  rcases feedBarrier_ok_cases hfeed with ⟨hred, _⟩ | ⟨_, hopen, rfl, rfl⟩ |
    ⟨_, hfull, hmax, rfl, rfl⟩
  · exact absurd hred hnew
  · rw [hcomplete, not_forall] at hopen
    exact Or.inr ⟨hopen, rfl, before, hbefore, hrecord⟩
  · refine Or.inl ⟨hcomplete.mp hfull, hsound.posts_eq_true m.epoch, ?_⟩
    rw [hrow] at hmax ⊢
    apply hbefore.close (hsound.record m)
    · rw [hrecord, before.markAll_arrayRound]
    · rw [hrecord, before.markAll_arrayRound, ← hround]
      exact hmax
    · intro row hne queue
      rw [hrecord]
      exact before.markAll_slot_of_row_ne hne _ queue

end Ring

section Turns

variable {Table : Type → Type} {ht : HashTable Table} {h h' : Host Table}

/-- The barriers carry the numbers 1, 2, 3, ... and go out on all flows, each when the
one before has been announced, and no barrier message comes from elsewhere. -/
def Host.InTurn (pre : List HostEvent) (h : Host Table) : HostEvent → Prop
  | .arrive _ payload => ¬ WellFormedBarrier payload
  | .sendBarrier epochId flows =>
      epochId.toInt = barriersSent pre + 1 ∧ irqNum ≤ flows ∧
        h.receiver.barrierAllProcessed = barriersSent pre
  | _ => True

instance (pre : List HostEvent) (h : Host Table) :
    (event : HostEvent) → Decidable (h.InTurn pre event)
  | .arrive _ payload => inferInstanceAs (Decidable (¬ WellFormedBarrier payload))
  | .sendBarrier _ _ => inferInstanceAs (Decidable (_ ∧ _))
  | .barrierArrive _ | .softirq _ | .handle _ | .recvRequest _ | .check _ => isTrue trivial

def BarriersInTurn (ht : HashTable Table) (events : List HostEvent) : Prop :=
  EveryStep (hostStep ht) Host.InTurn (.initial ht) events

/-- A message that was sent then on the flow of the rx queue has been processed. -/
def Host.Passed (h : Host Table) (queue : Fin irqNum) (sentAt : Nat) : Prop :=
  ∃ b ∈ h.processed, b.queue = queue ∧ b.sentAt = some sentAt

theorem Host.Passed.mono {queue : Fin irqNum} {sentAt : Nat} (hpassed : h.Passed queue sentAt)
    (hprocessed : ∀ p ∈ h.processed, p ∈ h'.processed) : h'.Passed queue sentAt := by
  obtain ⟨b, hb, hqueue, hsentAt⟩ := hpassed
  exact ⟨b, hprocessed b hb, hqueue, hsentAt⟩

/-- What a step means for the barriers. -/
inductive Host.BarrierStep (ht : HashTable Table) (h h' : Host Table) : HostEvent → Prop where
  | send {epochId : Int64} {flows : Nat}
      (hpending : ∀ queue, h'.barriersOn queue =
        h.barriersOn queue ++ [(barrierPacket epochId queue, h.time)])
      (hreceiver : h'.receiver = h.receiver) (hprocessed : h'.processed = h.processed) :
      BarrierStep ht h h' (.sendBarrier epochId flows)
  | quiet {event : HostEvent} (hevent : event.isSend = false)
      (hpending : ∀ queue, h'.barriersOn queue = h.barriersOn queue)
      (hring : h'.receiver.barrier = h.receiver.barrier)
      (hposted : h'.receiver.barrierAllProcessed = h.receiver.barrierAllProcessed)
      (hprocessed : ∀ p ∈ h.processed, p ∈ h'.processed) : BarrierStep ht h h' event
  | taken {now : Int64} {p : Packet} {message : List UInt8 × Nat}
      (hmessage : p.barrier = some message)
      (hpending : ∀ queue, h.barriersOn queue =
        (if p.queue = queue then [message] else []) ++ h'.barriersOn queue)
      (hprocess : processPacket ht h.receiver p.payload now = .ok h'.receiver)
      (hprocessed : h'.processed = h.processed ++ [p]) : BarrierStep ht h h' (.handle now)

/-- Nothing on the host that was not sent by `send_barrier_message` is a barrier
message. -/
def Host.NoForeignBarrier (h : Host Table) : Prop :=
  ∀ p ∈ h.unprocessed, p.sentAt = none → ¬ WellFormedBarrier p.payload

theorem HostStep.barrierStep (hordered : HostOrdered h) (hforeign : h.NoForeignBarrier)
    {pre : List HostEvent} {event : HostEvent} (hturn : h.InTurn pre event)
    (hstep : HostStep ht h event h') : h.BarrierStep ht h' event := by
  cases hstep with
  | arrive queue payload =>
      exact .quiet rfl (h.barriersOn_enqueue_none queue payload) rfl rfl (fun _ hp => hp)
  | sendBarrier epochId flows => exact .send (h.barriersOn_sendBarrier epochId hturn.2.1) rfl rfl
  | barrierArrive hflight =>
      exact .quiet rfl (Host.barriersOn_arrive hflight) rfl rfl (fun _ hp => hp)
  | @softirq queue p rest hqueue =>
      have hp : p.queue = queue :=
        hordered.rx_queue queue p (by rw [hqueue]; exact List.mem_cons_self)
      exact .quiet rfl (Host.barriersOn_softirq hqueue hp) rfl rfl (fun _ hp => hp)
  | @handle now p rest receiver hqueue hprocess =>
      have hpending := Host.barriersOn_handle hqueue
      cases hsentAt : p.sentAt with
      | none =>
          have hnone : p.barrier = none := by rw [Packet.barrier, hsentAt]; rfl
          have hmem : p ∈ h.unprocessed := by
            rw [Host.mem_unprocessed, hqueue]
            exact Or.inl List.mem_cons_self
          obtain ⟨hring, hposted⟩ := processPacket_barrier_eq (hforeign p hmem hsentAt) hprocess
          refine .quiet rfl ?_ hring hposted (fun _ hp => List.mem_append_left _ hp)
          intro queue
          rw [hpending queue, hnone]
          simp [Host.barriersOn, Host.tick]
      | some sentAt =>
          have hmessage : p.barrier = some (p.payload, sentAt) := by
            rw [Packet.barrier, hsentAt]
            rfl
          refine .taken hmessage ?_ hprocess rfl
          intro queue
          rw [hpending queue, hmessage]
          rfl
  | @recvRequest datagram hrunning hidle =>
      obtain ⟨running, pending, replies, hmoves⟩ := h.serverMoves_recvRequest datagram
      rw [hmoves]
      exact .quiet rfl (fun _ => rfl) rfl rfl (fun _ hp => hp)
  | @check sendOk c reply hpending hcheck =>
      obtain ⟨running, pending, replies, hmoves⟩ := h.serverMoves_sendReply reply sendOk
      rw [hmoves]
      exact .quiet rfl (fun _ => rfl) rfl rfl (fun _ hp => hp)

/-- No barrier is under way. -/
structure Host.Idle (h : Host Table) : Prop where
  ring : RingAfter h.receiver.barrierAllProcessed h.receiver.barrier
  pending : ∀ queue, h.barriersOn queue = []

/-- The barrier that was sent at `sentAt` is under way: its messages have been processed
for the queues `done`, and one is still coming on each of the others. -/
structure Host.Waiting (h : Host Table) (epochId : Int64) (sentAt : Nat)
    (done : List (Fin irqNum)) : Prop where
  epoch_eq : epochId.toInt = h.receiver.barrierAllProcessed + 1
  ring : RingFilling h.receiver.barrierAllProcessed h.receiver.barrier done
  missing : ∃ queue, queue ∉ done
  pending : ∀ queue, h.barriersOn queue =
    if queue ∈ done then [] else [(barrierPacket epochId queue, sentAt)]
  passed : ∀ queue ∈ done, h.Passed queue sentAt

/-- The barriers so far: each is announced but perhaps the last, and those that are
announced have passed all queues. -/
structure Host.BarriersExact (h : Host Table) (events : List HostEvent) : Prop where
  phase : h.receiver.barrierAllProcessed = barriersSent events ∧ h.Idle ∨
    h.receiver.barrierAllProcessed + 1 = barriersSent events ∧
      ∃ epochId sentAt done, BarrierSentAt events h.receiver.barrierAllProcessed sentAt ∧
        h.Waiting epochId sentAt done
  announced : ∀ k sentAt, BarrierSentAt events k sentAt →
    k < h.receiver.barrierAllProcessed → ∀ queue, h.Passed queue sentAt

theorem barriersExact_initial (ht : HashTable Table) :
    (Host.initial ht).BarriersExact [] := by
  refine ⟨Or.inl ⟨rfl, ringAfter_initial, fun _ => rfl⟩, ?_⟩
  intro k sentAt hsent
  exact absurd hsent.lt (Nat.not_lt_zero k)

section Steps

variable {events : List HostEvent}

theorem Host.Waiting.quiet {epochId : Int64} {sentAt : Nat} {done : List (Fin irqNum)}
    (hwaiting : h.Waiting epochId sentAt done)
    (hpending : ∀ queue, h'.barriersOn queue = h.barriersOn queue)
    (hring : h'.receiver.barrier = h.receiver.barrier)
    (hposted : h'.receiver.barrierAllProcessed = h.receiver.barrierAllProcessed)
    (hprocessed : ∀ p ∈ h.processed, p ∈ h'.processed) : h'.Waiting epochId sentAt done := by
  refine ⟨?_, ?_, hwaiting.missing, ?_, ?_⟩
  · rw [hposted]
    exact hwaiting.epoch_eq
  · rw [hposted, hring]
    exact hwaiting.ring
  · intro queue
    rw [hpending]
    exact hwaiting.pending queue
  · intro queue hdone
    exact (hwaiting.passed queue hdone).mono hprocessed

theorem Host.BarriersExact.quiet (hexact : h.BarriersExact events) {event : HostEvent}
    (hevent : event.isSend = false)
    (hpending : ∀ queue, h'.barriersOn queue = h.barriersOn queue)
    (hring : h'.receiver.barrier = h.receiver.barrier)
    (hposted : h'.receiver.barrierAllProcessed = h.receiver.barrierAllProcessed)
    (hprocessed : ∀ p ∈ h.processed, p ∈ h'.processed) :
    h'.BarriersExact (events ++ [event]) := by
  have hsent : ∀ k sentAt, BarrierSentAt (events ++ [event]) k sentAt ↔
      BarrierSentAt events k sentAt := by
    intro k sentAt
    rw [barrierSentAt_concat_iff, hevent]
    simp
  have hcount : barriersSent (events ++ [event]) = barriersSent events := by
    rw [barriersSent_concat, hevent]
    rfl
  constructor
  · rw [hcount, hposted]
    rcases hexact.phase with ⟨hall, hidle⟩ | ⟨hlast, epochId, sentAt, done, hsentAt, hwaiting⟩
    · refine Or.inl ⟨hall, ?_, ?_⟩
      · rw [hposted, hring]
        exact hidle.ring
      · intro queue
        rw [hpending]
        exact hidle.pending queue
    · exact Or.inr ⟨hlast, epochId, sentAt, done, (hsent _ _).mpr hsentAt,
        hwaiting.quiet hpending hring hposted hprocessed⟩
  · intro k sentAt hsentAt hbelow queue
    rw [hposted] at hbelow
    exact (hexact.announced k sentAt ((hsent _ _).mp hsentAt) hbelow queue).mono hprocessed

/-- A barrier is sent when none is under way. -/
theorem Host.BarriersExact.send (hexact : h.BarriersExact events)
    (htime : h.time = events.length) {epochId : Int64} {flows : Nat}
    (hturn : h.InTurn events (.sendBarrier epochId flows))
    (hpending : ∀ queue, h'.barriersOn queue =
      h.barriersOn queue ++ [(barrierPacket epochId queue, h.time)])
    (hreceiver : h'.receiver = h.receiver) (hprocessed : h'.processed = h.processed) :
    h'.BarriersExact (events ++ [.sendBarrier epochId flows]) := by
  obtain ⟨hepoch, _, hall⟩ := hturn
  have hidle : h.Idle := by
    rcases hexact.phase with ⟨_, hidle⟩ | ⟨hlast, _⟩
    · exact hidle
    · omega
  constructor
  · refine Or.inr ⟨?_, epochId, h.time, [], ?_, ?_, ?_, ⟨0, List.not_mem_nil⟩, ?_, ?_⟩
    · rw [hreceiver, barriersSent_concat, hall]
      rfl
    · rw [hreceiver, barrierSentAt_concat_iff]
      exact Or.inr ⟨rfl, hall.symm, htime.symm⟩
    · rw [hreceiver, hall]
      exact hepoch
    · rw [hreceiver]
      exact hidle.ring.ringFilling
    · intro queue
      rw [hpending, hidle.pending, if_neg List.not_mem_nil]
      rfl
    · intro queue hdone
      cases hdone
  · intro k sentAt hsent hbelow queue
    rw [hreceiver] at hbelow
    have hold : BarrierSentAt events k sentAt := by
      rcases barrierSentAt_concat_iff.mp hsent with hold | ⟨_, hcount, _⟩
      · exact hold
      · omega
    refine (hexact.announced k sentAt hold hbelow queue).mono ?_
    rw [hprocessed]
    exact fun _ hp => hp

/-- The message that is taken belongs to the barrier under way and is the one that its
queue still misses. -/
theorem Host.BarriersExact.taken_message (hexact : h.BarriersExact events) {p : Packet}
    {message : List UInt8 × Nat}
    (hpending : ∀ queue, h.barriersOn queue =
      (if p.queue = queue then [message] else []) ++ h'.barriersOn queue) :
    h.receiver.barrierAllProcessed + 1 = barriersSent events ∧
      ∃ epochId sentAt done, BarrierSentAt events h.receiver.barrierAllProcessed sentAt ∧
        h.Waiting epochId sentAt done ∧ p.queue ∉ done ∧
        message = (barrierPacket epochId p.queue, sentAt) ∧
        ∀ queue, h'.barriersOn queue =
          if queue ∈ done ++ [p.queue] then [] else [(barrierPacket epochId queue, sentAt)] := by
  have hself := hpending p.queue
  rw [if_pos rfl] at hself
  rcases hexact.phase with ⟨_, hidle⟩ | ⟨hlast, epochId, sentAt, done, hsentAt, hwaiting⟩
  · rw [hidle.pending] at hself
    cases hself
  · have hmissing : p.queue ∉ done := by
      intro hdone
      rw [hwaiting.pending, if_pos hdone] at hself
      cases hself
    rw [hwaiting.pending, if_neg hmissing, List.singleton_append, List.cons.injEq] at hself
    refine ⟨hlast, epochId, sentAt, done, hsentAt, hwaiting, hmissing, hself.1.symm, ?_⟩
    intro queue
    by_cases hqueue : p.queue = queue
    · subst hqueue
      rw [if_pos (by simp)]
      exact hself.2.symm
    · have hother := hpending queue
      rw [if_neg hqueue, List.nil_append, hwaiting.pending] at hother
      have hiff : queue ∈ done ++ [p.queue] ↔ queue ∈ done := by
        simp [Ne.symm hqueue]
      simp only [hiff]
      exact hother.symm

/-- The last message announces the barrier, any other one leaves it under way. -/
theorem Host.BarriersExact.taken (hexact : h.BarriersExact events) {now : Int64} {p : Packet}
    {message : List UInt8 × Nat} (hmessage : p.barrier = some message)
    (hpending : ∀ queue, h.barriersOn queue =
      (if p.queue = queue then [message] else []) ++ h'.barriersOn queue)
    (hprocess : processPacket ht h.receiver p.payload now = .ok h'.receiver)
    (hprocessed : h'.processed = h.processed ++ [p]) :
    h'.BarriersExact (events ++ [.handle now]) := by
  obtain ⟨hlast, epochId, sentAt, done, hsentAt, hwaiting, hmissing, rfl, hpending'⟩ :=
    hexact.taken_message hpending
  obtain ⟨sentAt', hp, hpair⟩ := Option.map_eq_some_iff.mp hmessage
  obtain ⟨hpayload, rfl⟩ := Prod.mk.inj hpair
  have hpos : 1 ≤ epochId.toInt := by
    rw [hwaiting.epoch_eq]
    omega
  have hgrows : ∀ p' ∈ h.processed, p' ∈ h'.processed := by
    rw [hprocessed]
    exact fun _ hp => List.mem_append_left _ hp
  have hpassed : ∀ queue ∈ done ++ [p.queue], h'.Passed queue sentAt' := by
    intro queue hmem
    rcases List.mem_append.mp hmem with hdone | hself
    · exact (hwaiting.passed queue hdone).mono hgrows
    · rw [List.mem_singleton.mp hself]
      exact ⟨p, by simp [hprocessed], rfl, hp⟩
  have hsent : ∀ k time, BarrierSentAt (events ++ [.handle now]) k time ↔
      BarrierSentAt events k time := by
    intro k time
    rw [barrierSentAt_concat_iff]
    simp [HostEvent.isSend]
  have hcount : barriersSent (events ++ [.handle now]) = barriersSent events := by
    rw [barriersSent_concat]
    rfl
  rw [hpayload, processPacket_barrierPacket ht h.receiver epochId p.queue hpos] at hprocess
  obtain ⟨⟨ring, posted⟩, hfeed, hreceiver⟩ := exists_ok_of_map_eq hprocess
  have hring : h'.receiver.barrier = ring := by rw [← hreceiver]
  have hposted : h'.receiver.barrierAllProcessed =
      h.receiver.barrierAllProcessed + if posted then 1 else 0 := by rw [← hreceiver]
  rcases hwaiting.ring.feed hwaiting.epoch_eq hmissing hfeed with
    ⟨hfull, rfl, hafter⟩ | ⟨hopen, rfl, hfilling⟩
  · constructor
    · refine Or.inl ⟨?_, ?_, ?_⟩
      · rw [hposted, hcount]
        exact hlast
      · rw [hposted, hring]
        exact hafter
      · intro queue
        rw [hpending', if_pos (hfull queue)]
    · intro k time hsentThen hbelow queue
      rw [hposted] at hbelow
      rw [hsent] at hsentThen
      by_cases hnow : k = h.receiver.barrierAllProcessed
      · subst hnow
        rw [hsentThen.unique hsentAt]
        exact hpassed queue (hfull queue)
      · have hearlier : k < h.receiver.barrierAllProcessed := by
          simp only [if_true] at hbelow
          omega
        exact (hexact.announced k time hsentThen hearlier queue).mono hgrows
  · have hsame : h'.receiver.barrierAllProcessed = h.receiver.barrierAllProcessed := hposted
    constructor
    · refine Or.inr ⟨?_, epochId, sentAt', done ++ [p.queue], ?_, ?_, ?_, hopen, hpending',
        hpassed⟩
      · rw [hsame, hcount]
        exact hlast
      · rw [hsame, hsent]
        exact hsentAt
      · rw [hsame]
        exact hwaiting.epoch_eq
      · rw [hsame, hring]
        exact hfilling
    · intro k time hsentThen hbelow queue
      rw [hsame] at hbelow
      rw [hsent] at hsentThen
      exact (hexact.announced k time hsentThen hbelow queue).mono hgrows

theorem Host.BarriersExact.step (hexact : h.BarriersExact events)
    (htime : h.time = events.length) {event : HostEvent} (hturn : h.InTurn events event)
    (hstep : h.BarrierStep ht h' event) : h'.BarriersExact (events ++ [event]) := by
  cases hstep with
  | send hpending hreceiver hprocessed =>
      exact hexact.send htime hturn hpending hreceiver hprocessed
  | quiet hevent hpending hring hposted hprocessed =>
      exact hexact.quiet hevent hpending hring hposted hprocessed
  | taken hmessage hpending hprocess hprocessed =>
      exact hexact.taken hmessage hpending hprocess hprocessed

end Steps

theorem HostStep.time {event : HostEvent} (hstep : HostStep ht h event h') :
    h'.time = h.time + 1 := by
  cases hstep with
  | arrive | sendBarrier | barrierArrive | softirq | handle => rfl
  | @recvRequest datagram hrunning hidle =>
      obtain ⟨running, pending, replies, hmoves⟩ := h.serverMoves_recvRequest datagram
      rw [hmoves]
      rfl
  | @check sendOk c reply hpending hcheck =>
      obtain ⟨running, pending, replies, hmoves⟩ := h.serverMoves_sendReply reply sendOk
      rw [hmoves]
      rfl

/-- Where the packets of a host come from. -/
theorem HostStep.unprocessed {event : HostEvent} (hstep : HostStep ht h event h')
    {p : Packet} (hp : p ∈ h'.unprocessed) :
    p ∈ h.unprocessed ∨ (∃ sentAt, p.sentAt = some sentAt) ∨
      ∃ queue, event = .arrive queue p.payload := by
  cases hstep with
  | arrive queue payload =>
      have hmem : p ∈ (h.enqueue queue payload none).unprocessed := hp
      rcases Host.mem_unprocessed_enqueue hmem with hold | rfl
      · exact Or.inl hold
      · exact Or.inr (Or.inr ⟨queue, rfl⟩)
  | sendBarrier => exact Or.inl hp
  | @barrierArrive queue payload sentAt rest hflight =>
      have hmem : p ∈ (h.enqueue queue payload (some sentAt)).unprocessed := hp
      rcases Host.mem_unprocessed_enqueue hmem with hold | rfl
      · exact Or.inl hold
      · exact Or.inr (Or.inl ⟨sentAt, rfl⟩)
  | @softirq queue first rest hqueue =>
      refine Or.inl (Host.mem_unprocessed.mpr ?_)
      rcases Host.mem_unprocessed.mp hp with hnf | ⟨queue', hrx⟩
      · rcases List.mem_append.mp hnf with hold | hlast
        · exact Or.inl hold
        · rw [List.mem_singleton.mp hlast]
          exact Or.inr ⟨queue, by rw [hqueue]; exact List.mem_cons_self⟩
      · refine Or.inr ⟨queue', ?_⟩
        by_cases heq : queue' = queue
        · simp only [Host.tick, heq, Function.update_self] at hrx
          rw [heq, hqueue]
          exact List.mem_cons_of_mem first hrx
        · simp only [Host.tick, Function.update_of_ne heq] at hrx
          exact hrx
  | @handle now first rest receiver hqueue hprocess =>
      refine Or.inl (Host.mem_unprocessed.mpr ?_)
      rcases Host.mem_unprocessed.mp hp with hnf | hrx
      · rw [hqueue]
        exact Or.inl (List.mem_cons_of_mem first hnf)
      · exact Or.inr hrx
  | @recvRequest datagram hrunning hidle =>
      obtain ⟨running, pending, replies, hmoves⟩ := h.serverMoves_recvRequest datagram
      rw [hmoves] at hp
      exact Or.inl hp
  | @check sendOk c reply hpending hcheck =>
      obtain ⟨running, pending, replies, hmoves⟩ := h.serverMoves_sendReply reply sendOk
      rw [hmoves] at hp
      exact Or.inl hp

theorem Host.NoForeignBarrier.step (hforeign : h.NoForeignBarrier) {pre : List HostEvent}
    {event : HostEvent} (hturn : h.InTurn pre event)
    (hstep : HostStep ht h event h') : h'.NoForeignBarrier := by
  intro p hp hnone
  rcases hstep.unprocessed hp with hold | ⟨sentAt, hsome⟩ | ⟨queue, rfl⟩
  · exact hforeign p hold hnone
  · rw [hnone] at hsome
    cases hsome
  · exact hturn

/-- What holds after barriers that went out in turn. -/
structure Host.BarrierRun (events : List HostEvent) (h : Host Table) : Prop where
  ordered : HostOrdered h
  time_eq : h.time = events.length
  foreign : h.NoForeignBarrier
  exact : h.BarriersExact events

theorem barrierRun_initial (ht : HashTable Table) : (Host.initial ht).BarrierRun [] := by
  refine ⟨hostOrdered_initial ht, rfl, ?_, barriersExact_initial ht⟩
  intro p hp
  cases hp

theorem Host.BarrierRun.step {pre : List HostEvent} (hstate : h.BarrierRun pre)
    {event : HostEvent} (hturn : h.InTurn pre event)
    (hstep : HostStep ht h event h') : h'.BarrierRun (pre ++ [event]) where
  ordered := hstep.ordered hstate.ordered
  time_eq := by
    rw [hstep.time, hstate.time_eq, List.length_append, List.length_singleton]
  foreign := hstate.foreign.step hturn hstep
  exact := hstate.exact.step hstate.time_eq hturn
    (hstep.barrierStep hstate.ordered hstate.foreign hturn)

theorem barrierRun_of_run {events : List HostEvent} {outputs : List Unit}
    (hturns : BarriersInTurn ht events)
    (hrun : runEvents (hostStep ht) (.initial ht) events = .ok (h, outputs)) :
    h.BarrierRun events :=
  hturns.invariant (fun pre state _ => state.BarrierRun pre) (barrierRun_initial ht)
    (fun _ _ _ _ _ _ _ hstate hturn hstep => hstate.step hturn (hostStep_eq_ok_iff.mp hstep)) hrun

/-- The packets of an rx queue that a barrier has passed are younger than the barrier. -/
theorem HostOrdered.sentAt_le_of_passed (hordered : HostOrdered h) {queue : Fin irqNum}
    {sentAt : Nat} (hpassed : h.Passed queue sentAt) {p : Packet} (hp : p ∈ h.unprocessed)
    (hqueue : p.queue = queue) : sentAt ≤ p.arrivedAt := by
  obtain ⟨b, hb, hbqueue, hsentAt⟩ := hpassed
  have hlane : b ∈ h.lane queue := by simp [Host.lane, hb, hbqueue]
  have hsent := hordered.sent queue b hlane sentAt hsentAt
  have hbefore := hordered.processed_lt hb hp (hbqueue.trans hqueue.symm)
  omega

theorem Host.BarriersExact.announced_le {events : List HostEvent}
    (hexact : h.BarriersExact events) :
    h.receiver.barrierAllProcessed ≤ barriersSent events ∧
      barriersSent events ≤ h.receiver.barrierAllProcessed + 1 := by
  rcases hexact.phase with ⟨hall, _⟩ | ⟨hlast, _⟩
  · omega
  · omega

end Turns

variable {Table : Type → Type}

/-- When a barrier has been announced, every packet that is still to be processed came
after the barrier was sent.  No barrier is announced that was not sent, and at most the
last one is still under way. -/
theorem announced_barrier_flushes (ht : HashTable Table) (events : List HostEvent)
    (hturns : BarriersInTurn ht events) (h : Host Table) (outputs : List Unit)
    (hrun : runEvents (hostStep ht) (.initial ht) events = .ok (h, outputs)) :
    h.receiver.barrierAllProcessed ≤ barriersSent events ∧
      barriersSent events ≤ h.receiver.barrierAllProcessed + 1 ∧
      ∀ k sentAt, BarrierSentAt events k sentAt → k < h.receiver.barrierAllProcessed →
        ∀ p ∈ h.unprocessed, sentAt ≤ p.arrivedAt := by
  have hstate := barrierRun_of_run hturns hrun
  refine ⟨hstate.exact.announced_le.1, hstate.exact.announced_le.2, ?_⟩
  intro k sentAt hsent hannounced p hp
  exact hstate.ordered.sentAt_le_of_passed
    (hstate.exact.announced k sentAt hsent hannounced p.queue) hp rfl

/-- The rx queues have numerals. -/
local instance instNeZeroIrqNum : NeZero irqNum := ⟨by decide⟩

/-- A barrier of which one message comes late, between two heartbeats of other nodes. -/
def flushedRun : List HostEvent :=
  [.arrive 0 (heartbeatPacket ⟨10, 0, 0, 1⟩ 7), .sendBarrier 1 4, .barrierArrive 0,
    .barrierArrive 1, .arrive 1 (heartbeatPacket ⟨10, 0, 0, 2⟩ 7), .softirq 1, .softirq 0,
    .barrierArrive 3, .softirq 0, .handle 100, .barrierArrive 2, .softirq 3, .softirq 2,
    .handle 100, .handle 100, .handle 100, .handle 100]

theorem flushedRun_inTurn : BarriersInTurn entryList flushedRun :=
  everyStep_of_checkStepsFrom (by decide)

/-- The barrier is announced while the second heartbeat waits in its rx queue. -/
theorem announced_barrier_flushes_flushedRun :
    ∃ h outputs, runEvents (hostStep entryList) (.initial entryList) flushedRun =
      .ok (h, outputs) ∧ h.receiver.barrierAllProcessed = 1 ∧ h.unprocessed.length = 1 ∧
      ∀ p ∈ h.unprocessed, 1 ≤ p.arrivedAt := by
  have hpart : (runEvents (hostStep entryList) (.initial entryList) flushedRun).map
      (fun result => (result.1.receiver.barrierAllProcessed, result.1.unprocessed.length)) =
        .ok (1, 1) := by decide
  obtain ⟨⟨h, outputs⟩, hrun, hvalues⟩ := exists_ok_of_map_eq hpart
  obtain ⟨hannounced, hlength⟩ := Prod.mk.inj hvalues
  have hsent : BarrierSentAt flushedRun 0 1 := ⟨[_], 1, 4, ⟨_, rfl⟩, rfl, rfl⟩
  refine ⟨h, outputs, hrun, hannounced, hlength, ?_⟩
  exact (announced_barrier_flushes entryList flushedRun flushedRun_inTurn h outputs hrun).2.2
    0 1 hsent (by rw [hannounced]; decide)

theorem Host.barriersOn_eq_nil {h : Host Table} (hflight : ∀ queue, h.inFlight queue = [])
    (hunprocessed : ∀ p ∈ h.unprocessed, p.sentAt = none) (queue : Fin irqNum) :
    h.barriersOn queue = [] := by
  rw [barriersOn, hflight, List.append_nil, List.filterMap_eq_nil_iff]
  intro p hp
  have hmem : p ∈ h.unprocessed := by
    rw [mem_unprocessed]
    rcases List.mem_append.mp hp with hnf | hrx
    · exact Or.inl (List.mem_filter.mp hnf).1
    · exact Or.inr ⟨queue, hrx⟩
  rw [Packet.barrier, hunprocessed p hmem]
  rfl

/-- No barrier gets stuck: when all its messages have come through, it is announced. -/
theorem every_barrier_announced (ht : HashTable Table) (events : List HostEvent)
    (hturns : BarriersInTurn ht events) (h : Host Table) (outputs : List Unit)
    (hrun : runEvents (hostStep ht) (.initial ht) events = .ok (h, outputs))
    (hflight : ∀ queue, h.inFlight queue = [])
    (hunprocessed : ∀ p ∈ h.unprocessed, p.sentAt = none) :
    h.receiver.barrierAllProcessed = barriersSent events := by
  rcases (barrierRun_of_run hturns hrun).exact.phase with
    ⟨hall, _⟩ | ⟨_, epochId, sentAt, done, _, hwaiting⟩
  · exact hall
  · obtain ⟨queue, hmissing⟩ := hwaiting.missing
    have hpending := hwaiting.pending queue
    rw [Host.barriersOn_eq_nil hflight hunprocessed, if_neg hmissing] at hpending
    cases hpending

theorem every_barrier_announced_flushedRun :
    ∃ h outputs, runEvents (hostStep entryList) (.initial entryList) flushedRun =
      .ok (h, outputs) ∧ h.receiver.barrierAllProcessed = 1 := by
  have hpart : (runEvents (hostStep entryList) (.initial entryList) flushedRun).map
      (fun result => ((List.finRange irqNum).flatMap result.1.inFlight,
        result.1.unprocessed.filter (fun p => p.sentAt.isSome))) = .ok ([], []) := by decide
  obtain ⟨⟨h, outputs⟩, hrun, hvalues⟩ := exists_ok_of_map_eq hpart
  obtain ⟨hflight, hbarriers⟩ := Prod.mk.inj hvalues
  refine ⟨h, outputs, hrun, ?_⟩
  refine every_barrier_announced entryList flushedRun flushedRun_inTurn h outputs hrun ?_ ?_
  · intro queue
    exact List.flatMap_eq_nil_iff.mp hflight queue (List.mem_finRange queue)
  · intro p hp
    simpa using List.filter_eq_nil_iff.mp hbarriers p hp

/-- The pending check is answered after a barrier has been announced that was sent since
the request. -/
def Host.AfterBarrier (pre : List HostEvent) (h : Host Table) : HostEvent → Prop
  | .check _ => ∀ c ∈ h.pendingCheck, ∃ k < h.receiver.barrierAllProcessed,
      ∃ sentAt < pre.length, BarrierSentAt pre k sentAt ∧ c.receivedAt ≤ sentAt
  | _ => True

instance (pre : List HostEvent) (h : Host Table) :
    (event : HostEvent) → Decidable (h.AfterBarrier pre event)
  | .check _ => inferInstanceAs (Decidable (∀ c ∈ h.pendingCheck, _))
  | .arrive .. | .sendBarrier .. | .barrierArrive _ | .softirq _ | .handle _
  | .recvRequest _ => isTrue trivial

/-- Such a barrier flushes all the rx queues for the check. -/
theorem Host.BarrierRun.flushed {events : List HostEvent} {h : Host Table}
    (hstate : h.BarrierRun events) {event : HostEvent} (hafter : h.AfterBarrier events event) :
    h.Flushed event := by
  cases event with
  | check sendOk =>
      intro c hc p _ _
      obtain ⟨k, hannounced, sentAt, _, hsent, hsince⟩ := hafter c hc
      obtain ⟨b, hb, hqueue, hsentAt⟩ := hstate.exact.announced k sentAt hsent hannounced p.queue
      exact ⟨b, hb, hqueue, sentAt, hsentAt, hsince⟩
  | _ => trivial

/-- If every check waits for the announcement of a barrier that was sent since the
request, no failure is reported while a heartbeat of the node from before the request is
pending. -/
theorem noVerdictWhilePending_of_barrier (ht : HashTable Table) (events : List HostEvent)
    (hturns : BarriersInTurn ht events)
    (hafter : EveryStep (hostStep ht) Host.AfterBarrier (.initial ht) events) :
    NoVerdictWhilePending ht events := by
  intro pre event post h outputs hsplit hrun
  have hpre : BarriersInTurn ht pre := EveryStep.of_append (hsplit ▸ hturns)
  have hstate := barrierRun_of_run hpre hrun
  exact hstate.ordered.verdictSafe
    (hstate.flushed (hafter pre event post h outputs hsplit hrun))

/-- The request comes while a heartbeat waits, and the check after the barrier. -/
theorem noVerdictWhilePending_of_barrier_flushedRun :
    let events := flushedRun.take 1 ++ [.recvRequest (requestBytes 300)] ++ flushedRun.drop 1 ++
      [.check true]
    BarriersInTurn entryList events ∧ NoVerdictWhilePending entryList events := by
  intro events
  have hturns : BarriersInTurn entryList events := everyStep_of_checkStepsFrom (by decide)
  have hafter : EveryStep (hostStep entryList) Host.AfterBarrier (.initial entryList) events :=
    everyStep_of_checkStepsFrom (by decide)
  exact ⟨hturns, noVerdictWhilePending_of_barrier entryList events hturns hafter⟩

end SafeTimer
