/-
The sending host, the network and the receiving host together.  The heartbeats of one node
leave the sending host by its driver, reach an rx queue of the receiving host, and are
recorded by `process_packet`; `safetimer_check` judges the node by the record.  The steps of
the two hosts and of the network come in any order.
-/
import SafeTimer.BarrierFlush
import SafeTimer.SampleClock
import SafeTimer.SenderLease

namespace SafeTimer

/-- The node that is watched, with the terms of its lease.  A heartbeat is on the network
for `delay` at most, and the clock of the receiving host shows `offset` more than the one of
the sending host. -/
structure Watch where
  appId : Int64
  nodeIp : CString
  terms : LeaseTerms
  delay : Nat
  offset : Int

/-- The two hosts.  `network` says when the heartbeats under way have left the sending host,
and `stamps` when the events of the receiving host have happened, both on the clock of the
sending host; the stamps are for the statement only. -/
structure TimeoutSystem (Table : Type → Type) where
  sender : LeasedSender
  network : List Int
  host : Host Table
  stamps : List Int

variable {Table : Type → Type}

def TimeoutSystem.initial (ht : HashTable Table) : TimeoutSystem Table :=
  ⟨.initial, [], .initial ht, []⟩

inductive SystemEvent where
  | send (event : SendEvent)
  /-- a heartbeat of the node comes to the receiving host -/
  | arrive (i : Nat) (queue : Fin irqNum) (payload : List UInt8)
  | host (event : HostEvent)
deriving DecidableEq

/-- The events of the receiving host. -/
def SystemEvent.atHost : SystemEvent → Option HostEvent
  | .send _ => none
  | .arrive _ queue payload => some (.arrive queue payload)
  | .host event => some event

def hostEvents (events : List SystemEvent) : List HostEvent :=
  events.filterMap SystemEvent.atHost

/-- `now_time` of the receiving host. -/
def Watch.ReadsClock (w : Watch) (now : Int) : HostEvent → Prop
  | .handle reading => reading.toInt = now + w.offset
  | _ => True

instance (w : Watch) (now : Int) : (event : HostEvent) → Decidable (w.ReadsClock now event)
  | .handle reading => inferInstanceAs (Decidable (reading.toInt = _))
  | .arrive .. | .sendBarrier .. | .barrierArrive _ | .softirq _ | .recvRequest _ | .check _ =>
      isTrue trivial

/-- The heartbeat that the driver sends. -/
def TimeoutSystem.departures (s : TimeoutSystem Table) : SendEvent → List Int
  | .consume _ => [s.sender.now]
  | _ => []

def TimeoutSystem.hostStep (ht : HashTable Table) (s : TimeoutSystem Table)
    (event : HostEvent) : Except Stop (TimeoutSystem Table × Unit) :=
  match SafeTimer.hostStep ht s.host event with
  | .error stop => .error stop
  | .ok (host, _) => .ok ({ s with host := host, stamps := s.stamps ++ [s.sender.now] }, ())

def systemStep (w : Watch) (ht : HashTable Table) (s : TimeoutSystem Table) :
    SystemEvent → Except Stop (TimeoutSystem Table × Unit)
  | .send event =>
      match leasedStep w.terms s.sender event with
      | .error _ => .error .notEnabled
      | .ok (sender, _) =>
          .ok ({ s with sender := sender, network := s.network ++ s.departures event }, ())
  | .arrive i queue payload =>
      match s.network[i]? with
      | none => .error .notEnabled
      | some _ =>
          if decodePacket payload = .ok (.heartbeat w.appId w.nodeIp) then
            { s with network := s.network.eraseIdx i }.hostStep ht (.arrive queue payload)
          else .error .notEnabled
  | .host event =>
      if w.ReadsClock s.sender.now event then s.hostStep ht event else .error .notEnabled

/-- What a step can do. -/
inductive SystemStep (w : Watch) (ht : HashTable Table) (s : TimeoutSystem Table) :
    SystemEvent → TimeoutSystem Table → Prop where
  | send {event : SendEvent} {sender : LeasedSender}
      (hsender : leasedStep w.terms s.sender event = .ok (sender, ())) :
      SystemStep w ht s (.send event)
        { s with sender := sender, network := s.network ++ s.departures event }
  | arrive {i : Nat} {queue : Fin irqNum} {payload : List UInt8} {departed : Int}
      {host : Host Table} (hi : s.network[i]? = some departed)
      (hdecode : decodePacket payload = .ok (.heartbeat w.appId w.nodeIp))
      (hhost : HostStep ht s.host (.arrive queue payload) host) :
      SystemStep w ht s (.arrive i queue payload)
        ⟨s.sender, s.network.eraseIdx i, host, s.stamps ++ [s.sender.now]⟩
  | host {event : HostEvent} {host : Host Table} (hclock : w.ReadsClock s.sender.now event)
      (hhost : HostStep ht s.host event host) :
      SystemStep w ht s (.host event)
        ⟨s.sender, s.network, host, s.stamps ++ [s.sender.now]⟩

theorem TimeoutSystem.hostStep_eq_ok {ht : HashTable Table} {s s' : TimeoutSystem Table}
    {event : HostEvent} (hstep : s.hostStep ht event = .ok (s', ())) :
    ∃ host, HostStep ht s.host event host ∧
      s' = ⟨s.sender, s.network, host, s.stamps ++ [s.sender.now]⟩ := by
  rw [TimeoutSystem.hostStep] at hstep
  split at hstep
  · cases hstep
  · rename_i host _ hhost
    cases hstep
    exact ⟨host, hostStep_eq_ok_iff.mp hhost, rfl⟩

theorem systemStep_eq_ok {w : Watch} {ht : HashTable Table} {s s' : TimeoutSystem Table}
    {event : SystemEvent} (hstep : systemStep w ht s event = .ok (s', ())) :
    SystemStep w ht s event s' := by
  cases event with
  | send event =>
      simp only [systemStep] at hstep
      split at hstep
      · cases hstep
      · rename_i hsender
        cases hstep
        exact .send hsender
  | arrive i queue payload =>
      simp only [systemStep] at hstep
      split at hstep
      · cases hstep
      · rename_i hi
        split at hstep
        · rename_i hdecode
          obtain ⟨host, hhost, rfl⟩ := TimeoutSystem.hostStep_eq_ok hstep
          exact .arrive hi hdecode hhost
        · cases hstep
  | host event =>
      simp only [systemStep] at hstep
      split at hstep
      · rename_i hclock
        obtain ⟨host, hhost, rfl⟩ := TimeoutSystem.hostStep_eq_ok hstep
        exact .host hclock hhost
      · cases hstep

/-- No heartbeat stays on the network for longer than `delay`, the sending host keeps the
terms of its lease, and the barriers go out in turn. -/
def TimeoutSystem.Assumes (w : Watch) (pre : List SystemEvent) (s : TimeoutSystem Table)
    (event : SystemEvent) : Prop :=
  (∀ departed ∈ s.network, s.sender.now ≤ departed + w.delay) ∧
    match event with
    | .send event => s.sender.KeepsTerms w.terms event
    | .arrive .. => True
    | .host event => s.host.InTurn (hostEvents pre) event

instance (w : Watch) (pre : List SystemEvent) (s : TimeoutSystem Table) :
    (event : SystemEvent) → Decidable (s.Assumes w pre event)
  | .send event =>
      inferInstanceAs (Decidable (_ ∧ s.sender.KeepsTerms w.terms event))
  | .arrive .. => inferInstanceAs (Decidable (_ ∧ True))
  | .host event => inferInstanceAs (Decidable (_ ∧ s.host.InTurn (hostEvents pre) event))

section Host

variable {ht : HashTable Table} {h h' : Host Table} {event : HostEvent}

theorem Host.mem_enqueue {queue : Fin irqNum} {payload : List UInt8} {sentAt : Option Nat}
    {p : Packet} (hp : p ∈ h.unprocessed ∨ p = ⟨payload, queue, h.time, sentAt⟩) :
    p ∈ (h.enqueue queue payload sentAt).unprocessed := by
  rw [mem_unprocessed] at hp ⊢
  simp only [enqueue]
  rcases hp with (hnf | ⟨queue', hrx⟩) | rfl
  · exact Or.inl hnf
  · refine Or.inr ⟨queue', ?_⟩
    by_cases heq : queue' = queue
    · subst heq
      rw [Function.update_self]
      exact List.mem_append_left _ hrx
    · rwa [Function.update_of_ne heq]
  · refine Or.inr ⟨queue, ?_⟩
    rw [Function.update_self]
    exact List.mem_append_right _ (List.mem_singleton_self _)

theorem Host.mem_softirq {queue : Fin irqNum} {first : Packet} {rest : List Packet}
    (hqueue : h.rxQueues queue = first :: rest) {p : Packet} (hp : p ∈ h.unprocessed) :
    p ∈ ({ h with
      rxQueues := Function.update h.rxQueues queue rest
      nfqueue := h.nfqueue ++ [first] } : Host Table).unprocessed := by
  rw [mem_unprocessed] at hp ⊢
  rcases hp with hnf | ⟨queue', hrx⟩
  · exact Or.inl (List.mem_append_left _ hnf)
  · by_cases heq : queue' = queue
    · subst heq
      rw [hqueue] at hrx
      rcases List.mem_cons.mp hrx with rfl | hrest
      · exact Or.inl (List.mem_append_right _ (List.mem_singleton_self _))
      · exact Or.inr ⟨queue', by simpa using hrest⟩
    · exact Or.inr ⟨queue', by simpa [heq] using hrx⟩

/-- A packet that is not handled stays on the host, and only `handle` changes the
receiver. -/
theorem HostStep.packets (hstep : HostStep ht h event h') :
    (h'.processed = h.processed ∧ h'.receiver = h.receiver ∧
      ∀ p ∈ h.unprocessed, p ∈ h'.unprocessed) ∨
    ∃ now p, event = .handle now ∧
      processPacket ht h.receiver p.payload now = .ok h'.receiver ∧
      h'.processed = h.processed ++ [p] ∧
      ∀ p' ∈ h.unprocessed, p' = p ∨ p' ∈ h'.unprocessed := by
  cases hstep with
  | arrive | barrierArrive => exact Or.inl ⟨rfl, rfl, fun p hp => Host.mem_enqueue (Or.inl hp)⟩
  | sendBarrier => exact Or.inl ⟨rfl, rfl, fun p hp => hp⟩
  | softirq hqueue => exact Or.inl ⟨rfl, rfl, fun p hp => Host.mem_softirq hqueue hp⟩
  | @handle now first rest receiver hqueue hprocess =>
      refine Or.inr ⟨now, first, rfl, hprocess, rfl, ?_⟩
      intro p hp
      rcases Host.mem_unprocessed.mp hp with hnf | hrx
      · rw [hqueue] at hnf
        exact (List.mem_cons.mp hnf).imp_right
          fun hrest => Host.mem_unprocessed.mpr (Or.inl hrest)
      · exact Or.inr (Host.mem_unprocessed.mpr (Or.inr hrx))
  | @recvRequest datagram hrunning hidle =>
      obtain ⟨running, pending, replies, hmoves⟩ := h.serverMoves_recvRequest datagram
      rw [hmoves]
      exact Or.inl ⟨rfl, rfl, fun p hp => hp⟩
  | @check sendOk c reply hpending hcheck =>
      obtain ⟨running, pending, replies, hmoves⟩ := h.serverMoves_sendReply reply sendOk
      rw [hmoves]
      exact Or.inl ⟨rfl, rfl, fun p hp => hp⟩

end Host

section Recorded

variable {ht : HashTable Table} {w : Watch} {h h' : Host Table} {stamps : List Int}

/-- The heartbeats of the node that have been processed. -/
def Watch.heard (w : Watch) (h : Host Table) : List Packet :=
  h.processed.filter fun p => p.IsHeartbeat w.appId w.nodeIp

/-- What is recorded of the node.  The first heartbeat enters 0; after the second one the
record is at least as late as the arrival of every heartbeat that has been processed. -/
structure Watch.Records (w : Watch) (ht : HashTable Table) (h : Host Table)
    (stamps : List Int) (states : NodeStates) : Prop where
  holds : HoldsStates ht h.receiver.tables states
  unheard : w.heard h = [] → states w.appId w.nodeIp = none
  heard : w.heard h ≠ [] → ∃ state, states w.appId w.nodeIp = some state ∧
    (2 ≤ (w.heard h).length → ∀ p ∈ w.heard h, ∀ t, stamps[p.arrivedAt]? = some t →
      t + w.offset ≤ state.toInt)

/-- What a packet does to the record of the node. -/
theorem receive_heartbeatCall (states : NodeStates) (instant : Instant) (p : Packet)
    (appId : Int64) (nodeIp : CString) :
    (heartbeatCall (instant, p.payload)).toList.foldl NodeStates.receive states appId nodeIp =
      if p.IsHeartbeat appId nodeIp then
        some ((states appId nodeIp).elim 0 fun _ => instant.monotonic)
      else states appId nodeIp := by
  rw [heartbeatCall]
  split
  · rename_i appId' nodeIp' hdecode
    have hiff : p.IsHeartbeat appId nodeIp ↔ appId = appId' ∧ nodeIp = nodeIp' := by
      rw [Packet.IsHeartbeat, hdecode, Except.ok.injEq, PacketContent.heartbeat.injEq]
      exact and_congr eq_comm eq_comm
    simp only [Option.toList_some, List.foldl_cons, List.foldl_nil, NodeStates.receive, hiff]
  · rename_i hother
    have hnot : ¬ p.IsHeartbeat appId nodeIp := fun hdecode => hother appId nodeIp hdecode
    rw [if_neg hnot]
    rfl

theorem HostOrdered.arrivedAt_lt (hordered : HostOrdered h) {p : Packet}
    (hp : p ∈ h.processed ∨ p ∈ h.unprocessed) : p.arrivedAt < h.time := by
  rw [Host.mem_unprocessed] at hp
  rcases hp with hprocessed | hnf | ⟨queue, hrx⟩
  · exact hordered.arrived p.queue p (by simp [Host.lane, hprocessed])
  · exact hordered.arrived p.queue p (by simp [Host.lane, hnf])
  · exact hordered.arrived queue p (by simp [Host.lane, hrx])

/-- An event keeps the stamp of a packet that has arrived before. -/
theorem HostOrdered.stamp_concat (hordered : HostOrdered h) (hlength : stamps.length = h.time)
    {p : Packet} (hp : p ∈ h.processed ∨ p ∈ h.unprocessed) (now : Int) :
    (stamps ++ [now])[p.arrivedAt]? = stamps[p.arrivedAt]? :=
  List.getElem?_append_left (hlength ▸ hordered.arrivedAt_lt hp)

/-- Nothing has been heard of the node. -/
theorem Watch.Records.quiet {states states' : NodeStates}
    (hrecords : w.Records ht h stamps states) (hordered : HostOrdered h)
    (hlength : stamps.length = h.time) (now : Int) (hheard : w.heard h' = w.heard h)
    (hholds : HoldsStates ht h'.receiver.tables states')
    (hsame : states' w.appId w.nodeIp = states w.appId w.nodeIp) :
    w.Records ht h' (stamps ++ [now]) states' := by
  refine ⟨hholds, ?_, ?_⟩ <;> rw [hheard, hsame]
  · exact hrecords.unheard
  · intro hne
    obtain ⟨state, hstate, hlate⟩ := hrecords.heard hne
    refine ⟨state, hstate, fun htwo p hp t hstamp => ?_⟩
    rw [hordered.stamp_concat hlength (Or.inl (List.mem_of_mem_filter hp))] at hstamp
    exact hlate htwo p hp t hstamp

/-- A packet is processed, at a time that no stamp lies behind. -/
theorem Watch.Records.handle (hlawful : ht.Lawful) {states : NodeStates}
    (hrecords : w.Records ht h stamps states) (hordered : HostOrdered h)
    (hlength : stamps.length = h.time) {now : Int} (hle : ∀ t ∈ stamps, t ≤ now)
    {reading : Int64} (hclock : reading.toInt = now + w.offset) {p : Packet}
    (hprocess : processPacket ht h.receiver p.payload reading = .ok h'.receiver)
    (hprocessed : h'.processed = h.processed ++ [p]) :
    ∃ states', w.Records ht h' (stamps ++ [now]) states' := by
  have hholds : HoldsStates ht h'.receiver.tables
      ((heartbeatCall (⟨reading, reading⟩, p.payload)).toList.foldl NodeStates.receive states) :=
    hrecords.holds.processPacket hlawful hprocess
  have hstate := receive_heartbeatCall states ⟨reading, reading⟩ p w.appId w.nodeIp
  generalize (heartbeatCall (⟨reading, reading⟩, p.payload)).toList.foldl NodeStates.receive
    states = states' at hholds hstate
  refine ⟨states', ?_⟩
  by_cases hp : p.IsHeartbeat w.appId w.nodeIp
  · have hheard : w.heard h' = w.heard h ++ [p] := by
      rw [Watch.heard, hprocessed, List.filter_append, Watch.heard,
        List.filter_cons_of_pos (by simpa using hp), List.filter_nil]
    rw [if_pos hp] at hstate
    refine ⟨hholds, ?_, ?_⟩ <;> rw [hheard, hstate]
    · intro hnil
      simp at hnil
    · intro _
      by_cases hfirst : w.heard h = []
      · refine ⟨0, by rw [hrecords.unheard hfirst]; rfl, fun htwo => ?_⟩
        simp [hfirst] at htwo
      · obtain ⟨state, hold, _⟩ := hrecords.heard hfirst
        refine ⟨reading, by rw [hold]; rfl, fun _ p' _ t hstamp => ?_⟩
        have hbound : t ≤ now := by
          rcases List.mem_append.mp (List.mem_of_getElem? hstamp) with hstamps | hlast
          · exact hle t hstamps
          · exact le_of_eq (List.mem_singleton.mp hlast)
        omega
  · have hheard : w.heard h' = w.heard h := by
      rw [Watch.heard, hprocessed, List.filter_append, Watch.heard,
        List.filter_cons_of_neg (by simpa using hp), List.filter_nil, List.append_nil]
    rw [if_neg hp] at hstate
    exact hrecords.quiet hordered hlength now hheard hholds hstate

theorem Watch.Records.step (hlawful : ht.Lawful) {states : NodeStates}
    (hrecords : w.Records ht h stamps states) (hordered : HostOrdered h)
    (hlength : stamps.length = h.time) {now : Int} (hle : ∀ t ∈ stamps, t ≤ now)
    {event : HostEvent} (hclock : w.ReadsClock now event)
    (hstep : HostStep ht h event h') :
    ∃ states', w.Records ht h' (stamps ++ [now]) states' := by
  rcases hstep.packets with
    ⟨hprocessed, hreceiver, _⟩ | ⟨reading, p, rfl, hprocess, hprocessed, _⟩
  · have hheard : w.heard h' = w.heard h := by rw [Watch.heard, hprocessed, Watch.heard]
    exact ⟨states, hrecords.quiet hordered hlength now hheard (hreceiver ▸ hrecords.holds) rfl⟩
  · exact hrecords.handle hlawful hordered hlength hle hclock hprocess hprocessed

end Recorded

section Invariant

variable {ht : HashTable Table} {w : Watch} {s s' : TimeoutSystem Table}
  {pre : List SystemEvent} {event : SystemEvent}

/-- A heartbeat that left the sending host then has reached the receiving host in time. -/
def TimeoutSystem.Delivered (w : Watch) (s : TimeoutSystem Table) (departed : Int) : Prop :=
  ∃ p, (p ∈ s.host.processed ∨ p ∈ s.host.unprocessed) ∧ p.IsHeartbeat w.appId w.nodeIp ∧
    ∃ t, s.stamps[p.arrivedAt]? = some t ∧ departed ≤ t ∧ t ≤ departed + w.delay

structure TimeoutSystem.Sound (w : Watch) (ht : HashTable Table) (pre : List SystemEvent)
    (s : TimeoutSystem Table) : Prop where
  sender : s.sender.Sound w.terms
  host : s.host.BarrierRun (hostEvents pre)
  length : s.stamps.length = s.host.time
  sorted : s.stamps.Pairwise (· ≤ ·)
  stamps_le : ∀ t ∈ s.stamps, t ≤ s.sender.now
  network_le : ∀ departed ∈ s.network, departed ≤ s.sender.now
  beats : ∀ beat ∈ s.sender.beats, beat ∈ s.network ∨ s.Delivered w beat
  records : ∃ states, w.Records ht s.host s.stamps states

theorem TimeoutSystem.initial_sound (w : Watch) (hlawful : ht.Lawful) :
    (TimeoutSystem.initial ht).Sound w ht [] where
  sender := LeasedSender.initial_sound w.terms
  host := barrierRun_initial ht
  length := rfl
  sorted := List.Pairwise.nil
  stamps_le := fun _ hmem => by cases hmem
  network_le := fun _ hmem => by cases hmem
  beats := fun _ hmem => by cases hmem
  records := ⟨_, hlawful.holdsStates_empty, fun _ => rfl, fun hne => absurd rfl hne⟩

/-- The sending host makes a step. -/
theorem TimeoutSystem.Sound.send (hs : s.Sound w ht pre) {event : SendEvent}
    (hkeeps : s.sender.KeepsTerms w.terms event) {sender : LeasedSender}
    (hstep : leasedStep w.terms s.sender event = .ok (sender, ())) :
    ({ s with sender := sender, network := s.network ++ s.departures event } :
      TimeoutSystem Table).Sound w ht (pre ++ [.send event]) := by
  have hnow := (leasedStep_grows hstep).now_le
  have hevents : hostEvents (pre ++ [.send event]) = hostEvents pre := by
    simp [hostEvents, SystemEvent.atHost]
  constructor
  case sender => exact hs.sender.step hkeeps hstep
  case host =>
    rw [hevents]
    exact hs.host
  case length => exact hs.length
  case sorted => exact hs.sorted
  case stamps_le => exact fun t hmem => (hs.stamps_le t hmem).trans hnow
  case network_le =>
    intro departed hmem
    refine le_trans ?_ hnow
    rcases List.mem_append.mp hmem with hold | hnew
    · exact hs.network_le departed hold
    · cases event with
      | consume i => exact le_of_eq (List.mem_singleton.mp hnew)
      | _ => cases hnew
  case beats =>
    intro beat hmem
    rcases leasedStep_beats hstep hmem with hold | ⟨⟨i, rfl⟩, rfl⟩
    · exact (hs.beats beat hold).imp_left (List.mem_append_left _)
    · exact Or.inl (List.mem_append_right _ (List.mem_singleton_self _))
  case records => exact hs.records

theorem TimeoutSystem.Delivered.hostStep {departed : Int} (hdelivered : s.Delivered w departed)
    (hs : s.Sound w ht pre) {event : HostEvent} {host : Host Table}
    (hstep : HostStep ht s.host event host) (network : List Int) :
    TimeoutSystem.Delivered w ⟨s.sender, network, host, s.stamps ++ [s.sender.now]⟩ departed := by
  obtain ⟨p, hp, hheartbeat, t, hstamp, hbounds⟩ := hdelivered
  refine ⟨p, ?_, hheartbeat, t, ?_, hbounds⟩
  · rcases hstep.packets with ⟨hprocessed, _, hkept⟩ | ⟨_, q, _, _, hprocessed, hkept⟩
    · rw [hprocessed]
      exact hp.imp_right (hkept p)
    · rw [hprocessed, List.mem_append, List.mem_singleton]
      rcases hp with hdone | hwaiting
      · exact Or.inl (Or.inl hdone)
      · rcases hkept p hwaiting with rfl | hstill
        · exact Or.inl (Or.inr rfl)
        · exact Or.inr hstill
  · rw [hs.host.ordered.stamp_concat hs.length hp]
    exact hstamp

/-- The receiving host makes a step; the heartbeat that the network loses is delivered. -/
theorem TimeoutSystem.Sound.hostStep (hlawful : ht.Lawful) (hs : s.Sound w ht pre)
    {hostEvent : HostEvent} (hevent : event.atHost = some hostEvent)
    (hturn : s.host.InTurn (hostEvents pre) hostEvent)
    (hclock : w.ReadsClock s.sender.now hostEvent) {host : Host Table}
    (hstep : HostStep ht s.host hostEvent host) {network : List Int}
    (hsubset : network ⊆ s.network)
    (hnetwork : ∀ departed ∈ s.network, departed ∈ network ∨
      TimeoutSystem.Delivered w ⟨s.sender, network, host, s.stamps ++ [s.sender.now]⟩ departed) :
    TimeoutSystem.Sound w ht (pre ++ [event])
      ⟨s.sender, network, host, s.stamps ++ [s.sender.now]⟩ := by
  have hevents : hostEvents (pre ++ [event]) = hostEvents pre ++ [hostEvent] := by
    simp [hostEvents, hevent]
  constructor
  case sender => exact hs.sender
  case host =>
    rw [hevents]
    exact hs.host.step hturn hstep
  case length =>
    rw [hstep.time, List.length_append, hs.length, List.length_singleton]
  case sorted =>
    rw [List.pairwise_append]
    refine ⟨hs.sorted, List.pairwise_singleton _ _, ?_⟩
    intro t hmem t' hlast
    rw [List.mem_singleton.mp hlast]
    exact hs.stamps_le t hmem
  case stamps_le =>
    rw [List.forall_mem_append, List.forall_mem_singleton]
    exact ⟨hs.stamps_le, le_refl _⟩
  case network_le => exact fun departed hmem => hs.network_le departed (hsubset hmem)
  case beats =>
    intro beat hmem
    rcases hs.beats beat hmem with hunderway | hdelivered
    · exact hnetwork beat hunderway
    · exact Or.inr (hdelivered.hostStep hs hstep network)
  case records =>
    obtain ⟨states, hrecords⟩ := hs.records
    exact hrecords.step hlawful hs.host.ordered hs.length hs.stamps_le hclock hstep

/-- A heartbeat of the node comes to the receiving host. -/
theorem TimeoutSystem.Sound.arrive (hlawful : ht.Lawful) (hs : s.Sound w ht pre)
    (hdelay : ∀ departed ∈ s.network, s.sender.now ≤ departed + w.delay) {i : Nat}
    {departed : Int} (hi : s.network[i]? = some departed) {queue : Fin irqNum}
    {payload : List UInt8} (hdecode : decodePacket payload = .ok (.heartbeat w.appId w.nodeIp))
    {host : Host Table}
    (hstep : HostStep ht s.host (.arrive queue payload) host) :
    TimeoutSystem.Sound w ht (pre ++ [.arrive i queue payload])
      ⟨s.sender, s.network.eraseIdx i, host, s.stamps ++ [s.sender.now]⟩ := by
  have hturn : s.host.InTurn (hostEvents pre) (.arrive queue payload) := by
    rintro ⟨epoch, queueIndex, hbarrier, _⟩
    rw [hdecode] at hbarrier
    cases hbarrier
  refine hs.hostStep hlawful rfl hturn trivial hstep (List.eraseIdx_subset) ?_
  intro departed' hmem
  rcases List.mem_cons.mp ((perm_of_getElem?_eq_some hi).mem_iff.mp hmem) with rfl | hother
  · have hdeparted : departed' ∈ s.network := List.mem_of_getElem? hi
    refine Or.inr ⟨⟨payload, queue, s.host.time, none⟩, Or.inr ?_, hdecode, s.sender.now, ?_,
      hs.network_le _ hdeparted, hdelay _ hdeparted⟩
    · cases hstep
      exact Host.mem_enqueue (Or.inr rfl)
    · rw [← hs.length]
      exact List.getElem?_concat_length
  · exact Or.inl hother

/-- One event. -/
theorem TimeoutSystem.Sound.step (hlawful : ht.Lawful) (hs : s.Sound w ht pre)
    (hassumes : s.Assumes w pre event) (hstep : SystemStep w ht s event s') :
    s'.Sound w ht (pre ++ [event]) := by
  obtain ⟨hdelay, hevent⟩ := hassumes
  cases hstep with
  | send hsender => exact hs.send hevent hsender
  | arrive hi hdecode hhost => exact hs.arrive hlawful hdelay hi hdecode hhost
  | host hclock hhost =>
      exact hs.hostStep hlawful rfl hevent hclock hhost (List.Subset.refl _)
        fun _ hmem => Or.inl hmem

theorem SystemStep.grows (hstep : SystemStep w ht s event s') : s.sender.Grows s'.sender := by
  cases hstep with
  | send hsender => exact leasedStep_grows hsender
  | arrive | host => exact s.sender.grows_refl

theorem system_grows_of_run {events : List SystemEvent} {outputs : List Unit}
    (hrun : runEvents (systemStep w ht) s events = .ok (s', outputs)) :
    s.sender.Grows s'.sender :=
  runEvents_invariant (fun _ state _ => s.sender.Grows state.sender) s.sender.grows_refl
    (fun _ _ _ _ _ _ _ hgrows hstep => hgrows.trans (systemStep_eq_ok hstep).grows) hrun

theorem system_sound_of_run (hlawful : ht.Lawful) {events : List SystemEvent}
    {outputs : List Unit}
    (hassumes : EveryStep (systemStep w ht) (TimeoutSystem.Assumes w) (.initial ht) events)
    (hrun : runEvents (systemStep w ht) (.initial ht) events = .ok (s, outputs)) :
    s.Sound w ht events :=
  hassumes.invariant (fun pre state _ => state.Sound w ht pre)
    (TimeoutSystem.initial_sound w hlawful)
    (fun _ _ _ _ _ _ _ hs hassumes hstep =>
      hs.step hlawful hassumes (systemStep_eq_ok hstep)) hrun

/-- A barrier has been announced that was sent so late that a node with no heartbeat since
`start` has no lease any more, even if its last heartbeat was on the network until then. -/
def TimeoutSystem.WaitedFor (w : Watch) (pre : List SystemEvent) (s : TimeoutSystem Table)
    (start : Int64) : Prop :=
  ∃ k sentAt t, k < s.host.receiver.barrierAllProcessed ∧
    BarrierSentAt (hostEvents pre) k sentAt ∧ s.stamps[sentAt]? = some t ∧
    start.toInt + (w.terms.term + w.terms.window + w.delay) ≤ t + w.offset

/-- What has arrived before an announced barrier was sent has been processed. -/
theorem TimeoutSystem.Sound.processed_of_arrived (hs : s.Sound w ht pre) {k sentAt : Nat}
    (hannounced : k < s.host.receiver.barrierAllProcessed)
    (hsent : BarrierSentAt (hostEvents pre) k sentAt) {t t' : Int}
    (ht : s.stamps[sentAt]? = some t) {p : Packet}
    (hp : p ∈ s.host.processed ∨ p ∈ s.host.unprocessed)
    (ht' : s.stamps[p.arrivedAt]? = some t') (hlt : t' < t) : p ∈ s.host.processed := by
  rcases hp with hdone | hwaiting
  · exact hdone
  · have hlate : sentAt ≤ p.arrivedAt := hs.host.ordered.sentAt_le_of_passed
      (hs.host.exact.announced k sentAt hsent hannounced p.queue) hwaiting rfl
    obtain ⟨hi, rfl⟩ := List.getElem?_eq_some_iff.mp ht
    obtain ⟨hj, rfl⟩ := List.getElem?_eq_some_iff.mp ht'
    have hle : s.stamps[sentAt] ≤ s.stamps[p.arrivedAt] := by
      rcases Nat.lt_or_eq_of_le hlate with hbefore | hsame
      · exact List.pairwise_iff_getElem.mp hs.sorted sentAt p.arrivedAt hi hj hbefore
      · simp only [hsame, le_refl]
    omega

/-- When a check finds the node silent since `start`, no beat lies between `start` and the
end of the lease. -/
theorem TimeoutSystem.Sound.pause (hs : s.Sound w ht pre)
    (hdelay : ∀ departed ∈ s.network, s.sender.now ≤ departed + w.delay) {start : Int64}
    (hverdict : safetimerCheck ht s.host.receiver.tables w.appId w.nodeIp start = .ok 1)
    (htwice : 2 ≤ (w.heard s.host).length) (hwaited : s.WaitedFor w pre start) :
    start.toInt - w.offset + (w.terms.term + w.terms.window) ≤ s.sender.now ∧
      ∀ beat ∈ s.sender.beats,
        beat < start.toInt - w.offset + (w.terms.term + w.terms.window) →
        beat < start.toInt - w.offset := by
  obtain ⟨k, sentAt, t, hannounced, hsent, hstamp, hlate⟩ := hwaited
  have hnow := hs.stamps_le t (List.mem_of_getElem? hstamp)
  obtain ⟨states, hrecords⟩ := hs.records
  obtain ⟨state, hstate, hrecorded⟩ := hrecords.heard (by
    intro hnil
    simp [hnil] at htwice)
  rw [hrecords.holds.safetimerCheck_eq, hstate, Except.ok.injEq, verdict_some_eq_one_iff,
    Int64.lt_iff_toInt_lt] at hverdict
  refine ⟨by omega, ?_⟩
  intro beat hbeat hearly
  rcases hs.beats beat hbeat with hunderway | ⟨p, hp, hheartbeat, t', hstamp', hafter, hin⟩
  · have hbound := hdelay beat hunderway
    omega
  · have hprocessed : p ∈ s.host.processed :=
      hs.processed_of_arrived hannounced hsent hstamp hp hstamp' (by omega)
    have hheard : p ∈ w.heard s.host :=
      List.mem_filter.mpr ⟨hprocessed, decide_eq_true hheartbeat⟩
    have hle := hrecorded htwice p hheard t' hstamp'
    omega

end Invariant

/-- The reply to a check is the verdict. -/
theorem verdict_of_reply {ht : HashTable Table} {h h' : Host Table} {check : PendingCheck}
    (hcheck : h.pendingCheck = some check) {reply : Int}
    (hstep : HostStep ht h (.check true) h')
    (hreply : h'.replies = h.replies ++ [reply]) :
    safetimerCheck ht h.receiver.tables check.appId check.nodeIp check.start = .ok reply := by
  cases hstep with
  | @check _ c verdict hpending hverdict =>
      cases hcheck.symm.trans hpending
      have hsame : h.replies ++ [verdict] = h.replies ++ [reply] := hreply
      rw [hverdict, List.singleton_inj.mp (List.append_cancel_left hsame)]

/-- Node 10.0.0.1, whose clock is 500 behind the one of the receiving host. -/
def sampleWatch : Watch :=
  ⟨7, inetNtop ⟨10, 0, 0, 1⟩, ⟨100, 10⟩, 5, 500⟩

attribute [local instance] instNeZeroIrqNum

/-- A heartbeat that is confirmed, arrives and is processed, all at one time. -/
def heartbeatRound (validTime reading : Int64) : List SystemEvent :=
  [.send (.call 0 true), .send (.route 0), .send (.consume 0), .send (.deliver 0), .send .wake,
    .send (.setValidTime validTime), .arrive 0 0 (heartbeatPacket ⟨10, 0, 0, 1⟩ 7),
    .host (.softirq 0), .host (.handle reading)]

/-- Two heartbeats, a long silence, and a check that waits for a barrier. -/
def silentRun : List SystemEvent :=
  [.send (.tick 1000), .send (.setValidTime 1090)] ++ heartbeatRound 1100 1500 ++
    [.send (.tick 1010)] ++ heartbeatRound 1110 1510 ++
    [.send (.tick 1140), .host (.recvRequest (requestBytes 1520)), .host (.sendBarrier 1 4),
      .host (.barrierArrive 0), .host (.barrierArrive 1), .host (.barrierArrive 2),
      .host (.barrierArrive 3), .host (.softirq 0), .host (.softirq 1), .host (.softirq 2),
      .host (.softirq 3), .host (.handle 1640), .host (.handle 1640), .host (.handle 1640),
      .host (.handle 1640)]

end SafeTimer
