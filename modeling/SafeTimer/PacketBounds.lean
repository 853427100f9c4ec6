/-
Which packets keep `process_packet` (src/queue.c) within the bounds of the packet and
of its array.  The rules of sbin/add_filter_rule.sh hand over UDP packets for port
5001 and TCP segments for port 5002, whatever these carry.
-/
import SafeTimer.PacketPath

namespace SafeTimer

/-- `iph->ihl << 2` -/
def ipHeaderSize (packet : List UInt8) : Nat :=
  (packet.getD 0 0 &&& 15).toNat * 4

/-- `iph->saddr` -/
def ipSaddr (packet : List UInt8) : InAddr :=
  ⟨packet.getD 12 0, packet.getD 13 0, packet.getD 14 0, packet.getD 15 0⟩

/-- Where the data behind the TCP header begins. -/
def tcpOffset (packet : List UInt8) : Nat :=
  ipHeaderSize packet + (packet.getD (ipHeaderSize packet + 12) 0 >>> 4).toNat * 4

/-- The `long` at an offset within the packet. -/
def longAt (packet : List UInt8) (offset : Nat) : Int64 :=
  Int64.ofBitVec (BitVec.ofNat 64 (ofLeBytes ((packet.drop offset).take 8)))

/-- An IPv4 packet that is all there, with a full transport header of the protocol. -/
structure IpPacket (packet : List UInt8) (protocol : UInt8) (dport header : Nat) :
    Prop where
  version : packet.getD 0 0 >>> 4 = 4
  ihl : 5 ≤ (packet.getD 0 0 &&& 15).toNat
  total_length : (packet.getD 2 0).toNat * 256 + (packet.getD 3 0).toNat = packet.length
  protocol_eq : packet.getD 9 0 = protocol
  transport : ipHeaderSize packet + header ≤ packet.length
  dport_eq : (packet.getD (ipHeaderSize packet + 2) 0).toNat * 256 +
    (packet.getD (ipHeaderSize packet + 3) 0).toNat = dport

/-- What the two iptables rules match. -/
def FromFilter (packet : List UInt8) : Prop :=
  IpPacket packet 17 5001 8 ∨ IpPacket packet 6 5002 20

theorem readByte_of_lt {packet : List UInt8} {offset : Nat} (hlt : offset < packet.length) :
    readByte packet offset = .ok (packet.getD offset 0) := by
  rw [readByte, List.getD_eq_getElem?_getD, List.getElem?_eq_getElem hlt]
  rfl

theorem readLong_of_le {packet : List UInt8} {offset : Nat}
    (hle : offset + 8 ≤ packet.length) :
    readLong packet offset = .ok (longAt packet offset) := by
  rw [readLong, if_pos hle, longAt]

section Decode

variable {packet : List UInt8} {protocol : UInt8} {dport header : Nat}

theorem IpPacket.twenty_le (hp : IpPacket packet protocol dport header) :
    20 ≤ ipHeaderSize packet ∧ 20 ≤ packet.length := by
  have hihl := hp.ihl
  have htransport := hp.transport
  rw [ipHeaderSize] at *
  omega

/-- All bytes of the IP header are there. -/
theorem IpPacket.decodePacket_eq (hp : IpPacket packet protocol dport header) :
    decodePacket packet =
      if protocol = 17 then
        decodeUdp packet (inetNtop (ipSaddr packet)) (ipHeaderSize packet)
      else if protocol = 6 then decodeTcp packet (ipHeaderSize packet)
      else .ok .other := by
  have hlength := hp.twenty_le.2
  have hbyte : ∀ offset, offset < 20 →
      readByte packet offset = .ok (packet.getD offset 0) :=
    fun offset hlt => readByte_of_lt (Nat.lt_of_lt_of_le hlt hlength)
  have hsaddr : readSaddr packet = .ok (ipSaddr packet) := by
    simp only [readSaddr, hbyte 12 (by decide), hbyte 13 (by decide), hbyte 14 (by decide),
      hbyte 15 (by decide), bind, Except.bind]
    rfl
  simp only [decodePacket, hbyte 0 (by decide), hbyte 9 (by decide), hsaddr,
    hp.protocol_eq, bind, Except.bind]
  rfl

/-- A datagram is a heartbeat if a `long` follows its header. -/
theorem IpPacket.decodePacket_udp (hp : IpPacket packet 17 dport header) :
    decodePacket packet = .ok (if ipHeaderSize packet + 16 ≤ packet.length then
      .heartbeat (longAt packet (ipHeaderSize packet + 8)) (inetNtop (ipSaddr packet))
      else .other) := by
  rw [hp.decodePacket_eq, if_pos rfl, decodeUdp]
  by_cases hfits : ipHeaderSize packet + 8 + 8 ≤ packet.length
  · rw [if_pos hfits, if_pos hfits, readLong_of_le hfits]
    rfl
  · rw [if_neg hfits, if_neg hfits]
    rfl

/-- A segment yields its first two `long`s if it has so much data. -/
theorem IpPacket.decodePacket_tcp (hp : IpPacket packet 6 dport 20) :
    decodePacket packet = .ok (.barrier (if tcpOffset packet + 16 ≤ packet.length then
      some ((longAt packet (tcpOffset packet)).toInt,
        (longAt packet (tcpOffset packet + 8)).toInt)
      else none)) := by
  have htransport := hp.transport
  have hdoff : readByte packet (ipHeaderSize packet + 12) =
      .ok (packet.getD (ipHeaderSize packet + 12) 0) := readByte_of_lt (by omega)
  rw [hp.decodePacket_eq, if_neg (by decide), if_pos rfl]
  by_cases hfits : tcpOffset packet + 16 ≤ packet.length
  · rw [if_pos hfits]
    exact decodeTcp_of_reads hdoff hfits (readLong_of_le (by rw [tcpOffset] at hfits; omega))
      (readLong_of_le hfits)
  · rw [if_neg hfits]
    rw [tcpOffset] at hfits
    simp only [decodeTcp, hdoff, bind, Except.bind, if_neg hfits]
    rfl

end Decode

/-- Behind the index checks the only fault is that of `array_round ++`. -/
theorem recordBarrier_error {s : BarrierState} {epoch : Int} {row : Fin arraySize}
    {queue : Fin irqNum} {fault : Fault}
    (herror : recordBarrier s epoch row queue = .error fault) : fault = .intOverflow := by
  rw [recordBarrier] at herror
  split at herror
  · split at herror
    · rw [completeRow] at herror
      split at herror
      · split at herror
        · cases herror
          rfl
        · cases herror
      · cases herror
    · cases herror
  · cases herror

/-- The two ways out of the array: no message at all, and an index without a queue. -/
theorem tcpBranch_error_cases {s : BarrierState} {fields : Option (Int × Int)} {fault : Fault}
    (herror : tcpBranch s fields = .error fault) :
    fault = .intOverflow ∨ fault = .arrayAccess ∧
      ∀ epoch queueIndex, fields = some (epoch, queueIndex) → 0 < epoch ∧ irqNum ≤ queueIndex := by
  rcases fields with _ | ⟨epoch, queueIndex⟩
  · cases herror
    exact Or.inr ⟨rfl, fun epoch queueIndex hnone => by cases hnone⟩
  · rw [tcpBranch] at herror
    split at herror
    · cases herror
    · rename_i hvalues
      rw [barrierArray] at herror
      have hpos : 0 < epoch := by omega
      have hmod : epoch.tmod arraySize = epoch % arraySize :=
        Int.tmod_eq_emod_of_nonneg (Int.le_of_lt hpos)
      have hrow : 0 ≤ epoch % arraySize ∧ epoch % arraySize < arraySize :=
        ⟨Int.emod_nonneg _ (by decide), Int.emod_lt_of_pos _ (by decide)⟩
      split at herror
      · exact Or.inl (recordBarrier_error herror)
      · rename_i hbounds
        cases herror
        rw [hmod] at hbounds
        refine Or.inr ⟨rfl, ?_⟩
        intro epoch' queueIndex' hsame
        cases hsame
        omega

theorem tcpBranch_arrayAccess {s : BarrierState} {epoch queueIndex : Int} (hepoch : 0 < epoch)
    (hqueue : irqNum ≤ queueIndex) :
    tcpBranch s (some (epoch, queueIndex)) = .error .arrayAccess := by
  have hvalues : ¬ (epoch ≤ 0 ∨ queueIndex < 0) := by
    simp only [irqNum] at hqueue
    omega
  rw [tcpBranch, if_neg hvalues, barrierArray]
  apply dif_neg
  rintro ⟨_, _, hlt⟩
  omega

/-- A barrier message of some epoch for one of the queues. -/
def WellFormedBarrier (packet : List UInt8) : Prop :=
  ∃ epoch queueIndex : Int,
    decodePacket packet = .ok (.barrier (some (epoch, queueIndex))) ∧
      1 ≤ epoch ∧ 0 ≤ queueIndex ∧ queueIndex < irqNum

variable {Table : Type → Type}

/-- `process_packet` reads within the packet and accesses its array within the bounds,
and a TCP packet that is no barrier message changes nothing. -/
def StaysInBounds (ht : HashTable Table) (r : Receiver Table) (packet : List UInt8)
    (now : Int64) : Prop :=
  processPacket ht r packet now ≠ .error .packetRead ∧
  processPacket ht r packet now ≠ .error .arrayAccess ∧
  (packet.getD 9 0 = 6 → ¬ WellFormedBarrier packet →
    ∃ r', processPacket ht r packet now = .ok r' ∧ r'.barrier = r.barrier ∧
      r'.barrierAllProcessed = r.barrierAllProcessed)

/-- A segment with less data than one message, or with a positive epoch and an index
behind the last queue. -/
def Overruns (packet : List UInt8) : Prop :=
  packet.getD 9 0 = 6 ∧
    (packet.length < tcpOffset packet + 16 ∨
      0 < longAt packet (tcpOffset packet) ∧
        (irqNum : Int) ≤ (longAt packet (tcpOffset packet + 8)).toInt)

section Bounds

variable {ht : HashTable Table} {r : Receiver Table} {packet : List UInt8} {now : Int64}

theorem receiveHeartbeat_error {tables : HeartbeatTables Table} {appId : Int64}
    {nodeIp : CString} {state : Int64} {fault : Fault}
    (herror : receiveHeartbeat ht tables appId nodeIp state = .error fault) :
    fault = .badPointer := by
  rw [receiveHeartbeat] at herror
  split at herror
  split at herror
  · cases herror
    rfl
  · cases herror

theorem IpPacket.staysInBounds_udp {dport header : Nat} (hp : IpPacket packet 17 dport header) :
    StaysInBounds ht r packet now := by
  have hfault : ∀ fault, processPacket ht r packet now = .error fault → fault = .badPointer := by
    intro fault herror
    rw [processPacket, hp.decodePacket_udp] at herror
    change r.process ht now _ = .error fault at herror
    split at herror
    · rw [Receiver.process] at herror
      cases hreceive : receiveHeartbeat ht r.tables
          (longAt packet (ipHeaderSize packet + 8)) (inetNtop (ipSaddr packet)) now with
      | error fault' =>
          rw [hreceive] at herror
          cases herror
          exact receiveHeartbeat_error hreceive
      | ok tables =>
          rw [hreceive] at herror
          cases herror
    · cases herror
  refine ⟨fun herror => ?_, fun herror => ?_, fun htcp => ?_⟩
  · cases hfault _ herror
  · cases hfault _ herror
  · rw [hp.protocol_eq] at htcp
    cases htcp

/-- The effect of a segment is that of the TCP branch on its fields. -/
theorem IpPacket.processPacket_tcp (hp : IpPacket packet 6 5002 20) (ht : HashTable Table)
    (r : Receiver Table) (now : Int64) :
    processPacket ht r packet now =
      (tcpBranch r.barrier (if tcpOffset packet + 16 ≤ packet.length then
        some ((longAt packet (tcpOffset packet)).toInt,
          (longAt packet (tcpOffset packet + 8)).toInt) else none)).map
        fun (barrier, posted) =>
          { r with
            barrier := barrier
            barrierAllProcessed := r.barrierAllProcessed + if posted then 1 else 0 } := by
  rw [processPacket, hp.decodePacket_tcp]
  change (tcpBranch r.barrier _).bind _ = _
  cases tcpBranch r.barrier _ with
  | error fault => rfl
  | ok result => rfl

/-- Such a segment leads out of the array. -/
theorem IpPacket.processPacket_overruns (hp : IpPacket packet 6 5002 20)
    (hover : Overruns packet) : processPacket ht r packet now = .error .arrayAccess := by
  rw [hp.processPacket_tcp ht r now]
  obtain ⟨_, houtside⟩ := hover
  by_cases hfits : tcpOffset packet + 16 ≤ packet.length
  · rcases houtside with hshort | ⟨hepoch, hqueue⟩
    · exact absurd hfits (Nat.not_le.mpr hshort)
    · rw [if_pos hfits, tcpBranch_arrayAccess (Int64.lt_iff_toInt_lt.mp hepoch) hqueue]
      rfl
  · rw [if_neg hfits]
    rfl

/-- Any other segment has its two longs. -/
theorem IpPacket.tcp_fits (hp : IpPacket packet 6 5002 20) (hinside : ¬ Overruns packet) :
    tcpOffset packet + 16 ≤ packet.length := by
  apply Nat.not_lt.mp
  exact fun hshort => hinside ⟨hp.protocol_eq, Or.inl hshort⟩

/-- Nor does it carry an index without a queue. -/
theorem IpPacket.tcp_index (hp : IpPacket packet 6 5002 20) (hinside : ¬ Overruns packet) :
    ¬ (0 < (longAt packet (tcpOffset packet)).toInt ∧
      (irqNum : Int) ≤ (longAt packet (tcpOffset packet + 8)).toInt) := by
  rintro ⟨hepoch, hqueue⟩
  exact hinside ⟨hp.protocol_eq, Or.inr ⟨Int64.lt_iff_toInt_lt.mpr hepoch, hqueue⟩⟩

theorem IpPacket.processPacket_fault (hp : IpPacket packet 6 5002 20)
    (hinside : ¬ Overruns packet) {fault : Fault}
    (herror : processPacket ht r packet now = .error fault) : fault = .intOverflow := by
  rw [hp.processPacket_tcp ht r now, if_pos (hp.tcp_fits hinside)] at herror
  cases hbranch : tcpBranch r.barrier (some ((longAt packet (tcpOffset packet)).toInt,
      (longAt packet (tcpOffset packet + 8)).toInt)) with
  | ok result =>
      rw [hbranch] at herror
      cases herror
  | error fault' =>
      rw [hbranch] at herror
      cases herror
      rcases tcpBranch_error_cases hbranch with hoverflow | ⟨_, houtside⟩
      · exact hoverflow
      · exact absurd (houtside _ _ rfl) (hp.tcp_index hinside)

theorem IpPacket.staysInBounds_tcp_iff (hp : IpPacket packet 6 5002 20) :
    StaysInBounds ht r packet now ↔ ¬ Overruns packet := by
  constructor
  · rintro ⟨_, harray, _⟩ hover
    exact harray (hp.processPacket_overruns hover)
  · intro hinside
    have hfits := hp.tcp_fits hinside
    have hindex := hp.tcp_index hinside
    refine ⟨fun herror => ?_, fun herror => ?_, fun _ hillformed => ?_⟩
    · cases hp.processPacket_fault hinside herror
    · cases hp.processPacket_fault hinside herror
    · have hvalues : (longAt packet (tcpOffset packet)).toInt ≤ 0 ∨
          (longAt packet (tcpOffset packet + 8)).toInt < 0 := by
        by_contra hpositive
        have hdecode := hp.decodePacket_tcp
        rw [if_pos hfits] at hdecode
        exact hillformed ⟨_, _, hdecode, by omega, by omega, by omega⟩
      rw [hp.processPacket_tcp ht r now, if_pos hfits, tcpBranch, if_pos hvalues]
      exact ⟨_, rfl, rfl, rfl⟩

end Bounds

/-- Of all that the filter hands over, exactly the segments without a whole message
and those with an index behind the last queue leave the bounds. -/
theorem staysInBounds_iff (ht : HashTable Table) (r : Receiver Table) (packet : List UInt8)
    (hfilter : FromFilter packet) (now : Int64) :
    StaysInBounds ht r packet now ↔ ¬ Overruns packet := by
  rcases hfilter with hudp | htcp
  · refine ⟨fun _ hoverruns => ?_, fun _ => hudp.staysInBounds_udp⟩
    have hprotocol := hoverruns.1
    rw [hudp.protocol_eq] at hprotocol
    cases hprotocol
  · exact htcp.staysInBounds_tcp_iff

/-- A barrier message of epoch 7 for queue 2. -/
theorem staysInBounds_barrierPacket :
    FromFilter (barrierPacket 7 2) ∧
      StaysInBounds entryList (.initial entryList) (barrierPacket 7 2) 100 := by
  have hfilter : FromFilter (barrierPacket 7 2) :=
    Or.inr ⟨by decide, by decide, by decide, by decide, by decide, by decide⟩
  refine ⟨hfilter, (staysInBounds_iff entryList _ _ hfilter 100).mpr ?_⟩
  rintro ⟨_, hshort | ⟨_, hqueue⟩⟩
  · exact absurd hshort (by decide)
  · exact absurd hqueue (by decide)

/-- A segment without data, such as the acknowledgement that opens the connection:
both values stay at -1, and so do the two indices. -/
theorem empty_segment_leaves_array :
    ¬ ∀ (Table : Type → Type) (ht : HashTable Table), ht.Lawful →
      ∀ (r : Receiver Table) (packet : List UInt8), FromFilter packet →
        ∀ now : Int64, StaysInBounds ht r packet now := by
  intro hproperty
  let packet : List UInt8 := ipHeader 6 barrierClientAddr 40 ++ tcpHeader
  have hfilter : FromFilter packet :=
    Or.inr ⟨by decide, by decide, by decide, by decide, by decide, by decide⟩
  have hbounds := hproperty _ entryList entryList_lawful (.initial entryList) packet hfilter 100
  exact hbounds.2.1 rfl

end SafeTimer
