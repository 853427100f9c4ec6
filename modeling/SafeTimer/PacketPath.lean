/-
`process_packet` (src/queue.c) on the bytes of a packet: what it takes out of the
IP, UDP and TCP headers, and what it does with it.
-/
import SafeTimer.BarrierRing
import SafeTimer.HeartbeatTable
import SafeTimer.KernelText

namespace SafeTimer

/-- An address as its four bytes lie in memory. -/
structure InAddr where
  b0 : UInt8
  b1 : UInt8
  b2 : UInt8
  b3 : UInt8
deriving DecidableEq

/-- The dotted decimal text of an address. -/
def InAddr.dotted (addr : InAddr) : List UInt8 :=
  natText addr.b0.toNat ++ 46 :: (natText addr.b1.toNat ++ 46 ::
    (natText addr.b2.toNat ++ 46 :: natText addr.b3.toNat))

theorem zero_not_mem_natText (value : Nat) : 0 ∉ natText value :=
  fun hmem => ne_zero_of_isDigit (isDigit_of_mem_natText hmem) rfl

theorem InAddr.zero_not_mem_dotted (addr : InAddr) : 0 ∉ addr.dotted := by
  simp [dotted, zero_not_mem_natText]

/-- `inet_ntop`, and `inet_ntoa` on the side of the requests. -/
def inetNtop (addr : InAddr) : CString :=
  ⟨addr.dotted, addr.zero_not_mem_dotted⟩

/-- A byte of the packet. -/
def readByte (packet : List UInt8) (offset : Nat) : Except Fault UInt8 :=
  match packet[offset]? with
  | some byte => .ok byte
  | none => .error .packetRead

/-- `*((long *) (nf_packet + offset))` -/
def readLong (packet : List UInt8) (offset : Nat) : Except Fault Int64 :=
  if offset + 8 ≤ packet.length then
    .ok (Int64.ofBitVec (BitVec.ofNat 64 (ofLeBytes ((packet.drop offset).take 8))))
  else .error .packetRead

/-- The source address in the IP header. -/
def readSaddr (packet : List UInt8) : Except Fault InAddr := do
  let b0 ← readByte packet 12
  let b1 ← readByte packet 13
  let b2 ← readByte packet 14
  let b3 ← readByte packet 15
  return ⟨b0, b1, b2, b3⟩

/-- What `process_packet` finds in a packet.  The two longs of a TCP packet are
absent when its payload is too short for them. -/
inductive PacketContent where
  | heartbeat (appId : Int64) (saddr : CString)
  | barrier (fields : Option (Int × Int))
  | other
deriving DecidableEq

/-- The UDP branch: the application id stands behind the UDP header. -/
def decodeUdp (packet : List UInt8) (saddr : CString) (iphdrSize : Nat) :
    Except Fault PacketContent :=
  let offset := iphdrSize + 8
  if offset + 8 ≤ packet.length then do
    let message ← readLong packet offset
    return .heartbeat message saddr
  else return .other

/-- The TCP branch: epoch and queue index stand behind the TCP header. -/
def decodeTcp (packet : List UInt8) (iphdrSize : Nat) : Except Fault PacketContent := do
  let doff ← readByte packet (iphdrSize + 12)
  let offset := iphdrSize + (doff >>> 4).toNat * 4
  if offset + 16 ≤ packet.length then
    let epoch ← readLong packet offset
    let queueIndex ← readLong packet (offset + 8)
    return .barrier (some (epoch.toInt, queueIndex.toInt))
  else return .barrier none

/-- The headers of a packet from the NFQUEUE. -/
def decodePacket (packet : List UInt8) : Except Fault PacketContent := do
  let ihl ← readByte packet 0
  let iphdrSize := (ihl &&& 15).toNat * 4
  let saddr ← readSaddr packet
  let protocol ← readByte packet 9
  if protocol = 17 then decodeUdp packet (inetNtop saddr) iphdrSize
  else if protocol = 6 then decodeTcp packet iphdrSize
  else return .other

/-- The variables that `process_packet` changes; `barrierAllProcessed` is the value
of the semaphore. -/
structure Receiver (Table : Type → Type) where
  tables : HeartbeatTables Table
  barrier : BarrierState
  barrierAllProcessed : Nat

variable {Table : Type → Type}

def Receiver.initial (ht : HashTable Table) : Receiver Table :=
  ⟨.empty ht, .initial, 0⟩

/-- The effect of a decoded packet. -/
def Receiver.process (ht : HashTable Table) (r : Receiver Table) (now : Int64) :
    PacketContent → Except Fault (Receiver Table)
  | .heartbeat appId saddr => do
      let tables ← receiveHeartbeat ht r.tables appId saddr now
      return { r with tables := tables }
  | .barrier fields => do
      let (barrier, posted) ← tcpBranch r.barrier fields
      let barrierAllProcessed := r.barrierAllProcessed + if posted then 1 else 0
      return { r with barrier := barrier, barrierAllProcessed := barrierAllProcessed }
  | .other => return r

/-- `process_packet` at the time `now`. -/
def processPacket (ht : HashTable Table) (r : Receiver Table) (packet : List UInt8)
    (now : Int64) : Except Fault (Receiver Table) := do
  let content ← decodePacket packet
  r.process ht now content

/-- The IP header of a packet without options; the checksum is not looked at. -/
def ipHeader (protocol : UInt8) (saddr : InAddr) (totalLength : UInt8) : List UInt8 :=
  [69, 0, 0, totalLength, 0, 0, 64, 0, 64, protocol, 0, 0,
    saddr.b0, saddr.b1, saddr.b2, saddr.b3, 10, 0, 0, 11]

/-- A UDP header for port 5001. -/
def udpHeader : List UInt8 :=
  [0, 0, 19, 137, 0, 16, 0, 0]

/-- A TCP header without options for port 5002. -/
def tcpHeader : List UInt8 :=
  [0, 0, 19, 138, 0, 0, 0, 0, 0, 0, 0, 0, 80, 24, 1, 0, 0, 0, 0, 0]

/-- A heartbeat as it comes from the node. -/
def heartbeatPacket (saddr : InAddr) (appId : Int64) : List UInt8 :=
  ipHeader 17 saddr 36 ++ udpHeader ++ longBytes appId

/-- `BARRIER_CLIENT_ADDR` -/
def barrierClientAddr : InAddr := ⟨10, 0, 0, 111⟩

/-- A message of `send_barrier_message`, in a segment of its own. -/
def barrierPacket (epochId : Int64) (i : Fin irqNum) : List UInt8 :=
  ipHeader 6 barrierClientAddr 56 ++ tcpHeader ++ longBytes epochId ++
    longBytes (Int64.ofNat i.val)

theorem readLong_append (pre post : List UInt8) (value : Int64) :
    readLong (pre ++ (longBytes value ++ post)) pre.length = .ok value := by
  have hlength := longBytes_length value
  have hbytes : ((pre ++ (longBytes value ++ post)).drop pre.length).take 8 =
      longBytes value := by
    rw [List.drop_left, ← hlength, List.take_left]
  have hfits : pre.length + 8 ≤ (pre ++ (longBytes value ++ post)).length := by
    simp only [List.length_append, hlength]
    omega
  rw [readLong, if_pos hfits, hbytes, longBytes, ofLeBytes_leBytes value.toBitVec.isLt,
    BitVec.ofNat_toNat, BitVec.setWidth_eq, Int64.ofBitVec_toBitVec]

/-- The fields of the IP header. -/
theorem decodePacket_ipHeader (protocol : UInt8) (saddr : InAddr) (totalLength : UInt8)
    (rest : List UInt8) :
    decodePacket (ipHeader protocol saddr totalLength ++ rest) =
      if protocol = 17 then
        decodeUdp (ipHeader protocol saddr totalLength ++ rest) (inetNtop saddr) 20
      else if protocol = 6 then decodeTcp (ipHeader protocol saddr totalLength ++ rest) 20
      else .ok .other :=
  rfl

theorem decodePacket_heartbeatPacket (saddr : InAddr) (appId : Int64) :
    decodePacket (heartbeatPacket saddr appId) = .ok (.heartbeat appId (inetNtop saddr)) := by
  have hread : readLong (heartbeatPacket saddr appId) 28 = .ok appId := by
    rw [heartbeatPacket, ← List.append_nil (longBytes appId)]
    exact readLong_append (ipHeader 17 saddr 36 ++ udpHeader) [] appId
  have hfits : 28 + 8 ≤ (heartbeatPacket saddr appId).length := by
    simp [heartbeatPacket, ipHeader, udpHeader, longBytes_length]
  have hudp : decodePacket (heartbeatPacket saddr appId) =
      decodeUdp (heartbeatPacket saddr appId) (inetNtop saddr) 20 := by
    rw [heartbeatPacket, List.append_assoc, decodePacket_ipHeader, if_pos rfl]
  rw [hudp, decodeUdp, if_pos hfits, hread]
  rfl

theorem decodeTcp_of_reads {packet : List UInt8} {iphdrSize : Nat} {doff : UInt8}
    {epoch queueIndex : Int64} (hdoff : readByte packet (iphdrSize + 12) = .ok doff)
    (hfits : iphdrSize + (doff >>> 4).toNat * 4 + 16 ≤ packet.length)
    (hepoch : readLong packet (iphdrSize + (doff >>> 4).toNat * 4) = .ok epoch)
    (hqueue : readLong packet (iphdrSize + (doff >>> 4).toNat * 4 + 8) = .ok queueIndex) :
    decodeTcp packet iphdrSize = .ok (.barrier (some (epoch.toInt, queueIndex.toInt))) := by
  simp only [decodeTcp, hdoff, bind, Except.bind, if_pos hfits, hepoch, hqueue]
  rfl

/-- A barrier message is found as it was sent. -/
theorem decodePacket_barrierPacket (epochId : Int64) (i : Fin irqNum) :
    decodePacket (barrierPacket epochId i) = .ok (.barrier (some (epochId.toInt, i.val))) := by
  have hepoch : readLong (barrierPacket epochId i) 40 = .ok epochId := by
    rw [barrierPacket, List.append_assoc]
    exact readLong_append (ipHeader 6 barrierClientAddr 56 ++ tcpHeader) _ epochId
  have hqueue : readLong (barrierPacket epochId i) (40 + 8) = .ok (Int64.ofNat i.val) := by
    have hoffset : 40 + 8 =
        (ipHeader 6 barrierClientAddr 56 ++ tcpHeader ++ longBytes epochId).length := by
      simp [ipHeader, tcpHeader, longBytes_length]
    rw [barrierPacket, ← List.append_nil (longBytes (Int64.ofNat i.val)), hoffset]
    exact readLong_append _ [] (Int64.ofNat i.val)
  have hfits : 40 + 16 ≤ (barrierPacket epochId i).length := by
    simp [barrierPacket, ipHeader, tcpHeader, longBytes_length]
  have hindex : (Int64.ofNat i.val).toInt = i.val := by
    exact Int64.toInt_ofNat_of_lt (Nat.lt_trans i.isLt (by decide))
  have htcp : decodePacket (barrierPacket epochId i) =
      decodeTcp (barrierPacket epochId i) 20 := by
    rw [barrierPacket, List.append_assoc, List.append_assoc, decodePacket_ipHeader,
      if_neg (by decide), if_pos rfl]
  have hdoff : readByte (barrierPacket epochId i) (20 + 12) = .ok 80 := rfl
  rw [htcp, decodeTcp_of_reads hdoff hfits hepoch hqueue, hindex]

/-- The bytes of a barrier message reach the ring as the message they carry. -/
theorem processPacket_barrierPacket (ht : HashTable Table) (r : Receiver Table)
    (epochId : Int64) (i : Fin irqNum) (hpos : 1 ≤ epochId.toInt) (now : Int64) :
    processPacket ht r (barrierPacket epochId i) now =
      (feedBarrier r.barrier ⟨epochId.toInt, i, hpos⟩).map fun (barrier, posted) =>
        { r with
          barrier := barrier
          barrierAllProcessed := r.barrierAllProcessed + if posted then 1 else 0 } := by
  rw [processPacket, decodePacket_barrierPacket]
  change (tcpBranch r.barrier (some (epochId.toInt, i.val))).bind _ = _
  rw [feedBarrier]
  cases tcpBranch r.barrier (some (epochId.toInt, i.val)) with
  | error fault => rfl
  | ok result => rfl

end SafeTimer
