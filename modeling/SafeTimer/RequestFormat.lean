/-
The requests to the servers of SafeTimer as bytes: how the sample receiver
(sample_hb/receiver.c) and the wrapper for HDFS (hdfs/StReceiverWrapper.java) write
the address of a node, and how `server_routine` (src/st_receiver.c) reads it.
-/
import SafeTimer.PacketBounds
import SafeTimer.ReceiverHost

namespace SafeTimer

/-- The four bytes of a word in the opposite order. -/
def byteSwap (word : UInt32) : UInt32 :=
  UInt32.ofNat (ofLeBytes (leBytes 4 word.toNat).reverse)

/-- On a little-endian host. -/
def htonl (word : UInt32) : UInt32 := byteSwap word

def ntohl (word : UInt32) : UInt32 := byteSwap word

/-- `s_addr`, the word that the bytes of the address make up in memory. -/
def InAddr.sAddr (addr : InAddr) : UInt32 :=
  UInt32.ofNat (ofLeBytes [addr.b0, addr.b1, addr.b2, addr.b3])

def InAddr.ofSAddr (word : UInt32) : InAddr :=
  let bytes := leBytes 4 word.toNat
  ⟨bytes.getD 0 0, bytes.getD 1 0, bytes.getD 2 0, bytes.getD 3 0⟩

/-- The conversion of a `long` to `unsigned int`. -/
def lowWord (value : Int64) : UInt32 :=
  value.toUInt64.toUInt32

/-- The request of `st_check_timeout`; `inetAddr` is the library's `inet_addr`, whose
result becomes a `long` without a sign. -/
def stCheckTimeoutRequest (inetAddr : CString → UInt32) (appId : Int64) (nodeIp : CString)
    (epochStart : Int64) : List UInt8 :=
  longBytes appId ++ longBytes (htonl (inetAddr nodeIp)).toUInt64.toInt64 ++
    longBytes epochStart

/-- `inet_addr` reads what `inet_ntoa` prints. -/
def InetAddrInverts (inetAddr : CString → UInt32) : Prop :=
  ∀ addr, inetAddr (inetNtop addr) = addr.sAddr

/-- `nodeIpLong` of `st_timestamp_check`: `getInt` takes the bytes of the address most
significant first, and the cast to `long` keeps the sign. -/
def nodeIpLong (addr : InAddr) : Int64 :=
  (UInt32.ofNat (ofLeBytes [addr.b3, addr.b2, addr.b1, addr.b0])).toInt32.toInt64

theorem leBytes_ofNat_ofLeBytes {bytes : List UInt8} (hlength : bytes.length = 4) :
    leBytes 4 (UInt32.ofNat (ofLeBytes bytes)).toNat = bytes := by
  have hround := leBytes_ofLeBytes bytes
  have hlt := ofLeBytes_lt bytes
  rw [hlength] at hround hlt
  rw [UInt32.toNat_ofNat_of_lt' (Nat.lt_of_lt_of_eq hlt (by norm_num)), hround]

theorem byteSwap_byteSwap (word : UInt32) : byteSwap (byteSwap word) = word := by
  have hbytes : leBytes 4 (byteSwap word).toNat = (leBytes 4 word.toNat).reverse :=
    leBytes_ofNat_ofLeBytes (by rw [List.length_reverse, leBytes_length])
  rw [byteSwap, hbytes, List.reverse_reverse,
    ofLeBytes_leBytes (Nat.lt_of_lt_of_eq word.toNat_lt (by norm_num)), UInt32.ofNat_toNat]

theorem InAddr.ofSAddr_sAddr (addr : InAddr) : InAddr.ofSAddr addr.sAddr = addr := by
  have hbytes : leBytes 4 addr.sAddr.toNat = [addr.b0, addr.b1, addr.b2, addr.b3] :=
    leBytes_ofNat_ofLeBytes rfl
  rw [ofSAddr, hbytes]
  rfl

/-- The number that `getInt` reads is the address in host order. -/
theorem InAddr.htonl_sAddr (addr : InAddr) :
    htonl addr.sAddr = UInt32.ofNat (ofLeBytes [addr.b3, addr.b2, addr.b1, addr.b0]) := by
  have hbytes : leBytes 4 addr.sAddr.toNat = [addr.b0, addr.b1, addr.b2, addr.b3] :=
    leBytes_ofNat_ofLeBytes rfl
  rw [htonl, byteSwap, hbytes]
  rfl

/-- Sign extension does not touch the lower word. -/
theorem lowWord_signExtended (word : UInt32) : lowWord word.toInt32.toInt64 = word := by
  have hlow : lowWord word.toInt32.toInt64 = word.toInt32.toInt64.toInt32.toUInt32 := by
    apply UInt32.toBitVec_inj.mp
    rw [lowWord, UInt64.toBitVec_toUInt32, Int64.toBitVec_toUInt64, Int32.toBitVec_toUInt32,
      Int64.toBitVec_toInt32, BitVec.signExtend_eq_setWidth_of_le _ (by decide)]
  rw [hlow, Int32.toInt32_toInt64, UInt32.toUInt32_toInt32]

theorem lowWord_zeroExtended (word : UInt32) : lowWord word.toUInt64.toInt64 = word := by
  rw [lowWord, UInt64.toUInt64_toInt64, UInt32.toUInt32_toUInt64]

/-- The lower word of a `long` lies in its first four bytes. -/
theorem longBytes_take_four (value : Int64) :
    (longBytes value).take 4 = leBytes 4 (lowWord value).toNat := by
  rw [longBytes, leBytes_take (by decide), ← leBytes_mod 4 value.toBitVec.toNat]
  rfl

/-- The word that the address field of a request holds, by its four bytes. -/
theorem InAddr.ofSAddr_ntohl (word : UInt32) :
    InAddr.ofSAddr (ntohl word) =
      let bytes := leBytes 4 word.toNat
      ⟨bytes.getD 3 0, bytes.getD 2 0, bytes.getD 1 0, bytes.getD 0 0⟩ := by
  have hbytes : leBytes 4 (ntohl word).toNat = (leBytes 4 word.toNat).reverse :=
    leBytes_ofNat_ofLeBytes (by rw [List.length_reverse, leBytes_length])
  rw [ofSAddr, hbytes]
  rfl

/-- The request as `server_routine` sees it: three longs, the second of them through
`ntohl` into the address. -/
theorem readRequest_longs (appId word start : Int64) :
    readRequest (longBytes appId ++ longBytes word ++ longBytes start) =
      some ⟨appId, inetNtop (InAddr.ofSAddr (ntohl (lowWord word))), start⟩ := by
  have happ : readLong (longBytes appId ++ longBytes word ++ longBytes start) 0 = .ok appId := by
    rw [List.append_assoc]
    exact readLong_append [] _ appId
  have hstart : readLong (longBytes appId ++ longBytes word ++ longBytes start) 16 =
      .ok start := by
    have hread := readLong_append (longBytes appId ++ longBytes word) [] start
    rw [List.append_nil, List.length_append, longBytes_length, longBytes_length] at hread
    exact hread
  have hbyte : ∀ i < 4,
      readByte (longBytes appId ++ longBytes word ++ longBytes start) (8 + i) =
        .ok ((leBytes 4 (lowWord word).toNat).getD i 0) := by
    intro i hi
    have hread := readByte_of_lt
      (show 8 + i < (longBytes appId ++ longBytes word ++ longBytes start).length by
        simp only [List.length_append, longBytes_length]
        omega)
    rw [hread, ← longBytes_take_four, List.append_assoc]
    simp only [List.getD_eq_getElem?_getD, List.getElem?_take_of_lt hi]
    rw [List.getElem?_append_right (by rw [longBytes_length]; omega), longBytes_length,
      Nat.add_sub_cancel_left, List.getElem?_append_left (by rw [longBytes_length]; omega)]
  rw [readRequest, happ, hbyte 0 (by decide), hbyte 1 (by decide), hbyte 2 (by decide),
    hbyte 3 (by decide), hstart, InAddr.ofSAddr_ntohl]

/-- A request with the address in host order, however it was extended to a `long`. -/
theorem readRequest_of_lowWord {word : Int64} {addr : InAddr}
    (hword : lowWord word = htonl addr.sAddr) (appId start : Int64) :
    readRequest (longBytes appId ++ longBytes word ++ longBytes start) =
      some ⟨appId, inetNtop addr, start⟩ := by
  rw [readRequest_longs, hword, ntohl, htonl, byteSwap_byteSwap, InAddr.ofSAddr_sAddr]

theorem readRequest_stCheckTimeoutRequest {inetAddr : CString → UInt32}
    (hinet : InetAddrInverts inetAddr) (appId : Int64) (addr : InAddr) (start : Int64) :
    readRequest (stCheckTimeoutRequest inetAddr appId (inetNtop addr) start) =
      some ⟨appId, inetNtop addr, start⟩ := by
  rw [stCheckTimeoutRequest, hinet]
  exact readRequest_of_lowWord (lowWord_zeroExtended _) appId start

theorem lowWord_nodeIpLong (addr : InAddr) : lowWord (nodeIpLong addr) = htonl addr.sAddr := by
  rw [nodeIpLong, lowWord_signExtended, InAddr.htonl_sAddr]

/-- The check and the heartbeats of a node meet under one key: the request of the
sample receiver, the address word of the wrapper and the packets of the node all
name it by `inetNtop addr`. -/
theorem requestKey_eq_packetKey {Table : Type → Type} {inetAddr : CString → UInt32}
    (hinet : InetAddrInverts inetAddr) (ht : HashTable Table) (h : Host Table)
    (addr : InAddr) {appId : Int64} (happ : 0 ≤ appId) (start : Int64) :
    h.recvRequest (stCheckTimeoutRequest inetAddr appId (inetNtop addr) start) =
        { h with
          pendingCheck := some ⟨⟨appId, inetNtop addr, start⟩, h.time, h.unprocessed⟩ } ∧
      (∀ otherId otherStart,
        readRequest (longBytes otherId ++ longBytes (nodeIpLong addr) ++ longBytes otherStart) =
          some ⟨otherId, inetNtop addr, otherStart⟩) ∧
      ∀ (r : Receiver Table) (packet : List UInt8) (now : Int64),
        IpPacket packet 17 5001 8 → ipSaddr packet = addr →
        ipHeaderSize packet + 16 ≤ packet.length →
        processPacket ht r packet now = do
          let tables ← receiveHeartbeat ht r.tables
            (longAt packet (ipHeaderSize packet + 8)) (inetNtop addr) now
          return { r with tables := tables } := by
  refine ⟨?_, readRequest_of_lowWord (lowWord_nodeIpLong addr), ?_⟩
  · exact Host.recvRequest_of_accepted (readRequest_stCheckTimeoutRequest hinet _ _ _) happ
  · intro r packet now hpacket hsaddr hfits
    rw [processPacket, hpacket.decodePacket_udp, if_pos hfits, hsaddr]
    rfl

/-- An `inet_addr` for texts of four decimal numbers. -/
def dottedInetAddr (text : CString) : UInt32 :=
  UInt32.ofNat (ofLeBytes ((text.bytes.splitOn 46).map fun digits =>
    UInt8.ofNat (digitsValue digits)))

theorem dottedInetAddr_inverts : InetAddrInverts dottedInetAddr := by
  intro addr
  have hdot : ∀ value, (46 : UInt8) ∉ natText value := by
    intro value hmem
    exact absurd (isDigit_of_mem_natText hmem) (by decide)
  have hnumber : ∀ byte : UInt8, UInt8.ofNat (digitsValue (natText byte.toNat)) = byte := by
    intro byte
    rw [digitsValue_natText, UInt8.ofNat_toNat]
  have hsplit : (inetNtop addr).bytes.splitOn 46 = [natText addr.b0.toNat,
      natText addr.b1.toNat, natText addr.b2.toNat, natText addr.b3.toNat] := by
    have hjoined : (inetNtop addr).bytes = [46].intercalate [natText addr.b0.toNat,
        natText addr.b1.toNat, natText addr.b2.toNat, natText addr.b3.toNat] := by
      simp [inetNtop, InAddr.dotted, List.intercalate]
    rw [hjoined]
    apply List.splitOn_intercalate 46 _ (List.cons_ne_nil _ _)
    simp [hdot]
  rw [dottedInetAddr, hsplit]
  simp only [List.map_cons, List.map_nil, hnumber]
  rfl

/-- The node 200.1.2.3, whose address has the top bit set. -/
theorem requestKey_eq_packetKey_top_bit :
    (Host.initial entryList).recvRequest
        (stCheckTimeoutRequest dottedInetAddr 7 (inetNtop ⟨200, 1, 2, 3⟩) 300) =
        { Host.initial entryList with
          pendingCheck := some ⟨⟨7, inetNtop ⟨200, 1, 2, 3⟩, 300⟩, 0,
            (Host.initial entryList).unprocessed⟩ } ∧
      processPacket entryList (.initial entryList) (heartbeatPacket ⟨200, 1, 2, 3⟩ 7) 100 =
        (receiveHeartbeat entryList (.empty entryList) 7 (inetNtop ⟨200, 1, 2, 3⟩) 100).map
          fun tables => { Receiver.initial entryList with tables := tables } := by
  have hkey := requestKey_eq_packetKey dottedInetAddr_inverts entryList
    (.initial entryList) ⟨200, 1, 2, 3⟩ (show (0 : Int64) ≤ 7 by decide) 300
  have hpacket : IpPacket (heartbeatPacket ⟨200, 1, 2, 3⟩ 7) 17 5001 8 :=
    ⟨by decide, by decide, by decide, by decide, by decide, by decide⟩
  exact ⟨hkey.1, hkey.2.2 (.initial entryList) _ 100 hpacket rfl (by decide)⟩

end SafeTimer
