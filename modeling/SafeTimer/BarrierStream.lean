/-
The barrier messages of one flow (src/barrier.c) are written to a TCP stream, and
`process_packet` (src/queue.c) sees the segments.  It takes the first two longs of
each segment for a message, however the stream was cut, and goes on with -1 for both
when a segment has less data.
-/
import SafeTimer.PacketBounds
import SafeTimer.RecordStream

namespace SafeTimer

/-- The data of a segment. -/
def tcpData (packet : List UInt8) : List UInt8 :=
  packet.drop (tcpOffset packet)

/-- The epoch and the queue index with which `process_packet` goes on behind the checks of
its TCP branch.  Where the data is too short both keep their first value, and with values
that are wrong the branch is left. -/
def extractedPair (packet : List UInt8) : Option (Int × Int) :=
  match decodePacket packet with
  | .ok (.barrier none) => some (-1, -1)
  | .ok (.barrier (some (epoch, queueIndex))) =>
      if epoch ≤ 0 ∨ queueIndex < 0 then none else some (epoch, queueIndex)
  | _ => none

/-- `message` of `send_barrier_message` for one flow. -/
def barrierMessage (i : Fin irqNum) (epochId : Int64) : List UInt8 :=
  longBytes epochId ++ longBytes (Int64.ofNat i.val)

/-- What successive calls of `send_barrier_message` write to one flow. -/
def flowStream (i : Fin irqNum) (epochs : List Int64) : List UInt8 :=
  epochs.flatMap (barrierMessage i)

/-- Segments that carry the stream, whatever their headers are. -/
structure Segmentation (stream : List UInt8) (packets : List (List UInt8)) : Prop where
  segment : ∀ packet ∈ packets, IpPacket packet 6 5002 20
  data : packets.flatMap tcpData = stream

/-- The pairs extracted from the segments are those that were sent. -/
def SurvivesSegmentation (i : Fin irqNum) (epochs : List Int64)
    (packets : List (List UInt8)) : Prop :=
  ∀ pair : Int × Int, (∃ packet ∈ packets, extractedPair packet = some pair) ↔
    ∃ epoch ∈ epochs, pair = (epoch.toInt, (i.val : Int))

/-- The stream is cut between messages only. -/
def NoneSplit (packets : List (List UInt8)) : Prop :=
  ∀ packet ∈ packets, 16 ∣ (tcpData packet).length

instance (packets : List (List UInt8)) : Decidable (NoneSplit packets) :=
  inferInstanceAs (Decidable (∀ packet ∈ packets, _))

/-- No segment is without data, and of every epoch there is a message that stands first in a
segment. -/
def EpochsStandFirst (i : Fin irqNum) (epochs : List Int64) (packets : List (List UInt8)) :
    Prop :=
  (∀ packet ∈ packets, tcpData packet ≠ []) ∧
    ∀ epoch ∈ epochs, ∃ packet ∈ packets, barrierMessage i epoch <+: tcpData packet

/-- The two longs of a message. -/
def messagePair (message : List UInt8) : Int × Int :=
  ((longAt message 0).toInt, (longAt message 8).toInt)

theorem barrierMessage_length (i : Fin irqNum) (epochId : Int64) :
    (barrierMessage i epochId).length = 16 := by
  rw [barrierMessage, List.length_append, longBytes_length, longBytes_length]

/-- The bytes under a long are the bytes of the long. -/
theorem longBytes_longAt {bytes : List UInt8} {offset : Nat}
    (hfits : offset + 8 ≤ bytes.length) :
    longBytes (longAt bytes offset) = (bytes.drop offset).take 8 := by
  have hlength : ((bytes.drop offset).take 8).length = 8 := by
    rw [List.length_take, List.length_drop]
    omega
  have hlt := ofLeBytes_lt ((bytes.drop offset).take 8)
  have hround := leBytes_ofLeBytes ((bytes.drop offset).take 8)
  rw [hlength] at hlt hround
  rw [longBytes, longAt, Int64.toBitVec_ofBitVec, BitVec.toNat_ofNat,
    Nat.mod_eq_of_lt (Nat.lt_of_lt_of_eq hlt (by norm_num)), hround]

/-- Messages with the same longs are the same bytes. -/
theorem messagePair_injective {message message' : List UInt8} (hlength : message.length = 16)
    (hlength' : message'.length = 16) (hpair : messagePair message = messagePair message') :
    message = message' := by
  have hbytes : ∀ bytes : List UInt8, bytes.length = 16 →
      bytes = longBytes (longAt bytes 0) ++ longBytes (longAt bytes 8) := by
    intro bytes hsixteen
    rw [longBytes_longAt (by omega), longBytes_longAt (by omega), List.drop_zero]
    have hrest : (bytes.drop 8).take 8 = bytes.drop 8 :=
      List.take_of_length_le (by rw [List.length_drop]; omega)
    rw [hrest, List.take_append_drop]
  rw [messagePair, messagePair, Prod.mk.injEq, Int64.toInt_inj, Int64.toInt_inj] at hpair
  rw [hbytes message hlength, hbytes message' hlength', hpair.1, hpair.2]

theorem messagePair_barrierMessage (i : Fin irqNum) (epochId : Int64) :
    messagePair (barrierMessage i epochId) = (epochId.toInt, (i.val : Int)) := by
  have hindex : (Int64.ofNat i.val).toInt = i.val :=
    Int64.toInt_ofNat_of_lt (Nat.lt_trans i.isLt (by decide))
  have hfirst : longAt (barrierMessage i epochId) 0 = epochId := by
    apply longBytes_injective
    rw [longBytes_longAt (by rw [barrierMessage_length]; decide), List.drop_zero,
      barrierMessage, List.take_left' (longBytes_length _)]
  have hsecond : longAt (barrierMessage i epochId) 8 = Int64.ofNat i.val := by
    apply longBytes_injective
    rw [longBytes_longAt (by rw [barrierMessage_length]), barrierMessage,
      List.drop_left' (longBytes_length _), List.take_of_length_le (by rw [longBytes_length])]
  rw [messagePair, hfirst, hsecond, hindex]

theorem barrierMessage_injective (i : Fin irqNum) : Function.Injective (barrierMessage i) := by
  intro epoch epoch' hsame
  have hpair := congrArg messagePair hsame
  rw [messagePair_barrierMessage, messagePair_barrierMessage, Prod.mk.injEq,
    Int64.toInt_inj] at hpair
  exact hpair.1

/-- Only the first 16 bytes of a segment's data count. -/
theorem IpPacket.extractedPair_of_le {packet : List UInt8} (hp : IpPacket packet 6 5002 20)
    (hle : 16 ≤ (tcpData packet).length) :
    extractedPair packet =
      let pair := messagePair ((tcpData packet).take 16)
      if pair.1 ≤ 0 ∨ pair.2 < 0 then none else some pair := by
  have hlong : ∀ offset, offset + 8 ≤ 16 →
      longAt packet (tcpOffset packet + offset) = longAt ((tcpData packet).take 16) offset := by
    intro offset hoffset
    rw [longAt, longAt, tcpData, List.drop_take, List.take_take, List.drop_drop,
      Nat.min_eq_left (by omega)]
  have hfits : tcpOffset packet + 16 ≤ packet.length := by
    rw [tcpData, List.length_drop] at hle
    omega
  rw [extractedPair, hp.decodePacket_tcp, if_pos hfits, messagePair, ← hlong 0 (by decide),
    ← hlong 8 (by decide)]
  rfl

/-- With less data the branch goes on all the same. -/
theorem IpPacket.extractedPair_of_lt {packet : List UInt8} (hp : IpPacket packet 6 5002 20)
    (hlt : (tcpData packet).length < 16) : extractedPair packet = some (-1, -1) := by
  have hshort : ¬ tcpOffset packet + 16 ≤ packet.length := by
    rw [tcpData, List.length_drop] at hlt
    omega
  rw [extractedPair, hp.decodePacket_tcp, if_neg hshort]

section Segments

variable {i : Fin irqNum} {epochs : List Int64} {packets : List (List UInt8)} {epoch : Int64}
  {packet : List UInt8}

/-- A segment that begins with a message of a valid epoch yields its pair. -/
theorem IpPacket.extractedPair_of_message (hp : IpPacket packet 6 5002 20) (hone : 1 ≤ epoch)
    (hmessage : (tcpData packet).take 16 = barrierMessage i epoch) :
    extractedPair packet = some (epoch.toInt, (i.val : Int)) := by
  have hle : 16 ≤ (tcpData packet).length := by
    have hlength := congrArg List.length hmessage
    rw [barrierMessage_length, List.length_take] at hlength
    omega
  rw [Int64.le_iff_toInt_le, toInt_one] at hone
  have hvalid : ¬ (epoch.toInt ≤ 0 ∨ (i.val : Int) < 0) := by omega
  rw [hp.extractedPair_of_le hle, hmessage, messagePair_barrierMessage]
  exact if_neg hvalid

/-- A segment that yields the pair of a message begins with it, and the epoch is valid. -/
theorem IpPacket.message_of_extractedPair (hp : IpPacket packet 6 5002 20)
    (hpair : extractedPair packet = some (epoch.toInt, (i.val : Int))) :
    1 ≤ epoch ∧ (tcpData packet).take 16 = barrierMessage i epoch := by
  by_cases hlt : (tcpData packet).length < 16
  · rw [hp.extractedPair_of_lt hlt, Option.some.injEq, Prod.mk.injEq] at hpair
    omega
  · have hle := Nat.not_lt.mp hlt
    rw [hp.extractedPair_of_le hle] at hpair
    dsimp only at hpair
    split at hpair
    · cases hpair
    · rename_i hvalid
      rw [Option.some.injEq] at hpair
      rw [hpair] at hvalid
      rw [← messagePair_barrierMessage] at hpair
      refine ⟨?_, messagePair_injective ?_ (barrierMessage_length i epoch) hpair⟩
      · rw [Int64.le_iff_toInt_le, toInt_one]
        omega
      · rw [List.length_take, Nat.min_eq_left hle]

/-- Where all pairs survive, no segment is short. -/
theorem SurvivesSegmentation.data_le (hsurvives : SurvivesSegmentation i epochs packets)
    (hp : IpPacket packet 6 5002 20) (hmem : packet ∈ packets) :
    16 ≤ (tcpData packet).length := by
  by_contra hlt
  obtain ⟨epoch, _, hpair⟩ := (hsurvives (-1, -1)).mp
    ⟨packet, hmem, hp.extractedPair_of_lt (Nat.not_le.mp hlt)⟩
  rw [Prod.mk.injEq] at hpair
  omega

/-- Nor is a message lost. -/
theorem SurvivesSegmentation.found (hsurvives : SurvivesSegmentation i epochs packets)
    (hsegments : Segmentation (flowStream i epochs) packets) (hepoch : epoch ∈ epochs) :
    1 ≤ epoch ∧ ∃ packet ∈ packets, (tcpData packet).take 16 = barrierMessage i epoch := by
  obtain ⟨packet, hmem, hpair⟩ := (hsurvives _).mpr ⟨epoch, hepoch, rfl⟩
  obtain ⟨hone, hmessage⟩ := (hsegments.segment packet hmem).message_of_extractedPair hpair
  exact ⟨hone, packet, hmem, hmessage⟩

/-- Segments that begin with the sent messages, each with one and all of them with some. -/
theorem Segmentation.survives_of_heads (hsegments : Segmentation (flowStream i epochs) packets)
    (hvalid : ∀ epoch ∈ epochs, 1 ≤ epoch)
    (hsent : ∀ packet ∈ packets, ∃ epoch ∈ epochs,
      (tcpData packet).take 16 = barrierMessage i epoch)
    (hfound : ∀ epoch ∈ epochs, ∃ packet ∈ packets,
      (tcpData packet).take 16 = barrierMessage i epoch) :
    SurvivesSegmentation i epochs packets := by
  intro pair
  constructor
  · rintro ⟨packet, hmem, hpair⟩
    obtain ⟨epoch, hepoch, hmessage⟩ := hsent packet hmem
    have hextracted := (hsegments.segment packet hmem).extractedPair_of_message
      (hvalid epoch hepoch) hmessage
    exact ⟨epoch, hepoch, Option.some.inj (hpair.symm.trans hextracted)⟩
  · rintro ⟨epoch, hepoch, rfl⟩
    obtain ⟨packet, hmem, hmessage⟩ := hfound epoch hepoch
    exact ⟨packet, hmem, (hsegments.segment packet hmem).extractedPair_of_message
      (hvalid epoch hepoch) hmessage⟩

/-- The data of the segments and the messages are the same stream. -/
theorem Segmentation.flatten_eq (hsegments : Segmentation (flowStream i epochs) packets) :
    (packets.map tcpData).flatten = (epochs.map (barrierMessage i)).flatten := by
  have hdata := hsegments.data
  rw [flowStream, List.flatMap_def, List.flatMap_def] at hdata
  exact hdata

theorem messages_oneRecordEach (i : Fin irqNum) (epochs : List Int64) :
    OneRecordEach 16 (epochs.map (barrierMessage i)) := by
  intro message hmem
  obtain ⟨epoch, _, rfl⟩ := List.mem_map.mp hmem
  exact barrierMessage_length i epoch

/-- Different messages survive in segments of their own only. -/
theorem Segmentation.survives_iff_of_nodup
    (hsegments : Segmentation (flowStream i epochs) packets) (hnodup : epochs.Nodup) :
    SurvivesSegmentation i epochs packets ↔
      (∀ epoch ∈ epochs, 1 ≤ epoch) ∧ OneRecordEach 16 (packets.map tcpData) := by
  constructor
  · intro hsurvives
    refine ⟨fun epoch hepoch => (hsurvives.found hsegments hepoch).1, ?_⟩
    refine oneRecordEach_of_subset_heads ?_ (messages_oneRecordEach i epochs)
      (hnodup.map (barrierMessage_injective i)) hsegments.flatten_eq ?_
    · rw [List.forall_mem_map]
      exact fun packet hmem => hsurvives.data_le (hsegments.segment packet hmem) hmem
    · intro message hmessage
      obtain ⟨epoch, hepoch, rfl⟩ := List.mem_map.mp hmessage
      obtain ⟨_, packet, hmem, hhead⟩ := hsurvives.found hsegments hepoch
      rw [← hhead]
      exact List.mem_map_of_mem (List.mem_map_of_mem hmem)
  · rintro ⟨hvalid, hone⟩
    have hrecords : packets.map tcpData = epochs.map (barrierMessage i) :=
      hone.eq_records (by decide) (messages_oneRecordEach i epochs) hsegments.flatten_eq
    have hwhole : ∀ packet ∈ packets, (tcpData packet).take 16 = tcpData packet :=
      fun packet hmem => List.take_of_length_le
        (Nat.le_of_eq (hone (tcpData packet) (List.mem_map_of_mem hmem)))
    refine hsegments.survives_of_heads hvalid ?_ ?_
    · intro packet hmem
      have hdata : tcpData packet ∈ epochs.map (barrierMessage i) :=
        hrecords ▸ List.mem_map_of_mem hmem
      obtain ⟨epoch, hepoch, hmessage⟩ := List.mem_map.mp hdata
      exact ⟨epoch, hepoch, (hwhole packet hmem).trans hmessage.symm⟩
    · intro epoch hepoch
      have hdata : barrierMessage i epoch ∈ packets.map tcpData :=
        hrecords ▸ List.mem_map_of_mem hepoch
      obtain ⟨packet, hmem, hmessage⟩ := List.mem_map.mp hdata
      exact ⟨packet, hmem, (hwhole packet hmem).trans hmessage⟩

/-- Where no message is split, the first ones of the segments are found. -/
theorem Segmentation.survives_iff_of_noneSplit
    (hsegments : Segmentation (flowStream i epochs) packets) (hcuts : NoneSplit packets) :
    SurvivesSegmentation i epochs packets ↔
      (∀ epoch ∈ epochs, 1 ≤ epoch) ∧ EpochsStandFirst i epochs packets := by
  constructor
  · intro hsurvives
    refine ⟨fun epoch hepoch => (hsurvives.found hsegments hepoch).1, ?_, ?_⟩
    · intro packet hmem hempty
      have hle := hsurvives.data_le (hsegments.segment packet hmem) hmem
      rw [hempty] at hle
      cases hle
    · intro epoch hepoch
      obtain ⟨_, packet, hmem, hhead⟩ := hsurvives.found hsegments hepoch
      rw [← hhead]
      exact ⟨packet, hmem, (tcpData packet).drop 16, List.take_append_drop 16 _⟩
  · rintro ⟨hvalid, hdata, hfirst⟩
    refine hsegments.survives_of_heads hvalid ?_ ?_
    · intro packet hmem
      have hrecord : (tcpData packet).take 16 ∈ epochs.map (barrierMessage i) :=
        take_mem_records (by decide) (messages_oneRecordEach i epochs) hsegments.flatten_eq
          (List.forall_mem_map.mpr hcuts) _ (List.mem_map_of_mem hmem) (hdata packet hmem)
      obtain ⟨epoch, hepoch, hmessage⟩ := List.mem_map.mp hrecord
      exact ⟨epoch, hepoch, hmessage.symm⟩
    · intro epoch hepoch
      obtain ⟨packet, hmem, rest, hsplit⟩ := hfirst epoch hepoch
      refine ⟨packet, hmem, ?_⟩
      rw [← hsplit, List.take_left' (barrierMessage_length i epoch)]

end Segments

/-- A segment with the given data. -/
def segmentOf (data : List UInt8) : List UInt8 :=
  ipHeader 6 barrierClientAddr (UInt8.ofNat (40 + data.length)) ++ tcpHeader ++ data

end SafeTimer
