/-
The clocks behind a check.  The sample receiver (sample_hb) computes the start of an
epoch from CLOCK_REALTIME, and st_receiver stamps the heartbeats with
CLOCK_MONOTONIC; `safetimer_check` compares the two.
-/
import SafeTimer.EpochTime
import SafeTimer.RequestFormat

namespace SafeTimer

/-- The readings of the two clocks at one instant, in milliseconds. -/
structure Instant where
  realtime : Int64
  monotonic : Int64
deriving DecidableEq

/-- `timeout_interval` of sample_hb/receiver.c -/
def sampleTimeoutInterval : Int64 := 1000

/-- `APP_ID` of sample_hb/receiver.c -/
def sampleAppId : Int64 := 1

/-- The globals of sample_hb/receiver.c after `base_time` has been set. -/
def sampleClock (baseTime : Int64) : EpochClock :=
  ⟨baseTime, sampleTimeoutInterval⟩

/-- `time_to_epoch` -/
def timeToEpoch (baseTime time : Int64) : Option Int64 :=
  (sampleClock baseTime).timeToEpoch time

/-- `epoch_to_time` -/
def epochToTime (baseTime id : Int64) : Option Int64 :=
  (sampleClock baseTime).epochToTime id

/-- The start time in the request of `expiration_check_for_epoch`. -/
def epochStart (baseTime epoch : Int64) : Option Int64 := do
  let time ← epochToTime baseTime epoch
  longOf (time.toInt - sampleTimeoutInterval.toInt)

theorem sampleClock_endOf (baseTime : Int64) (epoch : Int) :
    (sampleClock baseTime).endOf epoch = baseTime.toInt + epoch * 1000 := by
  rw [EpochClock.endOf, sampleClock, show sampleTimeoutInterval.toInt = 1000 from rfl]

theorem toInt_of_epochStart {baseTime epoch start : Int64}
    (hstart : epochStart baseTime epoch = some start) :
    start.toInt = baseTime.toInt + (epoch.toInt - 1) * 1000 := by
  obtain ⟨time, htime, hlast⟩ := Option.bind_eq_some_iff.mp hstart
  have hinterval : sampleTimeoutInterval.toInt = 1000 := rfl
  rw [toInt_of_longOf hlast, EpochClock.toInt_of_epochToTime htime, sampleClock_endOf, hinterval]
  omega

/-- The start in the request is where `time_to_epoch` goes over to the epoch. -/
theorem le_timeToEpoch_iff {baseTime epoch start time result : Int64} (hepoch : 1 ≤ epoch)
    (hstart : epochStart baseTime epoch = some start)
    (hresult : timeToEpoch baseTime time = some result) : epoch ≤ result ↔ start ≤ time := by
  have hpos : 0 < (sampleClock baseTime).timeoutInterval :=
    show (0 : Int64) < sampleTimeoutInterval by decide
  have hstartInt := toInt_of_epochStart hstart
  rw [timeToEpoch] at hresult
  rw [Int64.le_iff_toInt_le, toInt_one] at hepoch
  rw [Int64.le_iff_toInt_le, Int64.le_iff_toInt_le, hstartInt]
  rcases EpochClock.timeToEpoch_eq_some hpos hresult with ⟨hbefore, rfl⟩ | ⟨_, hvalue⟩
  · have hearly : time.toInt < baseTime.toInt := Int64.lt_iff_toInt_lt.mp hbefore
    rw [show (-1 : Int64).toInt = -1 from rfl]
    omega
  · have hbound : EpochClock.epochOf _ time ≤ epoch.toInt - 1 ↔ _ :=
      EpochClock.epochOf_le_iff hpos _
    rw [← hvalue, sampleClock_endOf] at hbound
    omega

section Verdict

variable {Table : Type → Type}

/-- `process_packet` on packets at their instants; its `now_time` is the monotonic
clock. -/
def processPackets (ht : HashTable Table) (r : Receiver Table)
    (packets : List (Instant × List UInt8)) : Except Fault (Receiver Table) :=
  packets.foldlM (fun r packet => processPacket ht r packet.2 packet.1.monotonic) r

/-- When the heartbeats of the node were processed. -/
def heardAt (packets : List (Instant × List UInt8)) (addr : InAddr) : List Instant :=
  (packets.filter fun packet =>
    decodePacket packet.2 = .ok (.heartbeat sampleAppId (inetNtop addr))).map Prod.fst

/-- Both clocks never go back. -/
def ClocksAdvance (packets : List (Instant × List UInt8)) : Prop :=
  packets.Pairwise fun earlier later =>
    earlier.1.realtime ≤ later.1.realtime ∧ earlier.1.monotonic ≤ later.1.monotonic

/-- The answer of `safetimer_check` to the request of the sample receiver. -/
def answersCheck (ht : HashTable Table) (inetAddr : CString → UInt32) (r : Receiver Table)
    (addr : InAddr) (start : Int64) : Option (Except Fault Int) :=
  (readRequest (stCheckTimeoutRequest inetAddr sampleAppId (inetNtop addr) start)).map
    fun request => safetimerCheck ht r.tables request.appId request.nodeIp request.start

/-- A node with two heartbeats is judged by whether the last of them was processed
before the epoch started on the clock of the application. -/
def StartComparable (ht : HashTable Table) (inetAddr : CString → UInt32) (baseTime epoch : Int64)
    (addr : InAddr) (packets : List (Instant × List UInt8)) : Prop :=
  ∀ start r last, epochStart baseTime epoch = some start →
    processPackets ht (.initial ht) packets = .ok r →
    2 ≤ (heardAt packets addr).length → (heardAt packets addr).getLast? = some last →
    (start ≤ last.realtime → answersCheck ht inetAddr r addr start = some (.ok 0)) ∧
      (last.realtime < start → answersCheck ht inetAddr r addr start = some (.ok 1))

/-- The clocks stand on the same side of the start of the epoch when the last heartbeat
is processed. -/
def ClocksAgree (baseTime epoch : Int64) (addr : InAddr)
    (packets : List (Instant × List UInt8)) : Prop :=
  ∀ start last, epochStart baseTime epoch = some start →
    2 ≤ (heardAt packets addr).length → (heardAt packets addr).getLast? = some last →
    (start ≤ last.realtime ↔ start ≤ last.monotonic)

/-- The call of `receive_heartbeat` that a packet leads to. -/
def heartbeatCall (packet : Instant × List UInt8) : Option HeartbeatCall :=
  match decodePacket packet.2 with
  | .ok (.heartbeat appId saddr) => some ⟨appId, saddr, packet.1.monotonic⟩
  | _ => none

variable {ht : HashTable Table} {r r' : Receiver Table} {states : NodeStates}

theorem HoldsStates.processPacket (hlawful : ht.Lawful) (hholds : HoldsStates ht r.tables states)
    {packet : Instant × List UInt8}
    (hstep : processPacket ht r packet.2 packet.1.monotonic = .ok r') :
    HoldsStates ht r'.tables ((heartbeatCall packet).toList.foldl NodeStates.receive states) := by
  rw [SafeTimer.processPacket] at hstep
  cases hdecode : decodePacket packet.2 with
  | error fault =>
      rw [hdecode] at hstep
      cases hstep
  | ok content =>
      rw [hdecode] at hstep
      cases content with
      | heartbeat appId saddr =>
          obtain ⟨tables, hcall, hholds'⟩ :=
            hholds.receiveHeartbeat hlawful ⟨appId, saddr, packet.1.monotonic⟩
          simp only [Receiver.process, bind, Except.bind, hcall] at hstep
          cases hstep
          rw [heartbeatCall, hdecode]
          exact hholds'
      | barrier fields =>
          simp only [Receiver.process, bind, Except.bind] at hstep
          split at hstep <;> cases hstep
          rw [heartbeatCall, hdecode]
          exact hholds
      | other =>
          cases hstep
          rw [heartbeatCall, hdecode]
          exact hholds

theorem HoldsStates.processPackets (hlawful : ht.Lawful)
    (hholds : HoldsStates ht r.tables states) {packets : List (Instant × List UInt8)}
    (hrun : processPackets ht r packets = .ok r') :
    HoldsStates ht r'.tables
      ((packets.filterMap heartbeatCall).foldl NodeStates.receive states) := by
  induction packets generalizing r states with
  | nil =>
      cases hrun
      exact hholds
  | cons packet rest ih =>
      rw [SafeTimer.processPackets, List.foldlM_cons] at hrun
      cases hstep : SafeTimer.processPacket ht r packet.2 packet.1.monotonic with
      | error fault =>
          rw [hstep] at hrun
          cases hrun
      | ok next =>
          rw [hstep] at hrun
          have hnext := ih (hholds.processPacket hlawful hstep) hrun
          cases hcall : heartbeatCall packet <;>
            simpa only [hcall, List.filterMap_cons, Option.toList, List.foldl_cons,
              List.foldl_nil] using hnext

/-- What st_receiver remembers of a node are the monotonic readings of its heartbeats. -/
theorem history_heartbeatCall (packets : List (Instant × List UInt8)) (addr : InAddr) :
    history (packets.filterMap heartbeatCall) sampleAppId (inetNtop addr) =
      (heardAt packets addr).map Instant.monotonic := by
  induction packets with
  | nil => rfl
  | cons packet rest ih =>
      by_cases hheard :
          decodePacket packet.2 = .ok (.heartbeat sampleAppId (inetNtop addr))
      · have hcall : heartbeatCall packet =
            some ⟨sampleAppId, inetNtop addr, packet.1.monotonic⟩ := by
          rw [heartbeatCall, hheard]
        rw [history] at ih ⊢
        rw [List.filterMap_cons_some hcall, List.filter_cons_of_pos (by simp), List.map_cons, ih,
          heardAt, heardAt, List.filter_cons_of_pos (by simpa using hheard), List.map_cons,
          List.map_cons]
      · have hunheard : heardAt (packet :: rest) addr = heardAt rest addr := by
          rw [heardAt, List.filter_cons_of_neg (by simpa using hheard), heardAt]
        rw [hunheard, ← ih]
        cases hcall : heartbeatCall packet with
        | none => rw [List.filterMap_cons_none hcall]
        | some call =>
            have hother : ¬ (call.appId = sampleAppId ∧ call.nodeIp = inetNtop addr) := by
              rintro ⟨happ, hnode⟩
              apply hheard
              rw [heartbeatCall] at hcall
              split at hcall
              · rename_i appId saddr hdecode
                cases hcall
                rw [hdecode]
                simp only at happ hnode
                rw [happ, hnode]
              · cases hcall
            rw [List.filterMap_cons_some hcall, history,
              List.filter_cons_of_neg (by simpa using hother), history]

/-- The verdict on a node that has been heard twice compares its last reading. -/
theorem answersCheck_eq (hlawful : ht.Lawful) {inetAddr : CString → UInt32}
    (hinet : InetAddrInverts inetAddr) {packets : List (Instant × List UInt8)}
    (hrun : processPackets ht (.initial ht) packets = .ok r) {addr : InAddr} {last : Instant}
    (htwo : 2 ≤ (heardAt packets addr).length)
    (hlast : (heardAt packets addr).getLast? = some last) (start : Int64) :
    answersCheck ht inetAddr r addr start =
      some (.ok (if last.monotonic < start then 1 else 0)) := by
  have hempty : HoldsStates ht (Receiver.initial ht).tables fun _ _ => none :=
    hlawful.holdsStates_empty
  have hholds := hempty.processPackets hlawful hrun
  have hstored : storedState ((heardAt packets addr).map Instant.monotonic) =
      some last.monotonic := by
    rcases hheard : heardAt packets addr with _ | ⟨first, _ | ⟨second, rest⟩⟩
    · rw [hheard] at htwo
      exact absurd htwo (by decide)
    · rw [hheard] at htwo
      exact absurd htwo (by simp)
    · rw [hheard, List.getLast?_cons_cons, List.getLast?_eq_some_getLast
        (List.cons_ne_nil second rest), Option.some.injEq] at hlast
      rw [List.map_cons, List.map_cons, storedState, ← hlast, Option.some.injEq]
      exact List.getLast_map (l := second :: rest) (List.cons_ne_nil _ _)
  rw [answersCheck, readRequest_stCheckTimeoutRequest hinet, Option.map_some,
    hholds.safetimerCheck_history, history_heartbeatCall, hstored]
  rfl

theorem answersCheck_iff (hlawful : ht.Lawful) {inetAddr : CString → UInt32}
    (hinet : InetAddrInverts inetAddr) {packets : List (Instant × List UInt8)}
    (hrun : processPackets ht (.initial ht) packets = .ok r) {addr : InAddr} {last : Instant}
    (htwo : 2 ≤ (heardAt packets addr).length)
    (hlast : (heardAt packets addr).getLast? = some last) (start : Int64) :
    (answersCheck ht inetAddr r addr start = some (.ok 0) ↔ start ≤ last.monotonic) ∧
      (answersCheck ht inetAddr r addr start = some (.ok 1) ↔ last.monotonic < start) := by
  rw [answersCheck_eq hlawful hinet hrun htwo hlast, ← Int64.not_lt]
  by_cases hbefore : last.monotonic < start <;> simp [hbefore]

/-- The start times of the application are comparable with the timestamps exactly
where the two clocks agree on whether the epoch has started. -/
theorem startComparable_iff {ht : HashTable Table} (hlawful : ht.Lawful)
    {inetAddr : CString → UInt32} (hinet : InetAddrInverts inetAddr) (baseTime epoch : Int64)
    (addr : InAddr) {packets : List (Instant × List UInt8)} {r : Receiver Table}
    (hrun : processPackets ht (.initial ht) packets = .ok r) :
    (1 ≤ epoch → ∀ start time result, epochStart baseTime epoch = some start →
        timeToEpoch baseTime time = some result → (epoch ≤ result ↔ start ≤ time)) ∧
      (StartComparable ht inetAddr baseTime epoch addr packets ↔
        ClocksAgree baseTime epoch addr packets) := by
  refine ⟨fun hepoch _ _ _ hstart hresult => le_timeToEpoch_iff hepoch hstart hresult, ?_⟩
  constructor
  · intro hcomparable start last hstart htwo hlast
    obtain ⟨hafter, hbefore⟩ := hcomparable start r last hstart hrun htwo hlast
    obtain ⟨hzero, hone⟩ := answersCheck_iff hlawful hinet hrun htwo hlast start
    rw [hzero] at hafter
    rw [hone, ← Int64.not_le, ← Int64.not_le] at hbefore
    exact ⟨hafter, fun hmonotonic => by_contra fun hreal => hbefore hreal hmonotonic⟩
  · intro hagree start r' last hstart hrun' htwo hlast
    obtain ⟨hzero, hone⟩ := answersCheck_iff hlawful hinet hrun' htwo hlast start
    have hiff := hagree start last hstart htwo hlast
    rw [hzero, hone, ← Int64.not_le, ← Int64.not_le, hiff]
    exact ⟨id, id⟩

end Verdict

/-- Two heartbeats of the node 10.0.0.1 for application 1. -/
def twoHeartbeats (first second : Instant) : List (Instant × List UInt8) :=
  [(first, heartbeatPacket ⟨10, 0, 0, 1⟩ 1), (second, heartbeatPacket ⟨10, 0, 0, 1⟩ 1)]

/-- A host whose clocks show the same time. -/
theorem startComparable_same_clock :
    StartComparable entryList dottedInetAddr 10000 3 ⟨10, 0, 0, 1⟩
      (twoHeartbeats ⟨11500, 11500⟩ ⟨12500, 12500⟩) := by
  have hrun : ∃ r, processPackets entryList (.initial entryList)
      (twoHeartbeats ⟨11500, 11500⟩ ⟨12500, 12500⟩) = .ok r := ⟨_, rfl⟩
  obtain ⟨r, hrun⟩ := hrun
  apply (startComparable_iff entryList_lawful dottedInetAddr_inverts 10000 3 ⟨10, 0, 0, 1⟩
    hrun).2.mpr
  intro start last _ _ hlast
  cases hlast
  exact Iff.rfl

/-- On a host that was booted 20 seconds ago, a node whose last heartbeat was just
processed is reported as failed. -/
theorem monotonic_heartbeat_reported_failed :
    ClocksAdvance (twoHeartbeats ⟨1700000011500, 19000⟩ ⟨1700000012500, 20000⟩) ∧
      ¬ StartComparable entryList dottedInetAddr 1700000010000 1 ⟨10, 0, 0, 1⟩
        (twoHeartbeats ⟨1700000011500, 19000⟩ ⟨1700000012500, 20000⟩) := by
  constructor
  · simp only [ClocksAdvance, twoHeartbeats]
    decide
  · intro hcomparable
    have hrun : ∃ r, processPackets entryList (.initial entryList)
        (twoHeartbeats ⟨1700000011500, 19000⟩ ⟨1700000012500, 20000⟩) = .ok r := ⟨_, rfl⟩
    obtain ⟨r, hrun⟩ := hrun
    have hlast : (heardAt (twoHeartbeats ⟨1700000011500, 19000⟩ ⟨1700000012500, 20000⟩)
        ⟨10, 0, 0, 1⟩).getLast? = some ⟨1700000012500, 20000⟩ := by decide
    have hzero := (hcomparable 1700000010000 r ⟨1700000012500, 20000⟩ (by decide) hrun
      (by decide) hlast).1 (by decide)
    have hstarted := (answersCheck_iff entryList_lawful dottedInetAddr_inverts hrun
      (by decide) hlast 1700000010000).1.mp hzero
    exact absurd hstarted (by decide)

end SafeTimer
