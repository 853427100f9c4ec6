/-
The drops that `if_drop_happened` (src/drop.c) polls, in the files of the modules
`nic_drop_reader` and `dev_drop_reader` and in a counter of src/queue.c.  Nothing in the
source calls it (`CONFIG_DROP` is off), so the polls are events of their own.
-/
import SafeTimer.EventRun
import SafeTimer.UserText
import Mathlib.Data.List.DropRight
import Mathlib.Data.PNat.Basic

namespace SafeTimer

/-- `HOSTCC_FLOW_ATTN_MBUF_LWM`, the low-water-mark bit of a port. -/
def hostccFlowAttnMbufLwm : UInt32 := 0x40

/-- `my_tp_regs`, reduced to the `HOSTCC_FLOW_ATTN` register of each port.  The array of
the driver has five entries. -/
structure TpRegs where
  regs : List UInt32
  count_le : regs.length ≤ 5
deriving DecidableEq

/-- `tg3_stat64_t` -/
structure Tg3Stat64 where
  high : UInt32
  low : UInt32
deriving DecidableEq

/-- `get_stat64` -/
def getStat64 (val : Tg3Stat64) : UInt64 :=
  val.high.toUInt64 <<< 32 ||| val.low.toUInt64

/-- The loop of `dropped_packets_read` over the ports.  Writing the bit to the register
clears it there. -/
def readPorts : List UInt32 → Tg3Stat64 → List UInt32 × Tg3Stat64
  | [], rxDiscards => ([], rxDiscards)
  | reg :: rest, rxDiscards =>
      let val : UInt32 := if reg &&& hostccFlowAttnMbufLwm ≠ 0 then 1 else 0
      if val ≠ 0 then
        let low := rxDiscards.low + val
        let high := if low < val then rxDiscards.high + 1 else rxDiscards.high
        let (rest, rxDiscards) := readPorts rest ⟨high, low⟩
        ((reg &&& ~~~hostccFlowAttnMbufLwm) :: rest, rxDiscards)
      else
        let (rest, rxDiscards) := readPorts rest rxDiscards
        (reg :: rest, rxDiscards)

theorem readPorts_cons_of_lwm {reg : UInt32} (hlwm : reg &&& hostccFlowAttnMbufLwm ≠ 0)
    (rest : List UInt32) (rxDiscards : Tg3Stat64) :
    readPorts (reg :: rest) rxDiscards =
      let low := rxDiscards.low + 1
      let high := if low < 1 then rxDiscards.high + 1 else rxDiscards.high
      ((reg &&& ~~~hostccFlowAttnMbufLwm) :: (readPorts rest ⟨high, low⟩).1,
        (readPorts rest ⟨high, low⟩).2) := by
  simp only [readPorts, if_pos hlwm]
  rw [if_pos (by decide)]

theorem readPorts_cons_of_not_lwm {reg : UInt32} (hlwm : reg &&& hostccFlowAttnMbufLwm = 0)
    (rest : List UInt32) (rxDiscards : Tg3Stat64) :
    readPorts (reg :: rest) rxDiscards =
      (reg :: (readPorts rest rxDiscards).1, (readPorts rest rxDiscards).2) := by
  simp only [readPorts, if_neg (not_not_intro hlwm)]
  rw [if_neg (by decide)]

theorem readPorts_length (regs : List UInt32) (rxDiscards : Tg3Stat64) :
    (readPorts regs rxDiscards).1.length = regs.length := by
  induction regs generalizing rxDiscards with
  | nil => rfl
  | cons reg rest ih =>
      by_cases hlwm : reg &&& hostccFlowAttnMbufLwm = 0
      · rw [readPorts_cons_of_not_lwm hlwm, List.length_cons, List.length_cons, ih]
      · rw [readPorts_cons_of_lwm hlwm, List.length_cons, List.length_cons, ih]

/-- What `dev_get_by_name` finds: `rx_dropped` of the device, and the one that
`ndo_get_stats64` of its driver reports, where the driver has that operation. -/
structure NetDevice where
  rxDropped : UInt64
  statsRxDropped : Option UInt64
deriving DecidableEq

def NetDevice.droppedPackets (dev : NetDevice) : UInt64 :=
  dev.statsRxDropped.getD 0 + dev.rxDropped

/-- The hardware, the two kernel modules and the counters of the receiver. -/
structure DropHost where
  tpRegs : TpRegs
  incrNicDropStr : TextBuffer bufferSize
  device : Option NetDevice
  prevDroppedPackets : UInt64
  incrDroppedPacketsStr : TextBuffer bufferSize
  queueDroppedPktCurrent : UInt64
  queueDroppedPktPrev : UInt64
deriving DecidableEq

/-- `nic_drop_reader_init` and `dev_drop_reader_init` -/
def DropHost.loaded (tpRegs : TpRegs) (device : Option NetDevice) : DropHost where
  tpRegs := tpRegs
  incrNicDropStr := TextBuffer.zeroed bufferSize
  device := device
  prevDroppedPackets := 0
  incrDroppedPacketsStr := TextBuffer.zeroed bufferSize
  queueDroppedPktCurrent := 0
  queueDroppedPktPrev := 0

/-- `dropped_packets_read`: the text is printed anew only when a port reports a drop. -/
def DropHost.droppedPacketsRead (host : DropHost) : List UInt8 × DropHost :=
  let result := readPorts host.tpRegs.regs ⟨0, 0⟩
  let droppedPackets := getStat64 result.2
  let incrNicDropStr :=
    if 0 < droppedPackets then snprintfUnsigned 10 droppedPackets (by decide)
    else host.incrNicDropStr
  (simpleReadFromBuffer incrNicDropStr 0 pageSize,
    { host with
      tpRegs := ⟨result.1, by rw [readPorts_length]; exact host.tpRegs.count_le⟩
      incrNicDropStr := incrNicDropStr })

/-- `incr_dropped_packets_read`; without the device the file is empty. -/
def DropHost.incrDroppedPacketsRead (host : DropHost) : List UInt8 × DropHost :=
  match host.device with
  | none => ([], host)
  | some dev =>
      let droppedPackets := dev.droppedPackets
      let incr := droppedPackets - host.prevDroppedPackets
      let incrDroppedPacketsStr := snprintfUnsigned 10 incr (by decide)
      (simpleReadFromBuffer incrDroppedPacketsStr 0 pageSize,
        { host with
          prevDroppedPackets := droppedPackets
          incrDroppedPacketsStr := incrDroppedPacketsStr })

/-- `nic_incr_dropped` -/
def DropHost.nicIncrDropped (host : DropHost) : UInt64 × DropHost :=
  let (content, host) := host.droppedPacketsRead
  (readNumber content, host)

/-- `dev_incr_dropped` -/
def DropHost.devIncrDropped (host : DropHost) : UInt64 × DropHost :=
  let (content, host) := host.incrDroppedPacketsRead
  (readNumber content, host)

/-- `queue_incr_dropped`, which takes the old value over before it subtracts it. -/
def DropHost.queueIncrDropped (host : DropHost) : UInt64 × DropHost :=
  let host := { host with queueDroppedPktPrev := host.queueDroppedPktCurrent }
  (host.queueDroppedPktCurrent - host.queueDroppedPktPrev, host)

inductive DropSource where
  | nic
  | dev
  | queue
deriving DecidableEq

/-- `NICDROP`, `DEVDROP` and `QUEUEDROP` -/
def DropSource.code : DropSource → Int32
  | .nic => 100
  | .dev => 10
  | .queue => 1

/-- `if_drop_happened` -/
def DropHost.ifDropHappened (host : DropHost) : Int32 × DropHost :=
  let ret : Int32 := 0
  let (nicIncr, host) := host.nicIncrDropped
  let ret := if 0 < nicIncr then ret + DropSource.nic.code else ret
  let (devIncr, host) := host.devIncrDropped
  let ret := if 0 < devIncr then ret + DropSource.dev.code else ret
  let (queueIncr, host) := host.queueIncrDropped
  let ret := if 0 < queueIncr then ret + DropSource.queue.code else ret
  (ret, host)

/-- The drops of the three sources and the polls. -/
inductive DropEvent where
  /-- a port sets its low-water-mark bit -/
  | nicDrop (port : Nat)
  /-- `rx_dropped` of the device increases -/
  | rxDropped (count : ℕ+)
  /-- the `rx_dropped` that the driver reports increases -/
  | statsRxDropped (count : ℕ+)
  /-- `recv` in `queue_recv_loop` fails with `ENOBUFS` -/
  | enobufs
  /-- a call of `if_drop_happened` -/
  | poll
deriving DecidableEq

/-- What cannot happen on the host at hand. -/
inductive DropStop where
  | noSuchPort
  | noSuchCounter
deriving DecidableEq

/-- One event.  On `ENOBUFS` the loop only prints a line: the statement that counts the
drop is commented out. -/
def DropHost.step (host : DropHost) : DropEvent → Except DropStop (DropHost × Option Int32)
  | .nicDrop port =>
      if port < host.tpRegs.regs.length then
        .ok ({ host with
          tpRegs := ⟨host.tpRegs.regs.modify port (· ||| hostccFlowAttnMbufLwm), by
            rw [List.length_modify]
            exact host.tpRegs.count_le⟩ }, none)
      else .error .noSuchPort
  | .rxDropped count =>
      match host.device with
      | none => .error .noSuchCounter
      | some dev =>
          .ok ({ host with
            device := some { dev with
              rxDropped := dev.rxDropped + UInt64.ofNat count } }, none)
  | .statsRxDropped count =>
      match host.device with
      | none => .error .noSuchCounter
      | some dev =>
          match dev.statsRxDropped with
          | none => .error .noSuchCounter
          | some dropped =>
              .ok ({ host with
                device := some { dev with
                  statsRxDropped := some (dropped + UInt64.ofNat count) } }, none)
  | .enobufs => .ok (host, none)
  | .poll =>
      let (ret, host) := host.ifDropHappened
      .ok (host, some ret)

/-- The source that an event is a drop of. -/
def DropEvent.source? : DropEvent → Option DropSource
  | .nicDrop _ => some .nic
  | .rxDropped _ => some .dev
  | .statsRxDropped _ => some .dev
  | .enobufs => some .queue
  | .poll => none

/-- The events behind the last poll. -/
def sincePoll (events : List DropEvent) : List DropEvent :=
  events.rtakeWhile (· ≠ .poll)

/-- The source had a drop among the events. -/
def Dropped (source : DropSource) (events : List DropEvent) : Prop :=
  ∃ event ∈ events, event.source? = some source

instance (source : DropSource) (events : List DropEvent) : Decidable (Dropped source events) :=
  inferInstanceAs (Decidable (∃ event ∈ events, _))

/-- The sum of the codes of the sources that had a drop. -/
def dropCode (events : List DropEvent) : Int32 :=
  (([.nic, .dev, .queue].filter fun source => Dropped source events).map DropSource.code).sum

/-- Every poll but the first returns the sum over the sources with a drop since the poll
before it. -/
def PollsExact (events : List DropEvent) (outputs : List (Option Int32)) : Prop :=
  ∀ pre post, events = pre ++ .poll :: post → .poll ∈ pre →
    outputs[pre.length]? = some (some (dropCode (sincePoll pre)))

/-- The packets by which an event increases a counter of the device. -/
def DropEvent.devPackets : DropEvent → Nat
  | .nicDrop _ => 0
  | .rxDropped count => count
  | .statsRxDropped count => count
  | .enobufs => 0
  | .poll => 0

def devPackets (events : List DropEvent) : Nat :=
  (events.map DropEvent.devPackets).sum

theorem devPackets_concat (events : List DropEvent) (event : DropEvent) :
    devPackets (events ++ [event]) = devPackets events + event.devPackets := by
  simp [devPackets]

/-- A port has a drop that no read has taken yet. -/
def LwmSet (regs : List UInt32) : Prop :=
  ∃ reg ∈ regs, reg &&& hostccFlowAttnMbufLwm ≠ 0

instance (regs : List UInt32) : Decidable (LwmSet regs) :=
  inferInstanceAs (Decidable (∃ reg ∈ regs, _))

theorem or_lwm_ne_zero (reg : UInt32) :
    (reg ||| hostccFlowAttnMbufLwm) &&& hostccFlowAttnMbufLwm ≠ 0 := by
  intro hzero
  have hbit := congrArg (fun word : UInt32 => word.toBitVec.getLsbD 6) hzero
  simp [hostccFlowAttnMbufLwm] at hbit

theorem readPorts_not_lwmSet (regs : List UInt32) (rxDiscards : Tg3Stat64) :
    ¬LwmSet (readPorts regs rxDiscards).1 := by
  induction regs generalizing rxDiscards with
  | nil => simp [readPorts, LwmSet]
  | cons reg rest ih =>
      rintro ⟨reg', hmem, hset⟩
      by_cases hlwm : reg &&& hostccFlowAttnMbufLwm = 0
      · rw [readPorts_cons_of_not_lwm hlwm] at hmem
        rcases List.mem_cons.mp hmem with rfl | hrest
        · exact hset hlwm
        · exact ih rxDiscards ⟨reg', hrest, hset⟩
      · rw [readPorts_cons_of_lwm hlwm] at hmem
        rcases List.mem_cons.mp hmem with rfl | hrest
        · apply hset
          rw [UInt32.and_assoc, UInt32.not_and_self, UInt32.and_zero]
        · exact ih _ ⟨reg', hrest, hset⟩

/-- As long as the lower word does not overflow, it counts the ports with the bit. -/
theorem readPorts_counts (regs : List UInt32) (low : UInt32)
    (hfits : low.toNat + regs.length < 2 ^ 32) :
    ∃ low', (readPorts regs ⟨0, low⟩).2 = ⟨0, low'⟩ ∧ low.toNat ≤ low'.toNat ∧
      (low'.toNat = low.toNat ↔ ¬LwmSet regs) := by
  induction regs generalizing low with
  | nil => exact ⟨low, rfl, Nat.le_refl _, by simp [LwmSet]⟩
  | cons reg rest ih =>
      rw [List.length_cons] at hfits
      by_cases hlwm : reg &&& hostccFlowAttnMbufLwm = 0
      · obtain ⟨low', hread, hle, hcount⟩ := ih low (by omega)
        refine ⟨low', by rw [readPorts_cons_of_not_lwm hlwm]; exact hread, hle, ?_⟩
        rw [hcount, LwmSet, LwmSet, List.exists_mem_cons_iff]
        simp [hlwm]
      · have hnext : (low + 1).toNat = low.toNat + 1 := by
          rw [UInt32.toNat_add]
          exact Nat.mod_eq_of_lt (by have : (1 : UInt32).toNat = 1 := rfl; omega)
        have hcarry : ¬low + 1 < 1 := by
          rw [UInt32.lt_iff_toNat_lt, hnext]
          exact Nat.not_lt.mpr (Nat.le_add_left 1 _)
        obtain ⟨low', hread, hle, _⟩ := ih (low + 1) (by omega)
        refine ⟨low', ?_, by omega, ?_⟩
        · rw [readPorts_cons_of_lwm hlwm]
          simp only [if_neg hcarry]
          exact hread
        · exact iff_of_false (by omega) (not_not_intro ⟨reg, List.mem_cons_self, hlwm⟩)

theorem getStat64_readPorts_pos_iff (tpRegs : TpRegs) :
    0 < getStat64 (readPorts tpRegs.regs ⟨0, 0⟩).2 ↔ LwmSet tpRegs.regs := by
  have hcount := tpRegs.count_le
  obtain ⟨low, hread, _, hset⟩ := readPorts_counts tpRegs.regs 0
    (by rw [UInt32.toNat_zero]; omega)
  have hstat : getStat64 ⟨0, low⟩ = low.toUInt64 := by
    simp [getStat64]
  rw [hread, hstat, UInt64.lt_iff_toNat_lt, UInt32.toNat_toUInt64, UInt64.toNat_zero]
  rw [UInt32.toNat_zero] at hset
  by_cases hlwm : LwmSet tpRegs.regs
  · have hne : low.toNat ≠ 0 := fun hzero => hset.mp hzero hlwm
    exact iff_of_true (by omega) hlwm
  · have hzero := hset.mpr hlwm
    exact iff_of_false (by omega) hlwm

/-- What the text that an earlier read has left says. -/
def DropHost.leftNumber (host : DropHost) : UInt64 :=
  readNumber (simpleReadFromBuffer host.incrNicDropStr 0 pageSize)

theorem DropHost.nicIncrDropped_pos_iff (host : DropHost) :
    0 < host.nicIncrDropped.1 ↔ LwmSet host.tpRegs.regs ∨ host.leftNumber ≠ 0 := by
  simp only [nicIncrDropped, droppedPacketsRead]
  by_cases hlwm : LwmSet host.tpRegs.regs
  · have hpos := (getStat64_readPorts_pos_iff host.tpRegs).mpr hlwm
    rw [if_pos hpos, UInt64.pos_iff_ne_zero]
    refine iff_of_true ?_ (Or.inl hlwm)
    rw [Ne, readNumber_snprintfUnsigned]
    exact UInt64.pos_iff_ne_zero.mp hpos
  · rw [if_neg (fun hpos => hlwm ((getStat64_readPorts_pos_iff host.tpRegs).mp hpos)),
      UInt64.pos_iff_ne_zero, leftNumber]
    simp [hlwm]

/-- The packets that the next read of `dev_drop_reader` finds. -/
def DropHost.pendingIncr (host : DropHost) : UInt64 :=
  match host.device with
  | none => 0
  | some dev => dev.droppedPackets - host.prevDroppedPackets

theorem DropHost.devIncrDropped_pos_iff (host : DropHost) :
    0 < host.devIncrDropped.1 ↔ host.pendingIncr ≠ 0 := by
  simp only [devIncrDropped, incrDroppedPacketsRead, pendingIncr, UInt64.pos_iff_ne_zero]
  cases host.device with
  | none =>
      have hempty : readNumber [] = 0 := by decide
      exact iff_of_false (not_not_intro hempty) (not_not_intro rfl)
  | some dev => exact not_congr (readNumber_snprintfUnsigned _)

theorem DropHost.step_poll (host : DropHost) :
    host.step .poll = .ok (host.ifDropHappened.2, some host.ifDropHappened.1) := rfl

/-- The queue has no part in what a poll returns. -/
theorem DropHost.ifDropHappened_fst (host : DropHost) :
    host.ifDropHappened.1 =
      (if LwmSet host.tpRegs.regs ∨ host.leftNumber ≠ 0 then 100 else 0) +
        (if host.pendingIncr ≠ 0 then 10 else 0) + 0 := by
  have hnic := host.nicIncrDropped_pos_iff
  have hdev := host.nicIncrDropped.2.devIncrDropped_pos_iff
  have hqueue (after : DropHost) : ¬0 < after.queueIncrDropped.1 := by
    simp [queueIncrDropped]
  have hpending : host.nicIncrDropped.2.pendingIncr = host.pendingIncr := rfl
  rw [hpending] at hdev
  simp only [ifDropHappened, hnic, hdev, if_neg (hqueue _), DropSource.code]
  split <;> split <;> rfl

theorem dropCode_eq (events : List DropEvent) :
    dropCode events = (if Dropped .nic events then 100 else 0) +
      (if Dropped .dev events then 10 else 0) + (if Dropped .queue events then 1 else 0) := by
  rw [dropCode]
  by_cases hnic : Dropped .nic events <;> by_cases hdev : Dropped .dev events <;>
    by_cases hqueue : Dropped .queue events <;> simp [hnic, hdev, hqueue, DropSource.code]

/-- The codes of the sources can be read off their sum. -/
theorem codes_eq_iff {nic dev nic' dev' queue : Prop} [Decidable nic] [Decidable dev]
    [Decidable nic'] [Decidable dev'] [Decidable queue] :
    (if nic then 100 else 0) + (if dev then 10 else 0) + 0 =
        (if nic' then 100 else 0) + (if dev' then 10 else 0) + (if queue then (1 : Int32) else 0) ↔
      (nic ↔ nic') ∧ (dev ↔ dev') ∧ ¬queue := by
  by_cases hnic : nic <;> by_cases hdev : dev <;> by_cases hnic' : nic' <;>
    by_cases hdev' : dev' <;> by_cases hqueue : queue <;>
    simp [hnic, hdev, hnic', hdev', hqueue]

/-- What the hardware and the counters hold back for the next poll. -/
structure DropHost.Holds (host : DropHost) (events : List DropEvent) : Prop where
  nic : LwmSet host.tpRegs.regs ↔ Dropped .nic events
  dev : host.pendingIncr = UInt64.ofNat (devPackets events)

theorem DropHost.devIncrDropped_tpRegs (host : DropHost) :
    host.devIncrDropped.2.tpRegs = host.tpRegs := by
  simp only [devIncrDropped, incrDroppedPacketsRead]
  split <;> rfl

theorem DropHost.devIncrDropped_pendingIncr (host : DropHost) :
    host.devIncrDropped.2.pendingIncr = 0 := by
  simp only [devIncrDropped, incrDroppedPacketsRead]
  cases hdevice : host.device with
  | none => simp only [pendingIncr, hdevice]
  | some dev =>
      simp only [pendingIncr]
      exact UInt64.sub_self _

theorem DropHost.holds_after_poll (host : DropHost) : host.ifDropHappened.2.Holds [] where
  nic := by
    have hregs : host.ifDropHappened.2.tpRegs = host.nicIncrDropped.2.tpRegs :=
      devIncrDropped_tpRegs _
    rw [hregs]
    exact iff_of_false (readPorts_not_lwmSet _ _) (by simp [Dropped])
  dev := devIncrDropped_pendingIncr _

theorem dropped_concat_iff {source : DropSource} {events : List DropEvent} {event : DropEvent} :
    Dropped source (events ++ [event]) ↔ Dropped source events ∨ event.source? = some source := by
  simp only [Dropped, List.mem_append, List.mem_singleton]
  constructor
  · rintro ⟨event', hmem | rfl, hsource⟩
    · exact Or.inl ⟨event', hmem, hsource⟩
    · exact Or.inr hsource
  · rintro (⟨event', hmem, hsource⟩ | hsource)
    · exact ⟨event', Or.inl hmem, hsource⟩
    · exact ⟨event, Or.inr rfl, hsource⟩

theorem lwmSet_modify {regs : List UInt32} {port : Nat} (hport : port < regs.length) :
    LwmSet (regs.modify port (· ||| hostccFlowAttnMbufLwm)) := by
  refine ⟨regs[port] ||| hostccFlowAttnMbufLwm, ?_, or_lwm_ne_zero _⟩
  apply List.mem_of_getElem? (i := port)
  rw [List.getElem?_modify_eq, List.getElem?_eq_getElem hport]
  rfl

theorem DropHost.Holds.nic_iff_concat {host : DropHost} {events : List DropEvent}
    {event : DropEvent} (hholds : host.Holds events) (hsource : event.source? ≠ some .nic) :
    LwmSet host.tpRegs.regs ↔ Dropped .nic (events ++ [event]) := by
  rw [dropped_concat_iff, hholds.nic]
  exact (or_iff_left hsource).symm

/-- A counter of the device increases. -/
theorem DropHost.Holds.count {host : DropHost} {events : List DropEvent} {event : DropEvent}
    (hholds : host.Holds events) (hsource : event.source? ≠ some .nic) {dev dev' : NetDevice}
    (hdevice : host.device = some dev)
    (hcount : dev'.droppedPackets = dev.droppedPackets + UInt64.ofNat event.devPackets) :
    DropHost.Holds { host with device := some dev' } (events ++ [event]) := by
  refine ⟨hholds.nic_iff_concat hsource, ?_⟩
  have hdev := hholds.dev
  rw [pendingIncr, hdevice] at hdev
  rw [devPackets_concat, UInt64.ofNat_add, ← hdev]
  simp only [pendingIncr, hcount]
  grind

theorem DropHost.Holds.step {host next : DropHost} {events : List DropEvent} {event : DropEvent}
    {output : Option Int32} (hholds : host.Holds events) (hpoll : event ≠ .poll)
    (hstep : host.step event = .ok (next, output)) : next.Holds (events ++ [event]) := by
  cases event with
  | nicDrop port =>
      simp only [DropHost.step] at hstep
      split at hstep
      · rename_i hport
        cases hstep
        constructor
        · exact iff_of_true (lwmSet_modify hport) (dropped_concat_iff.mpr (Or.inr rfl))
        · rw [devPackets_concat]
          exact hholds.dev
      · cases hstep
  | rxDropped count =>
      simp only [DropHost.step] at hstep
      split at hstep
      · cases hstep
      · rename_i dev hdevice
        cases hstep
        have hsource : (DropEvent.rxDropped count).source? ≠ some .nic := nofun
        refine hholds.count hsource hdevice ?_
        simp only [NetDevice.droppedPackets, DropEvent.devPackets]
        exact (UInt64.add_assoc _ _ _).symm
  | statsRxDropped count =>
      simp only [DropHost.step] at hstep
      split at hstep
      · cases hstep
      · rename_i dev hdevice
        split at hstep
        · cases hstep
        · rename_i dropped hdropped
          cases hstep
          have hsource : (DropEvent.statsRxDropped count).source? ≠ some .nic := nofun
          refine hholds.count hsource hdevice ?_
          simp only [NetDevice.droppedPackets, DropEvent.devPackets, hdropped, Option.getD_some]
          grind
  | enobufs =>
      cases hstep
      refine ⟨hholds.nic_iff_concat nofun, ?_⟩
      rw [devPackets_concat]
      exact hholds.dev
  | poll => exact absurd rfl hpoll

theorem sincePoll_concat_poll (events : List DropEvent) : sincePoll (events ++ [.poll]) = [] := by
  rw [sincePoll, List.rtakeWhile_concat_neg]
  decide

theorem sincePoll_concat_of_ne {event : DropEvent} (hpoll : event ≠ .poll)
    (events : List DropEvent) : sincePoll (events ++ [event]) = sincePoll events ++ [event] := by
  rw [sincePoll, List.rtakeWhile_concat_pos, sincePoll]
  exact decide_eq_true hpoll

/-- From the first poll on, the host holds back exactly the drops since the last one. -/
theorem holds_of_run {tpRegs : TpRegs} {device : Option NetDevice} {events : List DropEvent}
    {host : DropHost} {outputs : List (Option Int32)}
    (hrun : runEvents DropHost.step (DropHost.loaded tpRegs device) events = .ok (host, outputs))
    (hpolled : .poll ∈ events) : host.Holds (sincePoll events) := by
  refine runEvents_invariant
    (fun pre host _ => DropEvent.poll ∈ pre → host.Holds (sincePoll pre)) (by simp) ?_ hrun hpolled
  intro pre host outputs event next output _ hinv hstep hmem
  by_cases hpoll : event = .poll
  · subst hpoll
    cases hstep
    rw [sincePoll_concat_poll]
    exact host.holds_after_poll
  · rw [sincePoll_concat_of_ne hpoll]
    have hbefore : DropEvent.poll ∈ pre := by
      rcases List.mem_append.mp hmem with hpre | hlast
      · exact hpre
      · exact absurd (List.mem_singleton.mp hlast).symm hpoll
    exact (hinv hbefore).step hpoll hstep

theorem devPackets_eq_zero_iff (events : List DropEvent) :
    devPackets events = 0 ↔ ¬Dropped .dev events := by
  rw [devPackets, List.sum_eq_zero_iff_forall_eq_nat]
  simp only [List.mem_map, forall_exists_index, and_imp, forall_apply_eq_imp_iff₂, Dropped,
    not_exists, not_and]
  refine forall₂_congr fun event _ => ?_
  cases event <;> simp [DropEvent.devPackets, DropEvent.source?]

/-- A poll can tell the drops: no number of an earlier one is left in the text of the
module or a port has dropped again, the packets of the device do not make up a whole turn
of the counter, and the queue has dropped nothing. -/
def DropsTold (pre : List DropEvent) (host : DropHost) (event : DropEvent) : Prop :=
  event = .poll → .poll ∈ pre →
    (host.leftNumber ≠ 0 → Dropped .nic (sincePoll pre)) ∧
      (2 ^ 64 ∣ devPackets (sincePoll pre) → devPackets (sincePoll pre) = 0) ∧
      ¬Dropped .queue (sincePoll pre)

theorem DropHost.Holds.code_eq_iff {host : DropHost} {events : List DropEvent}
    (hholds : host.Holds events) :
    host.ifDropHappened.1 = dropCode events ↔
      (host.leftNumber ≠ 0 → Dropped .nic events) ∧
        (2 ^ 64 ∣ devPackets events → devPackets events = 0) ∧ ¬Dropped .queue events := by
  have hpending : host.pendingIncr ≠ 0 ↔ ¬2 ^ 64 ∣ devPackets events := by
    rw [hholds.dev, Ne, UInt64.ofNat_eq_iff_mod_eq_toNat, UInt64.toNat_zero,
      Nat.dvd_iff_mod_eq_zero]
  rw [ifDropHappened_fst, dropCode_eq, codes_eq_iff, hholds.nic, hpending]
  refine and_congr or_iff_left_iff_imp (and_congr_left fun _ => ?_)
  rw [devPackets_eq_zero_iff]
  constructor
  · intro hiff hdvd hdev
    exact hiff.mpr hdev hdvd
  · intro himp
    constructor
    · intro hdvd
      by_contra hdev
      rw [(devPackets_eq_zero_iff events).mpr hdev] at hdvd
      exact hdvd (dvd_zero _)
    · intro hdev hdvd
      exact himp hdvd hdev

/-- What a poll of a run returns. -/
theorem poll_output {init final : DropHost} {pre post : List DropEvent}
    {outputs : List (Option Int32)}
    (hrun : runEvents DropHost.step init (pre ++ .poll :: post) = .ok (final, outputs)) :
    ∃ host early, runEvents DropHost.step init pre = .ok (host, early) ∧
      outputs[pre.length]? = some (some host.ifDropHappened.1) := by
  obtain ⟨host, early, late, hpre, hpost, rfl⟩ := runEvents_append_eq_ok_iff.mp hrun
  obtain ⟨next, output, tail, hstep, _, rfl⟩ := runEvents_cons_eq_ok_iff.mp hpost
  rw [DropHost.step_poll] at hstep
  obtain ⟨rfl, rfl⟩ := Prod.mk.inj (Except.ok.inj hstep)
  refine ⟨host, early, hpre, ?_⟩
  rw [← runEvents_outputs_length hpre, List.getElem?_append_right (Nat.le_refl _),
    Nat.sub_self, List.getElem?_cons_zero]

theorem pollsExact_iff {tpRegs : TpRegs} {device : Option NetDevice} {events : List DropEvent}
    {final : DropHost} {outputs : List (Option Int32)}
    (hrun : runEvents DropHost.step (DropHost.loaded tpRegs device) events =
      .ok (final, outputs)) :
    PollsExact events outputs ↔
      EveryStep DropHost.step DropsTold (DropHost.loaded tpRegs device) events := by
  constructor
  · rintro hexact pre event post host early rfl hpre rfl hpolled
    obtain ⟨host', early', hpre', houtput⟩ := poll_output hrun
    obtain ⟨rfl, rfl⟩ := Prod.mk.inj (Except.ok.inj (hpre.symm.trans hpre'))
    rw [hexact pre post rfl hpolled] at houtput
    apply (holds_of_run hpre hpolled).code_eq_iff.mp
    exact (Option.some.inj (Option.some.inj houtput)).symm
  · rintro htold pre post rfl hpolled
    obtain ⟨host, early, hpre, houtput⟩ := poll_output hrun
    have hcode := (holds_of_run hpre hpolled).code_eq_iff.mpr
      (htold pre .poll post host early rfl hpre rfl hpolled)
    rw [houtput, hcode]

/-- A port and the device drop between the first two polls. -/
theorem pollsExact_nic_and_dev :
    ∃ final,
      runEvents DropHost.step (DropHost.loaded ⟨[0], by decide⟩ (some ⟨5, some 0⟩))
        [.poll, .nicDrop 0, .rxDropped 3, .poll] =
          .ok (final, [some 10, none, none, some 110]) ∧
      EveryStep DropHost.step DropsTold (DropHost.loaded ⟨[0], by decide⟩ (some ⟨5, some 0⟩))
        [.poll, .nicDrop 0, .rxDropped 3, .poll] := by
  have houtputs : (runEvents DropHost.step (DropHost.loaded ⟨[0], by decide⟩ (some ⟨5, some 0⟩))
      [.poll, .nicDrop 0, .rxDropped 3, .poll]).map Prod.snd =
        .ok [some 10, none, none, some 110] := by decide +kernel
  obtain ⟨final, hrun⟩ := exists_run_of_outputs houtputs
  refine ⟨final, hrun, (pollsExact_iff hrun).mp ?_⟩
  intro pre post hsplit hpolled
  rcases pre with _ | ⟨first, _ | ⟨second, _ | ⟨third, _ | ⟨fourth, rest⟩⟩⟩⟩
  · cases hpolled
  · simp at hsplit
  · simp at hsplit
  · simp only [List.cons_append, List.nil_append, List.cons.injEq] at hsplit
    obtain ⟨rfl, rfl, rfl, _⟩ := hsplit
    decide
  · simp at hsplit

/-- The text of the first NIC drop is returned again by every later poll, and a drop of
the queue is never returned. -/
theorem drop_reported_twice_and_drop_missed :
    (∃ final,
      runEvents DropHost.step (DropHost.loaded ⟨[0], by decide⟩ (some ⟨0, some 0⟩))
        [.poll, .nicDrop 0, .poll, .poll] = .ok (final, [some 0, none, some 100, some 100])) ∧
    ¬PollsExact [.poll, .nicDrop 0, .poll, .poll] [some 0, none, some 100, some 100] ∧
    (∃ final,
      runEvents DropHost.step (DropHost.loaded ⟨[0], by decide⟩ (some ⟨0, some 0⟩))
        [.poll, .enobufs, .poll] = .ok (final, [some 0, none, some 0])) ∧
    ¬PollsExact [.poll, .enobufs, .poll] [some 0, none, some 0] := by
  refine ⟨exists_run_of_outputs (by decide +kernel), ?_, exists_run_of_outputs (by decide +kernel),
    ?_⟩
  · intro hexact
    have hlast := hexact [.poll, .nicDrop 0, .poll] [] rfl (by decide)
    exact absurd hlast (by decide)
  · intro hexact
    have hlast := hexact [.poll, .enobufs] [] rfl (by decide)
    exact absurd hlast (by decide)

end SafeTimer
