/-
The module hb_sender_tracker (kmodule/send/hb_sender_tracker): it follows which
epoch has been sent last and closes the gate for heartbeats when the deadline of
the next epoch comes near.
-/
import SafeTimer.CValues
import SafeTimer.EventRun
import SafeTimer.KernelText

namespace SafeTimer

/-- The variables of debugfs.c and kretprobe.c.  Signed arithmetic wraps in the
kernel. -/
structure Tracker where
  baseTime : Int64
  timeoutInterval : Int64
  sentEpoch : Int64
  prevSentEpoch : Int64
  baseTimeStr : TextBuffer bufferSize
  timeoutIntervalStr : TextBuffer bufferSize
  sentEpochStr : TextBuffer bufferSize

/-- Module load. -/
def Tracker.initial : Tracker :=
  ⟨0, 0, 0, 0, .zeroed bufferSize, .zeroed bufferSize, .zeroed bufferSize⟩

def getMaxTransferDelay : Int64 := 40

def getMaxClockDeviation : Int64 := 10

/-- `epoch_to_time` of debugfs.h, and of helper.c on the side of the receiver. -/
def Tracker.epochToTime (t : Tracker) (id : Int64) : Int64 :=
  t.baseTime + id * t.timeoutInterval

def Tracker.prepared (t : Tracker) : Prop :=
  0 < t.baseTime ∧ 0 < t.timeoutInterval

instance (t : Tracker) : Decidable t.prepared :=
  inferInstanceAs (Decidable (_ ∧ _))

/-- `get_send_hb_timeout`; -1 stands for not prepared. -/
def Tracker.getSendHbTimeout (t : Tracker) : Int64 :=
  if t.sentEpoch = 0 then -1
  else
    let recvTimeout := t.epochToTime (t.sentEpoch + 1)
    recvTimeout - getMaxTransferDelay - getMaxClockDeviation

def Tracker.getSendBlockTimeout (t : Tracker) : Int64 :=
  t.getSendHbTimeout + getMaxTransferDelay

/-- `block_send` at the time `now`. -/
def Tracker.blockSend (t : Tracker) (now : Int64) : Int :=
  let sendBlockTimeout := t.getSendBlockTimeout
  if ¬ t.prepared then 0
  else if sendBlockTimeout < 0 then 0
  else if now < sendBlockTimeout then 0 else 1

/-- `is_send_hb_timeout` at the time `now`: by how much the deadline is exceeded. -/
def Tracker.isSendHbTimeout (t : Tracker) (now : Int64) : Int64 :=
  if ¬ t.prepared then 0
  else
    let sendTimeout := t.getSendHbTimeout
    if sendTimeout < 0 then 0 else now - sendTimeout

/-- A packet with the two longs behind its UDP header. -/
structure EpochSkb extends Skb where
  flag : Int64
  epoch : Int64

/-- `hook_func` of netfilter.c. -/
def Tracker.hookFunc (t : Tracker) (now : Int64) (skb : Skb) : Verdict :=
  if t.blockSend now = 0 then .accept
  else if skb.IsHeartbeat then .drop
  else .accept

def Tracker.incSentEpoch (t : Tracker) (inc : Int64) : Tracker :=
  { t with sentEpoch := t.sentEpoch + inc }

/-- `entry_handler`, entered when the driver has sent a packet.  The flag is read
and not looked at; `none` stands for a null pointer on the way to the packet. -/
def Tracker.entryHandler (t : Tracker) (now : Int64) : Option EpochSkb → Tracker
  | none => t
  | some skb =>
      if t.prepared ∧ skb.IsHeartbeat then
        if t.isSendHbTimeout now ≤ 0 then t.incSentEpoch (skb.epoch - t.prevSentEpoch)
        else t
      else t

/-- `sent_epoch_write`.  The number is parsed into a local variable, which holds
`garbage` when the parse fails, and is added to the epoch. -/
def Tracker.sentEpochWrite (t : Tracker) (position : Nat) (userBuffer : List UInt8)
    (garbage : Int64) (behind : List UInt8) : Tracker × Int :=
  if userBuffer.length > bufferSize then (t, -22)
  else
    let (str, ret) := simpleWriteToBuffer t.sentEpochStr position userBuffer
    let epoch := (kstrtol (str.bytes ++ behind)).getD garbage
    ({ t.incSentEpoch epoch with prevSentEpoch := epoch, sentEpochStr := str }, ret)

def Tracker.baseTimeWrite (t : Tracker) (position : Nat) (userBuffer behind : List UInt8) :
    Tracker × Int :=
  let (str, value, ret) :=
    writeLong t.baseTimeStr t.baseTime t.baseTime position userBuffer behind
  ({ t with baseTime := value, baseTimeStr := str }, ret)

def Tracker.timeoutIntervalWrite (t : Tracker) (position : Nat)
    (userBuffer behind : List UInt8) : Tracker × Int :=
  let (str, value, ret) :=
    writeLong t.timeoutIntervalStr t.timeoutInterval t.timeoutInterval position userBuffer
      behind
  ({ t with timeoutInterval := value, timeoutIntervalStr := str }, ret)

/-- `set_to_zero`.  `prev_sent_epoch` keeps its value. -/
def Tracker.setToZero (t : Tracker) : Tracker :=
  { t with
    timeoutInterval := 0
    baseTime := 0
    sentEpoch := t.sentEpoch - t.sentEpoch
    sentEpochStr := .zeroed bufferSize
    baseTimeStr := .zeroed bufferSize
    timeoutIntervalStr := .zeroed bufferSize }

/-- A write of a decimal number. -/
structure NumberWrite extends TextWrite bufferSize where
  value : Int64
  value_eq : kstrtol text = some value

/-- The operations on the module.  A completion is that of a heartbeat packet. -/
inductive TrackerOp where
  | sentEpochWrite (w : NumberWrite)
  | baseTimeWrite (w : TextWrite bufferSize)
  | timeoutIntervalWrite (w : TextWrite bufferSize)
  | clear
  | completion (now epoch : Int64)

/-- The packet of a heartbeat. -/
def heartbeatSkb (epoch : Int64) : EpochSkb :=
  ⟨⟨.udp, hbServerPort⟩, 1, epoch⟩

def TrackerOp.run (t : Tracker) : TrackerOp → Tracker × Int
  | .sentEpochWrite w => t.sentEpochWrite 0 w.text w.garbage w.behind
  | .baseTimeWrite w => t.baseTimeWrite 0 w.text w.behind
  | .timeoutIntervalWrite w => t.timeoutIntervalWrite 0 w.text w.behind
  | .clear => (t.setToZero, 0)
  | .completion now epoch => (t.entryHandler now (some (heartbeatSkb epoch)), 0)

/-- A completion is on time. -/
def Tracker.OnTime (t : Tracker) (now : Int64) : Prop :=
  t.prepared ∧ t.isSendHbTimeout now ≤ 0

instance (t : Tracker) (now : Int64) : Decidable (t.OnTime now) :=
  inferInstanceAs (Decidable (_ ∧ _))

/-- The newest epoch really sent: set by a write, 0 after a clear, and raised by
the completions that are on time. -/
def TrackerOp.newest (t : Tracker) (newest : Int64) : TrackerOp → Int64
  | .sentEpochWrite w => w.value
  | .baseTimeWrite _ => newest
  | .timeoutIntervalWrite _ => newest
  | .clear => 0
  | .completion now epoch => if t.OnTime now then max newest epoch else newest

/-- The module and, beside it, the newest epoch. -/
structure TrackedRun where
  tracker : Tracker
  newest : Int64

def trackerStep (r : TrackedRun) (op : TrackerOp) : Except Fault (TrackedRun × Int) :=
  .ok (⟨(op.run r.tracker).1, op.newest r.tracker r.newest⟩, (op.run r.tracker).2)

/-- After the operations `get_sent_epoch` returns the newest epoch. -/
def SentEpochIsNewest (ops : List TrackerOp) : Prop :=
  ∃ r outputs, runEvents trackerStep ⟨.initial, 0⟩ ops = .ok (r, outputs) ∧
    r.tracker.sentEpoch = r.newest

/-- The increments come out right: a number is written when `sent_epoch` is 0 and
ends in the buffer with its text, and a completion on time finds the smaller of
the two epochs in `prev_sent_epoch`. -/
def TrackerOp.IncrementFits (t : Tracker) : TrackerOp → Prop
  | .sentEpochWrite w => t.sentEpoch = 0 ∧ w.EndsIn t.sentEpochStr
  | .baseTimeWrite _ => True
  | .timeoutIntervalWrite _ => True
  | .clear => True
  | .completion now epoch => t.OnTime now → t.prevSentEpoch = min t.sentEpoch epoch

instance (t : Tracker) : (op : TrackerOp) → Decidable (op.IncrementFits t)
  | .sentEpochWrite _ => inferInstanceAs (Decidable (_ ∧ _))
  | .baseTimeWrite _ => isTrue trivial
  | .timeoutIntervalWrite _ => isTrue trivial
  | .clear => isTrue trivial
  | .completion _ _ => inferInstanceAs (Decidable (_ → _))

def IncrementsFit (ops : List TrackerOp) : Prop :=
  EveryStep trackerStep (fun _ r op => op.IncrementFits r.tracker) ⟨.initial, 0⟩ ops

theorem Tracker.sentEpochWrite_sentEpoch {t : Tracker} {w : NumberWrite}
    (hzero : t.sentEpoch = 0) (hends : w.EndsIn t.sentEpochStr) :
    (t.sentEpochWrite 0 w.text w.garbage w.behind).1.sentEpoch = w.value := by
  have hnumber := hends.kstrtol_eq w.value_eq
  rw [sentEpochWrite, if_neg (Nat.not_lt.mpr w.text_le)]
  simp only [hnumber, Option.getD_some, incSentEpoch, hzero, Int64.zero_add]

theorem Tracker.entryHandler_heartbeat (t : Tracker) (now epoch : Int64) :
    t.entryHandler now (some (heartbeatSkb epoch)) =
      if t.OnTime now then t.incSentEpoch (epoch - t.prevSentEpoch) else t := by
  have hheartbeat : (heartbeatSkb epoch).IsHeartbeat := ⟨rfl, rfl⟩
  by_cases hprepared : t.prepared
  · by_cases htime : t.isSendHbTimeout now ≤ 0
    · rw [entryHandler, if_pos ⟨hprepared, hheartbeat⟩, if_pos htime,
        if_pos ⟨hprepared, htime⟩]
      rfl
    · rw [entryHandler, if_pos ⟨hprepared, hheartbeat⟩, if_neg htime,
        if_neg (fun h => htime h.2)]
  · rw [entryHandler, if_neg (fun h => hprepared h.1), if_neg (fun h => hprepared h.1)]

/-- Adding what is missing to the smaller of two numbers gives the larger. -/
theorem add_sub_min (a b : Int64) : a + (b - min a b) = max a b := by
  by_cases hle : a ≤ b
  · have hmin : min a b = a := if_pos hle
    have hmax : max a b = b := if_pos hle
    rw [hmin, hmax, Int64.add_comm, Int64.sub_add_cancel]
  · have hmin : min a b = b := if_neg hle
    have hmax : max a b = a := if_neg hle
    rw [hmin, hmax, Int64.sub_self, Int64.add_zero]

/-- One operation keeps the epoch. -/
theorem TrackerOp.run_sentEpoch {t : Tracker} {op : TrackerOp}
    (hfits : op.IncrementFits t) :
    (op.run t).1.sentEpoch = op.newest t t.sentEpoch := by
  cases op with
  | sentEpochWrite w => exact Tracker.sentEpochWrite_sentEpoch hfits.1 hfits.2
  | baseTimeWrite w => rfl
  | timeoutIntervalWrite w => rfl
  | clear => exact Int64.sub_self t.sentEpoch
  | completion now epoch =>
      simp only [run, newest, Tracker.entryHandler_heartbeat]
      by_cases htime : t.OnTime now
      · rw [if_pos htime, if_pos htime, Tracker.incSentEpoch, hfits htime]
        exact add_sub_min t.sentEpoch epoch
      · rw [if_neg htime, if_neg htime]

/-- In every run whose increments fit, `sent_epoch` is the newest epoch. -/
theorem sentEpochIsNewest_of_incrementsFit (ops : List TrackerOp)
    (hfit : IncrementsFit ops) : SentEpochIsNewest ops := by
  obtain ⟨r, outputs, hrun⟩ := exists_run_of_total trackerStep
    (fun r op => ⟨_, rfl⟩) ⟨.initial, 0⟩ ops
  refine ⟨r, outputs, hrun, ?_⟩
  refine hfit.invariant (fun _ r _ => r.tracker.sentEpoch = r.newest) rfl ?_ hrun
  intro pre r early op next output _ hnewest hop hstep
  cases hstep
  rw [TrackerOp.run_sentEpoch hop, hnewest]

/-- The number 5 written to the prepared module, and the heartbeat of epoch 6 completed. -/
theorem sentEpochIsNewest_first_completion :
    let ops : List TrackerOp :=
      [.baseTimeWrite ⟨[49, 48, 48], by decide, 0, []⟩,
        .timeoutIntervalWrite ⟨[57, 48], by decide, 0, []⟩,
        .sentEpochWrite ⟨⟨[53], by decide, 0, []⟩, 5, by decide⟩, .completion 110 6]
    IncrementsFit ops ∧ SentEpochIsNewest ops := by
  intro ops
  have hfit : IncrementsFit ops := everyStep_iff_checkSteps.mpr (by decide)
  exact ⟨hfit, sentEpochIsNewest_of_incrementsFit ops hfit⟩

/-- Epoch 1 is written and the heartbeats of epochs 2 and 3 complete on time.  Both
increments are taken from 1, so that `sent_epoch` becomes 4. -/
theorem second_completion_overshoots :
    ¬ ∀ ops : List TrackerOp, SentEpochIsNewest ops := by
  intro hproperty
  let ops : List TrackerOp :=
    [.baseTimeWrite ⟨[49, 48, 48], by decide, 0, []⟩,
      .timeoutIntervalWrite ⟨[57, 48], by decide, 0, []⟩,
      .sentEpochWrite ⟨⟨[49], by decide, 0, []⟩, 1, by decide⟩,
      .completion 110 2, .completion 200 3]
  obtain ⟨r, outputs, hrun, hnewest⟩ := hproperty ops
  cases hrun
  exact absurd hnewest (by decide)

/-- The deadline of the epoch after the sent one, as a number that does not wrap. -/
def Tracker.nextDeadline (t : Tracker) : Int :=
  t.baseTime.toInt + (t.sentEpoch.toInt + 1) * t.timeoutInterval.toInt

/-- An epoch has been sent by a module that is prepared, and its next deadline fits
64 bits. -/
structure Tracker.Running (t : Tracker) : Prop where
  base : 50 < t.baseTime
  interval : 0 < t.timeoutInterval
  epoch : 1 ≤ t.sentEpoch
  fits : t.nextDeadline < 2 ^ 63

section Deadline

variable {t : Tracker}

@[simp] theorem toInt_getMaxTransferDelay : getMaxTransferDelay.toInt = 40 := rfl

@[simp] theorem toInt_getMaxClockDeviation : getMaxClockDeviation.toInt = 10 := rfl

theorem Tracker.Running.toInt_epochToTime (hrunning : t.Running) :
    (t.epochToTime (t.sentEpoch + 1)).toInt = t.nextDeadline := by
  have hbase : 50 < t.baseTime.toInt := Int64.lt_iff_toInt_lt.mp hrunning.base
  have hinterval : 0 < t.timeoutInterval.toInt := Int64.lt_iff_toInt_lt.mp hrunning.interval
  have hepoch : 1 ≤ t.sentEpoch.toInt := Int64.le_iff_toInt_le.mp hrunning.epoch
  have hfits := hrunning.fits
  rw [Tracker.nextDeadline] at hfits ⊢
  -- the factors stay below the product, and the product below the sum
  have hproduct : t.sentEpoch.toInt + 1 ≤
      (t.sentEpoch.toInt + 1) * t.timeoutInterval.toInt :=
    le_mul_of_one_le_right (by omega) (by omega)
  have hsucc : (t.sentEpoch + 1).toInt = t.sentEpoch.toInt + 1 := by
    rw [Int64.toInt_add, Int64.toInt_one]
    exact bmod_of_fits (by omega) (by omega)
  have hmul : ((t.sentEpoch + 1) * t.timeoutInterval).toInt =
      (t.sentEpoch.toInt + 1) * t.timeoutInterval.toInt := by
    rw [Int64.toInt_mul, hsucc]
    exact bmod_of_fits (by omega) (by omega)
  rw [epochToTime, Int64.toInt_add, hmul]
  exact bmod_of_fits (by omega) (by omega)

theorem Tracker.Running.nextDeadline_gt (hrunning : t.Running) : 50 < t.nextDeadline := by
  have hbase : 50 < t.baseTime.toInt := Int64.lt_iff_toInt_lt.mp hrunning.base
  have hinterval : 0 < t.timeoutInterval.toInt := Int64.lt_iff_toInt_lt.mp hrunning.interval
  have hepoch : 1 ≤ t.sentEpoch.toInt := Int64.le_iff_toInt_le.mp hrunning.epoch
  have hproduct : 0 < (t.sentEpoch.toInt + 1) * t.timeoutInterval.toInt :=
    Int.mul_pos (by omega) hinterval
  rw [Tracker.nextDeadline]
  omega

theorem Tracker.Running.prepared (hrunning : t.Running) : t.prepared := by
  refine ⟨?_, hrunning.interval⟩
  have hbase := Int64.lt_iff_toInt_lt.mp hrunning.base
  rw [Int64.lt_iff_toInt_lt]
  exact Int.lt_trans (by decide) hbase

/-- The heartbeat has to complete 50 ms before the deadline. -/
theorem Tracker.Running.toInt_getSendHbTimeout (hrunning : t.Running) :
    t.getSendHbTimeout.toInt = t.nextDeadline - 50 := by
  have hgt := hrunning.nextDeadline_gt
  have hfits := hrunning.fits
  have hepoch : t.sentEpoch ≠ 0 := by
    intro hzero
    have hpos := hrunning.epoch
    rw [hzero] at hpos
    exact absurd hpos (by decide)
  have hdelay : (t.epochToTime (t.sentEpoch + 1) - getMaxTransferDelay).toInt =
      t.nextDeadline - 40 := by
    rw [Int64.toInt_sub, hrunning.toInt_epochToTime, toInt_getMaxTransferDelay]
    exact bmod_of_fits (by omega) (by omega)
  rw [getSendHbTimeout, if_neg hepoch, Int64.toInt_sub _ getMaxClockDeviation, hdelay,
    toInt_getMaxClockDeviation, bmod_of_fits (by omega) (by omega)]
  omega

/-- The gate closes 10 ms before the deadline. -/
theorem Tracker.Running.toInt_getSendBlockTimeout (hrunning : t.Running) :
    t.getSendBlockTimeout.toInt = t.nextDeadline - 10 := by
  have hgt := hrunning.nextDeadline_gt
  have hfits := hrunning.fits
  rw [getSendBlockTimeout, Int64.toInt_add, hrunning.toInt_getSendHbTimeout,
    toInt_getMaxTransferDelay, bmod_of_fits (by omega) (by omega)]
  omega

theorem Tracker.Running.blockSend_eq_one (hrunning : t.Running) {now : Int64}
    (hlate : t.nextDeadline - 10 ≤ now.toInt) : t.blockSend now = 1 := by
  have hgt := hrunning.nextDeadline_gt
  have htimeout := hrunning.toInt_getSendBlockTimeout
  have hnonneg : ¬ t.getSendBlockTimeout < 0 := by
    rw [Int64.lt_iff_toInt_lt, htimeout, Int64.toInt_zero]
    omega
  have hpast : ¬ now < t.getSendBlockTimeout := by
    rw [Int64.lt_iff_toInt_lt, htimeout]
    omega
  rw [blockSend, if_neg (not_not_intro hrunning.prepared), if_neg hnonneg, if_neg hpast]

theorem Tracker.Running.hookFunc_eq_drop (hrunning : t.Running) {now : Int64}
    (hlate : t.nextDeadline - 10 ≤ now.toInt) {skb : Skb} (hskb : skb.IsHeartbeat) :
    t.hookFunc now skb = .drop := by
  have hblock := hrunning.blockSend_eq_one hlate
  rw [hookFunc, hblock, if_neg (by decide), if_pos hskb]

/-- The on-time test.  A clock so far back that the difference wraps does not pass
it, because the difference is then positive. -/
theorem Tracker.Running.toInt_le_of_onTime (hrunning : t.Running) {now : Int64}
    (htime : t.isSendHbTimeout now ≤ 0) : now.toInt ≤ t.nextDeadline - 50 := by
  have hgt := hrunning.nextDeadline_gt
  have hfits := hrunning.fits
  have htimeout := hrunning.toInt_getSendHbTimeout
  have hnonneg : ¬ t.getSendHbTimeout < 0 := by
    rw [Int64.lt_iff_toInt_lt, htimeout, Int64.toInt_zero]
    omega
  rw [isSendHbTimeout, if_neg (not_not_intro hrunning.prepared), if_neg hnonneg,
    Int64.le_iff_toInt_le, Int64.toInt_zero, Int64.toInt_sub, htimeout] at htime
  by_contra hlate
  have hexceeds : (now.toInt - (t.nextDeadline - 50)).bmod (2 ^ 64) =
      now.toInt - (t.nextDeadline - 50) := by
    have hhigh := now.toInt_lt
    exact bmod_of_fits (by omega) (by omega)
  omega

/-- Sender and receiver agree on the deadline of the epoch after the sent one,
whatever their clocks do within the deviation.  When the receiver may check that
epoch, the sender's gate is closed; and a heartbeat completed on time arrives when
the receiver's clock has not passed the deadline. -/
theorem gate_and_deadline_agree (t : Tracker) (hrunning : t.Running) :
    (∀ s r : Int64, |s.toInt - r.toInt| ≤ getMaxClockDeviation.toInt →
      t.epochToTime (t.sentEpoch + 1) ≤ r →
      t.blockSend s = 1 ∧ ∀ skb : Skb, skb.IsHeartbeat → t.hookFunc s skb = .drop) ∧
    ∀ s arrival r : Int64, t.isSendHbTimeout s ≤ 0 → s ≤ arrival →
      arrival.toInt - s.toInt ≤ getMaxTransferDelay.toInt →
      |arrival.toInt - r.toInt| ≤ getMaxClockDeviation.toInt →
      r ≤ t.epochToTime (t.sentEpoch + 1) := by
  have hdeadline := hrunning.toInt_epochToTime
  constructor
  · intro s r hdeviation hreached
    rw [Int64.le_iff_toInt_le, hdeadline] at hreached
    rw [toInt_getMaxClockDeviation, abs_le] at hdeviation
    have hlate : t.nextDeadline - 10 ≤ s.toInt := by omega
    exact ⟨hrunning.blockSend_eq_one hlate, fun skb hskb => hrunning.hookFunc_eq_drop hlate hskb⟩
  · intro s arrival r htime _ htransfer hdeviation
    have hsent := hrunning.toInt_le_of_onTime htime
    rw [toInt_getMaxTransferDelay] at htransfer
    rw [toInt_getMaxClockDeviation, abs_le] at hdeviation
    rw [Int64.le_iff_toInt_le, hdeadline]
    omega

end Deadline

/-- Epoch 3 sent, one second per epoch: the deadline of epoch 4 is at 5000 ms. -/
theorem gate_and_deadline_agree_at_5000 :
    let t : Tracker := { Tracker.initial with
      baseTime := 1000, timeoutInterval := 1000, sentEpoch := 3 }
    t.Running ∧ t.blockSend 4990 = 1 ∧ (4999 : Int64) ≤ t.epochToTime (t.sentEpoch + 1) := by
  intro t
  have hrunning : t.Running := ⟨by decide, by decide, by decide, by decide⟩
  obtain ⟨hgate, hontime⟩ := gate_and_deadline_agree t hrunning
  exact ⟨hrunning, (hgate 4990 5000 (by decide) (by decide)).1,
    hontime 4950 4989 4999 (by decide) (by decide) (by decide) (by decide)⟩

/-- The gate is closed exactly when it is due: the module is prepared, an epoch has
been sent, and the deadline of the next one, less the clock deviation, has come.  As
long as no epoch has been sent, nothing is late and every packet passes. -/
def Tracker.BlocksWhenDue (t : Tracker) (now : Int64) : Prop :=
  (t.blockSend now = 1 ↔ t.prepared ∧ t.sentEpoch ≠ 0 ∧
    0 ≤ t.epochToTime (t.sentEpoch + 1) - getMaxClockDeviation ∧
    t.epochToTime (t.sentEpoch + 1) - getMaxClockDeviation ≤ now) ∧
  (t.sentEpoch = 0 → t.blockSend now = 0 ∧ t.isSendHbTimeout now = 0 ∧
    ∀ skb : Skb, t.hookFunc now skb = .accept)

section Gate

variable {t : Tracker} {now : Int64}

/-- The transfer delay is taken off and put back, also where the numbers wrap. -/
theorem Tracker.getSendBlockTimeout_of_sent (hsent : t.sentEpoch ≠ 0) :
    t.getSendBlockTimeout = t.epochToTime (t.sentEpoch + 1) - getMaxClockDeviation := by
  rw [getSendBlockTimeout, getSendHbTimeout, if_neg hsent]
  change _ - getMaxTransferDelay - getMaxClockDeviation + getMaxTransferDelay = _
  grind

/-- The -1 for not prepared has become 39. -/
theorem Tracker.getSendBlockTimeout_of_unsent (hunsent : t.sentEpoch = 0) :
    t.getSendBlockTimeout = 39 := by
  rw [getSendBlockTimeout, getSendHbTimeout, if_pos hunsent]
  rfl

theorem Tracker.blockSend_eq_one_iff : t.blockSend now = 1 ↔
    t.prepared ∧ 0 ≤ t.getSendBlockTimeout ∧ t.getSendBlockTimeout ≤ now := by
  rw [blockSend]
  by_cases hprepared : t.prepared
  · by_cases hneg : t.getSendBlockTimeout < 0
    · simp [hprepared, hneg, Int64.not_le.mpr hneg]
    · by_cases hearly : now < t.getSendBlockTimeout
      · simp [hprepared, hneg, hearly, Int64.not_le.mpr hearly]
      · simp [hprepared, hneg, hearly, Int64.not_lt.mp hneg, Int64.not_lt.mp hearly]
  · simp [hprepared]

theorem Tracker.blockSend_eq_zero_of_ne_one (hopen : t.blockSend now ≠ 1) :
    t.blockSend now = 0 := by
  rw [blockSend] at hopen ⊢
  split
  · rfl
  · split
    · rfl
    · split
      · rfl
      · simp_all

theorem Tracker.isSendHbTimeout_of_unsent (hunsent : t.sentEpoch = 0) :
    t.isSendHbTimeout now = 0 := by
  have hnegative : t.getSendHbTimeout < 0 := by
    rw [getSendHbTimeout, if_pos hunsent]
    decide
  rw [isSendHbTimeout, if_pos hnegative, ite_self]

end Gate

/-- The gate is right in every state but one kind: configured, nothing sent yet, and
the clock past 39 ms. -/
theorem blocksWhenDue_iff (t : Tracker) (now : Int64) :
    t.BlocksWhenDue now ↔ ¬ (t.prepared ∧ t.sentEpoch = 0 ∧ 39 ≤ now) := by
  by_cases hsent : t.sentEpoch = 0
  · have htimeout := Tracker.getSendBlockTimeout_of_unsent hsent
    constructor
    · rintro ⟨_, hunsent⟩ ⟨hprepared, _, hlate⟩
      have hblocks : t.blockSend now = 1 := by
        rw [Tracker.blockSend_eq_one_iff, htimeout]
        exact ⟨hprepared, by decide, hlate⟩
      rw [(hunsent hsent).1] at hblocks
      cases hblocks
    · intro hwindow
      have hopen : t.blockSend now ≠ 1 := by
        rw [Ne, Tracker.blockSend_eq_one_iff, htimeout]
        exact fun hblocks => hwindow ⟨hblocks.1, hsent, hblocks.2.2⟩
      have hzero := Tracker.blockSend_eq_zero_of_ne_one hopen
      refine ⟨⟨fun hblocks => absurd hblocks hopen, fun hdue => absurd hsent hdue.2.1⟩, ?_⟩
      intro _
      refine ⟨hzero, Tracker.isSendHbTimeout_of_unsent hsent, ?_⟩
      intro skb
      rw [Tracker.hookFunc, if_pos hzero]
  · refine ⟨fun _ hwindow => hsent hwindow.2.1, fun _ => ⟨?_, fun hzero => absurd hzero hsent⟩⟩
    rw [Tracker.blockSend_eq_one_iff, Tracker.getSendBlockTimeout_of_sent hsent]
    exact ⟨fun hblocks => ⟨hblocks.1, hsent, hblocks.2⟩, fun hdue => ⟨hdue.1, hdue.2.2⟩⟩

/-- The base time and the interval are written; before any epoch is sent, the gate
is closed. -/
theorem configured_tracker_blocks :
    ¬ ∀ (ops : List TrackerOp) (r : TrackedRun) (outputs : List Int),
      runEvents trackerStep ⟨.initial, 0⟩ ops = .ok (r, outputs) →
        ∀ now : Int64, 0 < now → r.tracker.BlocksWhenDue now := by
  intro hproperty
  let ops : List TrackerOp :=
    [.baseTimeWrite ⟨[49, 48, 48], by decide, 0, []⟩,
      .timeoutIntervalWrite ⟨[57, 48], by decide, 0, []⟩]
  have hdue := hproperty ops _ _ rfl 1000 (by decide)
  exact absurd (hdue.2 (by decide)).1 (by decide)

end SafeTimer
