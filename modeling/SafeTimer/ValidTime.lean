/-
The files of st_debugfs (kmodule/send/hb_sender_tracker_opt/st_debugfs): the time
until which sending is valid, and the pid of the process to be signalled.  Both
are written as decimal text.
-/
import SafeTimer.CValues
import SafeTimer.EventRun
import SafeTimer.KernelText

namespace SafeTimer

/-- The variables of st_debugfs.c. -/
structure StDebugfs where
  stValidTime : Int64
  stValidTimeStr : TextBuffer bufferSize
  stPid : Int64
  stPidStr : TextBuffer bufferSize

/-- `st_valid_time_write`.  The number is parsed into the local variable
`_st_valid_time`, which is not initialised and is stored in any case: `garbage` is
what it holds when the parse fails. -/
def stValidTimeWrite (s : StDebugfs) (position : Nat) (userBuffer : List UInt8)
    (garbage : Int64) (behind : List UInt8) : StDebugfs × Int :=
  let (str, value, ret) :=
    writeLong s.stValidTimeStr s.stValidTime garbage position userBuffer behind
  ({ s with stValidTime := value, stValidTimeStr := str }, ret)

/-- `st_pid_write`, which parses into `st_pid` itself. -/
def stPidWrite (s : StDebugfs) (position : Nat) (userBuffer behind : List UInt8) :
    StDebugfs × Int :=
  let (str, value, ret) := writeLong s.stPidStr s.stPid s.stPid position userBuffer behind
  ({ s with stPid := value, stPidStr := str }, ret)

/-- `set_to_zero`, the write operation of the file clear. -/
def StDebugfs.setToZero (_ : StDebugfs) : StDebugfs :=
  ⟨0, .zeroed bufferSize, 0, .zeroed bufferSize⟩

def validTimeStep (s : StDebugfs) (w : TextWrite bufferSize) : Except Fault (StDebugfs × Int) :=
  .ok (stValidTimeWrite s 0 w.text w.garbage w.behind)

/-- After each write the valid time is the number of that write's own text; a text
that is no number leaves it as it was. -/
def MeansLastWritten (s : StDebugfs) (writes : List (TextWrite bufferSize)) : Prop :=
  ∀ pre w before outputs, Occurs writes pre w →
    runEvents validTimeStep s.setToZero pre = .ok (before, outputs) →
    (stValidTimeWrite before 0 w.text w.garbage w.behind).1.stValidTime =
      (kstrtol w.text).getD before.stValidTime

/-- Every write finds the buffer such that its number ends with its text. -/
def WritesEndTheirText (s : StDebugfs) (writes : List (TextWrite bufferSize)) : Prop :=
  EveryStep validTimeStep
    (fun _ before w => (kstrtol w.text).isSome ∧ w.EndsIn before.stValidTimeStr)
    s.setToZero writes

theorem stValidTimeWrite_of_endsIn {s : StDebugfs} {w : TextWrite bufferSize} {value : Int64}
    (hvalue : kstrtol w.text = some value) (hends : w.EndsIn s.stValidTimeStr) :
    (stValidTimeWrite s 0 w.text w.garbage w.behind).1.stValidTime = value :=
  writeLong_of_endsIn hvalue hends s.stValidTime w.garbage

/-- As long as each text is a number that ends in the buffer where the text does,
no earlier write shows. -/
theorem meansLastWritten_of_writesEndTheirText (s : StDebugfs)
    (writes : List (TextWrite bufferSize)) (hwrites : WritesEndTheirText s writes) :
    MeansLastWritten s writes := by
  intro pre w before outputs hoccurs hrun
  obtain ⟨post, hsplit⟩ := hoccurs
  obtain ⟨hvalid, hends⟩ := hwrites pre w post before outputs hsplit hrun
  obtain ⟨value, hvalue⟩ := Option.isSome_iff_exists.mp hvalid
  rw [hvalue, Option.getD_some]
  exact stValidTimeWrite_of_endsIn hvalue hends

theorem stValidTimeWrite_bytes (s : StDebugfs) (w : TextWrite bufferSize) :
    (stValidTimeWrite s 0 w.text w.garbage w.behind).1.stValidTimeStr.bytes =
      w.text ++ s.stValidTimeStr.bytes.drop w.text.length := by
  have hfits : ¬ w.text.length > bufferSize := Nat.not_lt.mpr w.text_le
  simp only [stValidTimeWrite, writeLong, if_neg hfits]
  exact simpleWriteToBuffer_bytes s.stValidTimeStr w.text_le

/-- Behind the longest text written so far the buffer is still zeroed. -/
theorem validTime_drop_eq_zeros {s before : StDebugfs} {writes : List (TextWrite bufferSize)}
    {outputs : List Int}
    (hrun : runEvents validTimeStep s.setToZero writes = .ok (before, outputs))
    (longest : Nat) (hlongest : ∀ w ∈ writes, w.text.length ≤ longest) :
    before.stValidTimeStr.bytes.drop longest = List.replicate (bufferSize - longest) 0 := by
  refine runEvents_invariant (fun pre state _ => (∀ w ∈ pre, w.text.length ≤ longest) →
    state.stValidTimeStr.bytes.drop longest = List.replicate (bufferSize - longest) 0)
    ?_ ?_ hrun hlongest
  · intro _
    simp [StDebugfs.setToZero, TextBuffer.zeroed]
  · intro pre state early w next output _ hinv hstep hle
    have hw : w.text.length ≤ longest := hle w (by simp)
    simp only [validTimeStep, Except.ok.injEq] at hstep
    have hnext : (stValidTimeWrite state 0 w.text w.garbage w.behind).1 = next := by
      rw [hstep]
    rw [← hnext, stValidTimeWrite_bytes, List.drop_append, List.drop_eq_nil_of_le hw,
      List.nil_append, List.drop_drop, Nat.add_sub_cancel' hw]
    apply hinv
    intro w' hmem
    exact hle w' (List.mem_append_left _ hmem)

/-- Numbers whose texts do not get shorter, and leave room for a NUL, are all read
as they were written. -/
theorem writesEndTheirText_of_growing (s : StDebugfs) {writes : List (TextWrite bufferSize)}
    (hvalid : ∀ w ∈ writes, (kstrtol w.text).isSome)
    (hroom : ∀ w ∈ writes, w.text.length < bufferSize)
    (hgrowing : writes.Pairwise fun w w' => w.text.length ≤ w'.text.length) :
    WritesEndTheirText s writes := by
  intro pre w post before outputs hsplit hrun
  subst hsplit
  have hw : w ∈ pre ++ w :: post := by simp
  refine ⟨hvalid w hw, Or.inr (Or.inl ?_)⟩
  have hlongest : ∀ w' ∈ pre, w'.text.length ≤ w.text.length := fun w' hmem =>
    (List.pairwise_append.mp hgrowing).2.2 w' hmem w List.mem_cons_self
  rw [validTime_drop_eq_zeros hrun w.text.length hlongest]
  have hpos : bufferSize - w.text.length = (bufferSize - w.text.length - 1) + 1 := by
    have hlt := hroom w hw
    omega
  rw [hpos, List.replicate_succ]
  rfl

/-- Two times of growing length. -/
theorem meansLastWritten_growing :
    let s : StDebugfs := ⟨0, .zeroed bufferSize, 0, .zeroed bufferSize⟩
    let writes : List (TextWrite bufferSize) :=
      [⟨[57, 57], by decide, 7, [1]⟩, ⟨[49, 50, 51, 52, 53], by decide, 7, [1]⟩]
    WritesEndTheirText s writes ∧ MeansLastWritten s writes := by
  intro s writes
  have hwrites : WritesEndTheirText s writes :=
    writesEndTheirText_of_growing s (by decide) (by decide) (by decide)
  exact ⟨hwrites, meansLastWritten_of_writesEndTheirText s writes hwrites⟩

/-- The text 99 over the text 12345 leaves 99345 in the buffer, and that is the
valid time then set. -/
theorem shorter_write_keeps_old_digits :
    ¬ ∀ (s : StDebugfs) (writes : List (TextWrite bufferSize)), MeansLastWritten s writes := by
  intro hproperty
  let s : StDebugfs := ⟨0, .zeroed bufferSize, 0, .zeroed bufferSize⟩
  let first : TextWrite bufferSize := ⟨[49, 50, 51, 52, 53], by decide, 0, []⟩
  let second : TextWrite bufferSize := ⟨[57, 57], by decide, 0, []⟩
  have hmeans := hproperty s [first, second] [first] second _ _ ⟨[], rfl⟩ rfl
  exact absurd hmeans (by decide)

/-- How `safetimer_update_valid_time` goes wrong. -/
inductive UpdateFault where
  /-- `sprintf` writes behind `buffer` -/
  | overrun
  /-- `fputs` to the null pointer that `fopen` has returned -/
  | nullFile
deriving DecidableEq

/-- What a call meets: whether the file can be opened, what the local variable of
`st_valid_time_write` holds and what lies behind its buffer. -/
structure ValidTimeFile where
  opened : Bool
  garbage : Int64
  behind : List UInt8

/-- `safetimer_update_valid_time` down to the variables of the kernel module.  The decimal
text of `t` is put into `char buffer[20]` with its NUL, and written without it. -/
def safetimerUpdateValidTime (s : StDebugfs) (t : Int64) (file : ValidTimeFile) :
    Except UpdateFault StDebugfs :=
  if 20 < (longText t).length + 1 then .error .overrun
  else if file.opened then .ok (stValidTimeWrite s 0 (longText t) file.garbage file.behind).1
  else .error .nullFile

/-- A call returns unless its number is too long or the file cannot be opened. -/
theorem exists_safetimerUpdateValidTime_eq_ok {s : StDebugfs} {t : Int64} {file : ValidTimeFile} :
    (∃ s', safetimerUpdateValidTime s t file = .ok s') ↔
      -10 ^ 18 < t.toInt ∧ file.opened = true := by
  rw [safetimerUpdateValidTime, ← longText_length_lt_iff]
  by_cases hlong : 20 < (longText t).length + 1
  · simp only [if_pos hlong, reduceCtorEq, exists_false, false_iff]
    omega
  · have hlt : (longText t).length < 20 := by omega
    simp only [if_neg hlong, hlt, true_and]
    cases file.opened <;> simp

theorem safetimerUpdateValidTime_eq_ok {s s' : StDebugfs} {t : Int64} {file : ValidTimeFile}
    (hupdate : safetimerUpdateValidTime s t file = .ok s') :
    s' = (stValidTimeWrite s 0 (longText t) file.garbage file.behind).1 := by
  rw [safetimerUpdateValidTime] at hupdate
  split at hupdate
  · cases hupdate
  · split at hupdate
    · cases hupdate
      rfl
    · cases hupdate

/-- The text of a number as `st_valid_time_write` gets it. -/
def validTimeText (t garbage : Int64) (behind : List UInt8) : TextWrite bufferSize :=
  ⟨longText t, longText_length_le t, garbage, behind⟩

/-- Bytes behind the text of a write stay as they are. -/
theorem stValidTimeWrite_drop (s : StDebugfs) (w : TextWrite bufferSize) {longest : Nat}
    (hle : w.text.length ≤ longest) :
    (stValidTimeWrite s 0 w.text w.garbage w.behind).1.stValidTimeStr.bytes.drop longest =
      s.stValidTimeStr.bytes.drop longest := by
  rw [stValidTimeWrite_bytes, List.drop_append, List.drop_eq_nil_of_le hle, List.nil_append,
    List.drop_drop, Nat.add_sub_cancel' hle]

/-- The buffer is zeroed behind the longest of the texts that have been written. -/
def StDebugfs.ZeroedBehind (s : StDebugfs) (times : List Int64) : Prop :=
  ∀ longest, (∀ t ∈ times, (longText t).length ≤ longest) →
    s.stValidTimeStr.bytes.drop longest = List.replicate (bufferSize - longest) 0

theorem StDebugfs.zeroedBehind_of_zeroed {s : StDebugfs} (times : List Int64)
    (hzeroed : s.stValidTimeStr = .zeroed bufferSize) : s.ZeroedBehind times := by
  intro longest _
  rw [hzeroed]
  simp [TextBuffer.zeroed]

theorem StDebugfs.ZeroedBehind.write {s : StDebugfs} {times : List Int64}
    (hzeroed : s.ZeroedBehind times) (t garbage : Int64) (behind : List UInt8) :
    (stValidTimeWrite s 0 (longText t) garbage behind).1.ZeroedBehind (times ++ [t]) := by
  intro longest hlongest
  have ht : (longText t).length ≤ longest := hlongest t (by simp)
  have hdrop : (stValidTimeWrite s 0 (longText t) garbage behind).1.stValidTimeStr.bytes.drop
      longest = s.stValidTimeStr.bytes.drop longest :=
    stValidTimeWrite_drop s (validTimeText t garbage behind) ht
  rw [hdrop]
  apply hzeroed
  intro t' hmem
  exact hlongest t' (List.mem_append_left _ hmem)

/-- A time whose text is at least as long as those before is read as it was written. -/
theorem StDebugfs.ZeroedBehind.stValidTime_eq {s : StDebugfs} {times : List Int64}
    (hzeroed : s.ZeroedBehind times) {t : Int64} (hnonneg : 0 ≤ t)
    (hgrowing : ∀ t' ∈ times, (longText t').length ≤ (longText t).length) (garbage : Int64)
    (behind : List UInt8) :
    (stValidTimeWrite s 0 (longText t) garbage behind).1.stValidTime = t := by
  let w := validTimeText t garbage behind
  have hroom : (longText t).length < bufferSize := longText_length_lt hnonneg
  have hends : w.EndsIn s.stValidTimeStr := by
    right
    left
    change (s.stValidTimeStr.bytes.drop (longText t).length ++ behind).takeWhile _ = []
    rw [hzeroed _ hgrowing]
    obtain ⟨rest, hrest⟩ := Nat.exists_eq_succ_of_ne_zero (Nat.sub_ne_zero_of_lt hroom)
    rw [hrest, List.replicate_succ]
    rfl
  exact stValidTimeWrite_of_endsIn (w := w) (kstrtol_longText t) hends

/-- A number and what its write meets. -/
structure Update where
  t : Int64
  garbage : Int64
  behind : List UInt8

def Update.write (update : Update) : TextWrite bufferSize :=
  validTimeText update.t update.garbage update.behind

/-- An application that only ever extends the valid time gets the time it asks
for: after each update the kernel holds exactly `t`. -/
theorem stValidTime_eq_of_extending (s : StDebugfs) (updates : List Update)
    (hnonneg : ∀ update ∈ updates, 0 ≤ update.t)
    (hextending : updates.Pairwise fun update update' => update.t ≤ update'.t)
    {pre : List Update} {update : Update} (hoccurs : Occurs updates pre update)
    {before : StDebugfs} {outputs : List Int}
    (hrun : runEvents validTimeStep s.setToZero (pre.map Update.write) =
      .ok (before, outputs)) :
    (stValidTimeWrite before 0 update.write.text update.garbage update.behind).1.stValidTime =
      update.t := by
  have hwrites : WritesEndTheirText s (updates.map Update.write) := by
    apply writesEndTheirText_of_growing
    · intro w hmem
      obtain ⟨update', _, rfl⟩ := List.mem_map.mp hmem
      rw [Update.write, validTimeText, kstrtol_longText]
      rfl
    · intro w hmem
      obtain ⟨update', hmem', rfl⟩ := List.mem_map.mp hmem
      exact longText_length_lt (hnonneg update' hmem')
    · rw [List.pairwise_map]
      apply hextending.imp_of_mem
      intro first second hfirst _ hle
      exact longText_length_mono (hnonneg first hfirst) hle
  obtain ⟨post, rfl⟩ := hoccurs
  have hends := (hwrites (pre.map Update.write) update.write (post.map Update.write) before
    outputs (by simp) hrun).2
  exact stValidTimeWrite_of_endsIn (w := update.write) (kstrtol_longText update.t) hends

/-- `init_st_sender_api` writes the pid with its terminating NUL, so that what the
buffer held before never matters. -/
theorem stPidWrite_terminated (s : StDebugfs) {pid : Int64} (hpid : 0 ≤ pid)
    (behind : List UInt8) :
    (stPidWrite s 0 (longText pid ++ [0]) behind).1.stPid = pid := by
  have hfits : (longText pid ++ [0]).length ≤ bufferSize := by
    rw [List.length_append, List.length_singleton]
    exact longText_length_lt hpid
  let w : TextWrite bufferSize := ⟨longText pid ++ [0], hfits, s.stPid, behind⟩
  have hvalue : kstrtol w.text = some pid := by
    rw [kstrtol_append (Or.inr (Or.inl rfl)) (by rw [kstrtol_longText]; rfl), kstrtol_longText]
  have hends : w.EndsIn s.stPidStr := Or.inl (by simp [w])
  exact writeLong_of_endsIn hvalue hends s.stPid s.stPid

end SafeTimer
