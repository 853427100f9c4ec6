/-
Numbers as text in a kernel buffer.  A write copies its bytes over the front of
a buffer that is never cleared, and the parser reads from the start of the buffer
to the first NUL, so that the bytes behind the written text matter.
-/
import Mathlib.Data.Nat.Digits.Lemmas
import Mathlib.Data.List.TakeWhile

namespace SafeTimer

def isDigit (byte : UInt8) : Bool :=
  decide (48 ≤ byte ∧ byte ≤ 57)

/-- The number of a list of decimal digits, most significant first. -/
def digitsValue (digits : List UInt8) : Nat :=
  digits.foldl (fun res digit => res * 10 + (digit.toNat - 48)) 0

/-- Digits, then at most one newline; the number has to fit 64 bits. -/
def parseUnsigned (text : List UInt8) : Option Nat :=
  let digits := text.takeWhile isDigit
  let rest := text.dropWhile isDigit
  if digits ≠ [] ∧ (rest = [] ∨ rest = [10]) ∧ digitsValue digits < 2 ^ 64 then
    some (digitsValue digits)
  else none

def parseNonneg (text : List UInt8) : Option Int64 :=
  (parseUnsigned text).bind fun value =>
    if value < 2 ^ 63 then some (Int64.ofInt value) else none

def parseNegative (text : List UInt8) : Option Int64 :=
  (parseUnsigned text).bind fun value =>
    if value ≤ 2 ^ 63 then some (Int64.ofInt (-value)) else none

/-- A text with an optional sign. -/
def parseSigned : List UInt8 → Option Int64
  | [] => none
  | sign :: rest =>
      if sign = 45 then parseNegative rest
      else if sign = 43 then parseNonneg rest
      else parseNonneg (sign :: rest)

/-- `kstrtol` with base 10: parse what stands in memory up to the first NUL.  The
list ends where a NUL follows it. -/
def kstrtol (memory : List UInt8) : Option Int64 :=
  parseSigned (memory.takeWhile (· ≠ 0))

/-- The bytes behind a text do not change the number it denotes: the text brings
its own NUL, or a NUL follows, or a newline and a NUL where the text has not
used up its newline. -/
def EndsText (text behind : List UInt8) : Prop :=
  0 ∈ text ∨ behind.takeWhile (· ≠ 0) = [] ∨
    (behind.takeWhile (· ≠ 0) = [10] ∧ text.getLast? ≠ some 10)

instance (text behind : List UInt8) : Decidable (EndsText text behind) :=
  inferInstanceAs (Decidable (_ ∨ _))

theorem parseUnsigned_isSome_iff {text : List UInt8} :
    (parseUnsigned text).isSome ↔
      text.takeWhile isDigit ≠ [] ∧
        (text.dropWhile isDigit = [] ∨ text.dropWhile isDigit = [10]) ∧
        digitsValue (text.takeWhile isDigit) < 2 ^ 64 := by
  simp only [parseUnsigned]
  split
  · rename_i hvalid
    simp only [Option.isSome_some, true_iff]
    exact hvalid
  · rename_i hinvalid
    simp only [Option.isSome_none, Bool.false_eq_true, false_iff]
    exact hinvalid

/-- A number without a newline may be followed by one. -/
theorem parseUnsigned_newline {text : List UInt8} (hvalid : (parseUnsigned text).isSome)
    (hlast : text.getLast? ≠ some 10) :
    parseUnsigned (text ++ [10]) = parseUnsigned text := by
  obtain ⟨_, hrest, _⟩ := parseUnsigned_isSome_iff.mp hvalid
  have hdigits : text.dropWhile isDigit = [] := by
    rcases hrest with hnil | hnewline
    · exact hnil
    · have hsplit := List.takeWhile_append_dropWhile (p := isDigit) (l := text)
      rw [hnewline] at hsplit
      rw [← hsplit] at hlast
      simp at hlast
  have hall : ∀ byte ∈ text, isDigit byte = true := List.dropWhile_eq_nil_iff.mp hdigits
  have htake : text.takeWhile isDigit = text := List.takeWhile_eq_self_iff.mpr hall
  have hnewline : isDigit 10 = false := by decide
  simp [parseUnsigned, List.takeWhile_append, List.dropWhile_append, htake, hdigits, hnewline]

theorem parseNonneg_newline {text : List UInt8} (hvalid : (parseNonneg text).isSome)
    (hlast : text.getLast? ≠ some 10) : parseNonneg (text ++ [10]) = parseNonneg text := by
  rw [parseNonneg, parseUnsigned_newline (Option.isSome_of_isSome_bind hvalid) hlast,
    parseNonneg]

theorem parseNegative_newline {text : List UInt8} (hvalid : (parseNegative text).isSome)
    (hlast : text.getLast? ≠ some 10) :
    parseNegative (text ++ [10]) = parseNegative text := by
  rw [parseNegative, parseUnsigned_newline (Option.isSome_of_isSome_bind hvalid) hlast,
    parseNegative]

theorem parseSigned_newline {text : List UInt8} (hvalid : (parseSigned text).isSome)
    (hlast : text.getLast? ≠ some 10) : parseSigned (text ++ [10]) = parseSigned text := by
  cases text with
  | nil => cases hvalid
  | cons sign rest =>
      have hrest : rest.getLast? ≠ some 10 := by
        intro hnewline
        apply hlast
        rw [List.getLast?_cons, hnewline]
        rfl
      rw [List.cons_append, parseSigned, parseSigned]
      rw [parseSigned] at hvalid
      by_cases hminus : sign = 45
      · rw [if_pos hminus] at hvalid ⊢
        rw [if_pos hminus]
        exact parseNegative_newline hvalid hrest
      · rw [if_neg hminus] at hvalid ⊢
        rw [if_neg hminus]
        by_cases hplus : sign = 43
        · rw [if_pos hplus] at hvalid ⊢
          rw [if_pos hplus]
          exact parseNonneg_newline hvalid hrest
        · rw [if_neg hplus] at hvalid ⊢
          rw [if_neg hplus]
          exact parseNonneg_newline hvalid hlast

/-- A text that denotes a number denotes it also with such bytes behind it. -/
theorem kstrtol_append {text behind : List UInt8} (hends : EndsText text behind)
    (hvalid : (kstrtol text).isSome) : kstrtol (text ++ behind) = kstrtol text := by
  rw [kstrtol] at hvalid
  rw [kstrtol, kstrtol, List.takeWhile_append]
  split
  · -- no NUL in the text
    rename_i hlength
    have hself : text.takeWhile (· ≠ 0) = text :=
      (List.takeWhile_prefix _).eq_of_length hlength
    rw [hself] at hvalid ⊢
    rcases hends with hnul | hnone | ⟨hnewline, hlast⟩
    · have hne := List.takeWhile_eq_self_iff.mp hself 0 hnul
      simp at hne
    · rw [hnone, List.append_nil]
    · rw [hnewline]
      exact parseSigned_newline hvalid hlast
  · rfl

/-- The decimal digits of a number, as `printf` writes them. -/
def natText (value : Nat) : List UInt8 :=
  if value = 0 then [48]
  else ((Nat.digits 10 value).map fun digit => UInt8.ofNat (48 + digit)).reverse

/-- The text of a `long` under `%ld`. -/
def longText (value : Int64) : List UInt8 :=
  if value < 0 then 45 :: natText value.toInt.natAbs else natText value.toInt.natAbs

theorem digitsValue_natText (value : Nat) : digitsValue (natText value) = value := by
  rw [natText]
  split
  · rename_i hzero
    rw [hzero]
    rfl
  · rw [digitsValue, List.foldl_reverse, List.foldr_map]
    nth_rewrite 2 [← Nat.ofDigits_digits 10 value]
    rw [Nat.ofDigits_eq_foldr]
    apply List.foldr_ext
    intro digit hdigit res
    have hlt := Nat.digits_lt_base (by decide) hdigit
    have hbyte : (UInt8.ofNat (48 + digit)).toNat = 48 + digit :=
      UInt8.toNat_ofNat_of_lt (Nat.lt_trans (by omega) (by decide : 58 < UInt8.size))
    rw [hbyte]
    simp only [Nat.cast_id]
    omega

theorem isDigit_of_mem_natText {value : Nat} {byte : UInt8} (hmem : byte ∈ natText value) :
    isDigit byte = true := by
  rw [natText] at hmem
  split at hmem
  · rw [List.mem_singleton.mp hmem]
    rfl
  · rw [List.mem_reverse, List.mem_map] at hmem
    obtain ⟨digit, hdigit, rfl⟩ := hmem
    have hlt := Nat.digits_lt_base (by decide) hdigit
    interval_cases digit <;> rfl

theorem natText_ne_nil (value : Nat) : natText value ≠ [] := by
  rw [natText]
  split
  · exact List.cons_ne_nil 48 []
  · rename_i hne
    simp [Nat.digits_ne_nil_iff_ne_zero.mpr hne]

theorem parseUnsigned_natText {value : Nat} (hfits : value < 2 ^ 64) :
    parseUnsigned (natText value) = some value := by
  have hall : ∀ byte ∈ natText value, isDigit byte = true :=
    fun byte hmem => isDigit_of_mem_natText hmem
  have htake : (natText value).takeWhile isDigit = natText value :=
    List.takeWhile_eq_self_iff.mpr hall
  have hdrop : (natText value).dropWhile isDigit = [] := List.dropWhile_eq_nil_iff.mpr hall
  simp only [parseUnsigned, htake, hdrop, digitsValue_natText]
  exact if_pos ⟨natText_ne_nil value, Or.inl trivial, hfits⟩

theorem ne_zero_of_isDigit {byte : UInt8} (hdigit : isDigit byte = true) : byte ≠ 0 := by
  intro hzero
  rw [hzero] at hdigit
  cases hdigit

theorem zero_not_mem_longText (value : Int64) : 0 ∉ longText value := by
  intro hmem
  rw [longText] at hmem
  split at hmem
  · rcases List.mem_cons.mp hmem with hsign | hdigit
    · cases hsign
    · exact ne_zero_of_isDigit (isDigit_of_mem_natText hdigit) rfl
  · exact ne_zero_of_isDigit (isDigit_of_mem_natText hmem) rfl

theorem parseSigned_natText {value : Nat} (hfits : value < 2 ^ 63) :
    parseSigned (natText value) = some (Int64.ofInt value) := by
  have hparse : parseNonneg (natText value) = some (Int64.ofInt value) := by
    rw [parseNonneg, parseUnsigned_natText (Nat.lt_trans hfits (by decide)),
      Option.bind_some, if_pos hfits]
  cases htext : natText value with
  | nil => exact absurd htext (natText_ne_nil value)
  | cons first rest =>
      -- a digit is no sign
      have hdigit : isDigit first = true :=
        isDigit_of_mem_natText (htext ▸ List.mem_cons_self)
      have hminus : first ≠ 45 := by
        intro hsign
        rw [hsign] at hdigit
        cases hdigit
      have hplus : first ≠ 43 := by
        intro hsign
        rw [hsign] at hdigit
        cases hdigit
      rw [parseSigned, if_neg hminus, if_neg hplus, ← htext, hparse]

/-- What `%ld` prints is read back by `kstrtol`. -/
theorem kstrtol_longText (value : Int64) : kstrtol (longText value) = some value := by
  have hself : (longText value).takeWhile (· ≠ 0) = longText value := by
    apply List.takeWhile_eq_self_iff.mpr
    intro byte hmem
    simp only [ne_eq, decide_not, Bool.not_eq_true', decide_eq_false_iff_not]
    exact fun hzero => zero_not_mem_longText value (hzero ▸ hmem)
  have hlow := value.le_toInt
  have hhigh := value.toInt_lt
  rw [kstrtol, hself, longText]
  split
  · rename_i hneg
    rw [Int64.lt_iff_toInt_lt] at hneg
    have habs : (-(value.toInt.natAbs : Int)) = value.toInt := by
      simp only [Int64.toInt_zero] at hneg
      omega
    have hle : value.toInt.natAbs ≤ 2 ^ 63 := by omega
    rw [parseSigned, if_pos rfl, parseNegative, parseUnsigned_natText (by omega),
      Option.bind_some, if_pos hle, habs, Int64.ofInt_toInt]
  · rename_i hnonneg
    rw [Int64.lt_iff_toInt_lt, Int64.toInt_zero] at hnonneg
    have habs : (value.toInt.natAbs : Int) = value.toInt := by omega
    rw [parseSigned_natText (by omega), habs, Int64.ofInt_toInt]

theorem natText_length (value : Nat) :
    (natText value).length = max 1 (Nat.digits 10 value).length := by
  rw [natText]
  split
  · rename_i hzero
    rw [hzero]
    rfl
  · rename_i hne
    have hpos : 0 < (Nat.digits 10 value).length :=
      List.length_pos_of_ne_nil (Nat.digits_ne_nil_iff_ne_zero.mpr hne)
    rw [List.length_reverse, List.length_map]
    omega

theorem natText_length_le {value width : Nat} (hwidth : 0 < width)
    (hfits : value < 10 ^ width) : (natText value).length ≤ width := by
  have hdigits := (Nat.digits_length_le_iff (by decide : 1 < 10) value).mpr hfits
  rw [natText_length]
  omega

theorem longText_length_le (value : Int64) : (longText value).length ≤ 20 := by
  have hlow := value.le_toInt
  have hhigh := value.toInt_lt
  have hdigits : (natText value.toInt.natAbs).length ≤ 19 :=
    natText_length_le (by decide) (by omega)
  rw [longText]
  split
  · rw [List.length_cons]
    omega
  · omega

theorem longText_of_nonneg {value : Int64} (hnonneg : 0 ≤ value) :
    longText value = natText value.toInt.natAbs := by
  rw [longText, if_neg (Int64.not_lt.mpr hnonneg)]

/-- The text of a number leaves room for its NUL in 20 bytes, unless it is a negative number
of 19 digits. -/
theorem longText_length_lt_iff (value : Int64) :
    (longText value).length < 20 ↔ -10 ^ 18 < value.toInt := by
  have hhigh := value.toInt_lt
  rw [longText]
  split
  · rename_i hnegative
    rw [Int64.lt_iff_toInt_lt, Int64.toInt_zero] at hnegative
    have hdigits := Nat.digits_length_le_iff (by decide : 1 < 10) (k := 18) value.toInt.natAbs
    rw [List.length_cons, natText_length]
    omega
  · rename_i hnonneg
    rw [Int64.lt_iff_toInt_lt, Int64.toInt_zero] at hnonneg
    have hdigits : (natText value.toInt.natAbs).length ≤ 19 :=
      natText_length_le (by decide) (by omega)
    omega

theorem longText_length_lt {value : Int64} (hnonneg : 0 ≤ value) :
    (longText value).length < 20 := by
  rw [Int64.le_iff_toInt_le, Int64.toInt_zero] at hnonneg
  exact (longText_length_lt_iff value).mpr (by omega)

/-- The text of a larger number is not shorter. -/
theorem longText_length_mono {value value' : Int64} (hnonneg : 0 ≤ value)
    (hle : value ≤ value') : (longText value).length ≤ (longText value').length := by
  have hlow := Int64.le_iff_toInt_le.mp hnonneg
  have hint := Int64.le_iff_toInt_le.mp hle
  rw [Int64.toInt_zero] at hlow
  rw [longText_of_nonneg hnonneg, longText_of_nonneg (Int64.le_trans hnonneg hle),
    natText_length, natText_length]
  have hdigits := Nat.le_length_digits_le 10 value.toInt.natAbs value'.toInt.natAbs (by omega)
  omega

/-- A character array of a fixed size. -/
structure TextBuffer (size : Nat) where
  bytes : List UInt8
  length_eq : bytes.length = size
deriving DecidableEq

/-- After `memset` with 0. -/
def TextBuffer.zeroed (size : Nat) : TextBuffer size :=
  ⟨List.replicate size 0, List.length_replicate⟩

/-- `simple_write_to_buffer`: copy what fits from the position on and leave the
other bytes as they are.  The number of copied bytes is returned. -/
def simpleWriteToBuffer {size : Nat} (buffer : TextBuffer size) (position : Nat)
    (text : List UInt8) : TextBuffer size × Nat :=
  let copied := text.take (size - position)
  (⟨buffer.bytes.take position ++ copied ++ buffer.bytes.drop (position + copied.length), by
      have hsize := buffer.length_eq
      simp only [List.length_append, List.length_take, List.length_drop, copied]
      omega⟩, copied.length)

theorem simpleWriteToBuffer_bytes {size : Nat} (buffer : TextBuffer size)
    {text : List UInt8} (hfits : text.length ≤ size) :
    (simpleWriteToBuffer buffer 0 text).1.bytes =
      text ++ buffer.bytes.drop text.length := by
  simp [simpleWriteToBuffer, List.take_of_length_le hfits]

/-- The write operation of a file that holds a `long` as text.  A text that is too
long is refused with `EINVAL`; otherwise the number is parsed from the buffer, and
`unparsed` is what the variable receives when the parse fails.  The bytes of
`behind` follow the buffer in memory up to the next NUL. -/
def writeLong {size : Nat} (buffer : TextBuffer size) (old unparsed : Int64)
    (position : Nat) (text behind : List UInt8) : TextBuffer size × Int64 × Int :=
  if text.length > size then (buffer, old, -22)
  else
    let (buffer, ret) := simpleWriteToBuffer buffer position text
    (buffer, (kstrtol (buffer.bytes ++ behind)).getD unparsed, ret)

/-- A write from a fresh open that is not refused, with what the kernel happens to
find in an uninitialised variable and behind the buffer. -/
structure TextWrite (size : Nat) where
  text : List UInt8
  text_le : text.length ≤ size
  garbage : Int64
  behind : List UInt8

/-- Written over the buffer, the text is a number that ends where the text ends. -/
def TextWrite.EndsIn {size : Nat} (w : TextWrite size) (buffer : TextBuffer size) : Prop :=
  EndsText w.text (buffer.bytes.drop w.text.length ++ w.behind)

instance {size : Nat} (w : TextWrite size) (buffer : TextBuffer size) :
    Decidable (w.EndsIn buffer) :=
  inferInstanceAs (Decidable (EndsText _ _))

/-- The number that is read from the buffer is that of the text. -/
theorem TextWrite.EndsIn.kstrtol_eq {size : Nat} {w : TextWrite size}
    {buffer : TextBuffer size} (hends : w.EndsIn buffer) {value : Int64}
    (hvalue : kstrtol w.text = some value) :
    kstrtol ((simpleWriteToBuffer buffer 0 w.text).1.bytes ++ w.behind) = some value := by
  rw [simpleWriteToBuffer_bytes buffer w.text_le, List.append_assoc,
    kstrtol_append hends (by rw [hvalue]; rfl), hvalue]

theorem writeLong_of_endsIn {size : Nat} {buffer : TextBuffer size} {w : TextWrite size}
    {value : Int64} (hvalue : kstrtol w.text = some value) (hends : w.EndsIn buffer)
    (old unparsed : Int64) :
    (writeLong buffer old unparsed 0 w.text w.behind).2.1 = value := by
  rw [writeLong, if_neg (Nat.not_lt.mpr w.text_le)]
  simp only [hends.kstrtol_eq hvalue, Option.getD_some]

end SafeTimer
