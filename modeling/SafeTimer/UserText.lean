/-
How a program reads a number from a file of the kernel: the kernel prints it into a
buffer with `snprintf`, `simple_read_from_buffer` copies the buffer out, and the program
takes a line or a word of it and calls `strtol`.
-/
import SafeTimer.CValues
import SafeTimer.KernelText

namespace SafeTimer

def isSpace (byte : UInt8) : Bool :=
  decide (byte = 32 ∨ 9 ≤ byte ∧ byte ≤ 13)

/-- A value that does not fit a `long` becomes the nearest one that does. -/
def clampLong (value : Int) : Int64 :=
  if value < -2 ^ 63 then Int64.minValue
  else if 2 ^ 63 ≤ value then Int64.maxValue
  else Int64.ofInt value

/-- `strtol` with base 10 on what stands in memory up to the first NUL: spaces, a sign,
digits, and anything behind them. -/
def strtol (memory : List UInt8) : Int64 :=
  match (memory.takeWhile (· ≠ 0)).dropWhile isSpace with
  | [] => 0
  | sign :: rest =>
      if sign = 45 then clampLong (-(digitsValue (rest.takeWhile isDigit) : Int))
      else if sign = 43 then clampLong (digitsValue (rest.takeWhile isDigit))
      else clampLong (digitsValue ((sign :: rest).takeWhile isDigit))

/-- `atoi` -/
def atoi (memory : List UInt8) : Int32 :=
  (strtol memory).toInt32

/-- `fgets` into an array of `size` characters: at most `size - 1` of them, up to the end
of the line. -/
def fgets (size : Nat) (content : List UInt8) : List UInt8 :=
  let line := content.take (size - 1)
  line.takeWhile (· ≠ 10) ++ (line.dropWhile (· ≠ 10)).take 1

/-- How much a stream asks for when it reads from such a file. -/
abbrev pageSize : Nat := 4096

/-- `simple_read_from_buffer` -/
def simpleReadFromBuffer {size : Nat} (buffer : TextBuffer size) (position count : Nat) :
    List UInt8 :=
  (buffer.bytes.drop position).take count

/-- `memset` with 0 and then `snprintf` with `%lu` into the first `limit` characters. -/
def snprintfUnsigned {size : Nat} (limit : Nat) (value : UInt64) (hlimit : limit ≤ size) :
    TextBuffer size :=
  ⟨(natText value.toNat).take (limit - 1) ++
      List.replicate (size - ((natText value.toNat).take (limit - 1)).length) 0, by
    have htext : ((natText value.toNat).take (limit - 1)).length ≤ size := by
      rw [List.length_take]
      omega
    rw [List.length_append, List.length_replicate]
    omega⟩

theorem digitsValue_pos_of_head {first : UInt8} {rest : List UInt8} (hdigit : isDigit first = true)
    (hfirst : first ≠ 48) : 0 < digitsValue (first :: rest) := by
  have hgrow : ∀ (digits : List UInt8) (res : Nat), 0 < res →
      0 < digits.foldl (fun res digit => res * 10 + (digit.toNat - 48)) res := by
    intro digits
    induction digits with
    | nil =>
        intro res hpos
        exact hpos
    | cons digit digits ih =>
        intro res hpos
        exact ih (res * 10 + (digit.toNat - 48)) (by omega)
  apply hgrow rest (0 * 10 + (first.toNat - 48))
  simp only [isDigit, decide_eq_true_eq, UInt8.le_iff_toNat_le] at hdigit
  have hne : first.toNat ≠ 48 := fun heq => hfirst (UInt8.toNat_inj.mp heq)
  have hlow : (48 : UInt8).toNat = 48 := rfl
  omega

/-- The text of a positive number does not start with a 0. -/
theorem exists_natText_eq_cons {value : Nat} (hpos : value ≠ 0) :
    ∃ first rest, natText value = first :: rest ∧ first ≠ 48 := by
  have hdigits : Nat.digits 10 value ≠ [] := Nat.digits_ne_nil_iff_ne_zero.mpr hpos
  have hlast := Nat.getLast_digit_ne_zero 10 hpos
  have hlt : (Nat.digits 10 value).getLast hdigits < 10 :=
    Nat.digits_lt_base (by decide) (List.getLast_mem hdigits)
  rw [natText, if_neg hpos]
  refine ⟨UInt8.ofNat (48 + (Nat.digits 10 value).getLast hdigits),
    ((Nat.digits 10 value).dropLast.map fun digit => UInt8.ofNat (48 + digit)).reverse, ?_, ?_⟩
  · nth_rewrite 1 [← List.dropLast_append_getLast hdigits]
    rw [List.map_append, List.reverse_append]
    rfl
  · intro hzero
    have hbyte : (UInt8.ofNat (48 + (Nat.digits 10 value).getLast hdigits)).toNat =
        48 + (Nat.digits 10 value).getLast hdigits :=
      UInt8.toNat_ofNat_of_lt (Nat.lt_trans (by omega) (by decide : 58 < UInt8.size))
    rw [hzero, show (48 : UInt8).toNat = 48 from rfl] at hbyte
    omega

theorem clampLong_eq_zero_iff {value : Nat} : clampLong value = 0 ↔ value = 0 := by
  rw [clampLong, if_neg (by omega)]
  split
  · rename_i hlarge
    exact iff_of_false (by decide) (by omega)
  · rename_i hsmall
    have hint : (Int64.ofInt value).toInt = value := by
      rw [Int64.toInt_ofInt]
      exact bmod_of_fits (by omega) (by omega)
    rw [← Int64.toInt_inj, hint, Int64.toInt_zero]
    exact Int.natCast_eq_zero

theorem isSpace_of_isDigit {byte : UInt8} (hdigit : isDigit byte = true) :
    isSpace byte = false := by
  simp only [isDigit, isSpace, decide_eq_true_eq, decide_eq_false_iff_not] at hdigit ⊢
  grind

/-- Digits that a NUL follows are read as their number. -/
theorem strtol_digits {digits behind : List UInt8} (hall : ∀ byte ∈ digits, isDigit byte = true)
    (hne : digits ≠ []) (hbehind : behind.takeWhile (· ≠ 0) = []) :
    strtol (digits ++ behind) = clampLong (digitsValue digits) := by
  have hnonzero : digits.takeWhile (· ≠ 0) = digits := by
    apply List.takeWhile_eq_self_iff.mpr
    intro byte hmem
    simpa using ne_zero_of_isDigit (hall byte hmem)
  have htext : (digits ++ behind).takeWhile (· ≠ 0) = digits := by
    rw [List.takeWhile_append, hnonzero, if_pos rfl, hbehind, List.append_nil]
  have htake : digits.takeWhile isDigit = digits := List.takeWhile_eq_self_iff.mpr hall
  cases hdigits : digits with
  | nil => exact absurd hdigits hne
  | cons first rest =>
      -- a digit is neither a space nor a sign
      have hfirst : isDigit first = true := hall first (hdigits ▸ List.mem_cons_self)
      have hspace : isSpace first = false := isSpace_of_isDigit hfirst
      have hminus : first ≠ 45 := by
        rintro rfl
        cases hfirst
      have hplus : first ≠ 43 := by
        rintro rfl
        cases hfirst
      rw [strtol, ← hdigits, htext, hdigits, List.dropWhile_cons_of_neg (by simp [hspace])]
      simp only [hminus, hplus, if_false, ← hdigits, htake]

/-- A number below `INT_MAX` is read back by `atoi`. -/
theorem atoi_natText {value : Nat} (hfits : value < 2 ^ 31) :
    atoi (natText value) = Int32.ofNat value := by
  have hstrtol : strtol (natText value) = clampLong value := by
    have hdigits : strtol (natText value ++ []) = clampLong (digitsValue (natText value)) :=
      strtol_digits (fun _ => isDigit_of_mem_natText) (natText_ne_nil value) rfl
    rwa [List.append_nil, digitsValue_natText] at hdigits
  rw [atoi, hstrtol, clampLong, if_neg (by omega), if_neg (by omega), ← Int32.toInt_inj,
    Int64.toInt_toInt32, Int64.toInt_ofInt, Int32.toInt_ofNat_of_lt hfits]
  have hlong : (value : Int).bmod Int64.size = value := bmod_of_fits (by omega) (by omega)
  rw [hlong]
  exact Int.bmod_eq_of_le (by omega) (by omega)

/-- A line without a newline is cut only by the size of the array. -/
theorem fgets_of_no_newline {content : List UInt8} (hline : 10 ∉ content) (size : Nat) :
    fgets size content = content.take (size - 1) := by
  have hall : ∀ byte ∈ content.take (size - 1), (decide (byte ≠ 10)) = true := by
    intro byte hmem
    simp only [decide_eq_true_eq]
    rintro rfl
    exact hline (List.mem_of_mem_take hmem)
  rw [fgets, List.takeWhile_eq_self_iff.mpr hall, List.dropWhile_eq_nil_iff.mpr hall,
    List.take_nil, List.append_nil]

/-- What a program gets that takes a line of the file into a cleared buffer and calls
`strtol`. -/
def readNumber (content : List UInt8) : UInt64 :=
  (strtol (fgets bufferSize content)).toUInt64

theorem digitsValue_take_eq_zero_iff {value count : Nat} (hcount : 0 < count) :
    digitsValue ((natText value).take count) = 0 ↔ value = 0 := by
  constructor
  · intro hzero
    by_contra hpos
    obtain ⟨first, rest, htext, hfirst⟩ := exists_natText_eq_cons hpos
    have hdigit : isDigit first = true :=
      isDigit_of_mem_natText (htext ▸ List.mem_cons_self)
    obtain ⟨count, rfl⟩ := Nat.exists_eq_succ_of_ne_zero (Nat.ne_of_gt hcount)
    rw [htext, List.take_succ_cons] at hzero
    exact Nat.ne_of_gt (digitsValue_pos_of_head hdigit hfirst) hzero
  · rintro rfl
    obtain ⟨count, rfl⟩ := Nat.exists_eq_succ_of_ne_zero (Nat.ne_of_gt hcount)
    rw [natText, if_pos rfl, List.take_succ_cons, List.take_nil]
    rfl

theorem toUInt64_eq_zero_iff {number : Int64} : number.toUInt64 = 0 ↔ number = 0 := by
  constructor
  · intro hzero
    cases number
    cases hzero
    rfl
  · rintro rfl
    rfl

/-- The line that a program takes of a printed number. -/
theorem fgets_snprintfUnsigned (value : UInt64) :
    fgets bufferSize (simpleReadFromBuffer
      (snprintfUnsigned 10 value (by decide) : TextBuffer bufferSize) 0 pageSize) =
      (natText value.toNat).take 9 ++
        List.replicate (19 - ((natText value.toNat).take 9).length) 0 := by
  have hlength : ((natText value.toNat).take 9).length ≤ 9 := by
    rw [List.length_take]
    omega
  have hline : (10 : UInt8) ∉ (natText value.toNat).take 9 ++
      List.replicate (20 - ((natText value.toNat).take 9).length) 0 := by
    rw [List.mem_append]
    rintro (hdigit | hzero)
    · exact absurd (isDigit_of_mem_natText (List.mem_of_mem_take hdigit)) (by decide)
    · exact absurd (List.eq_of_mem_replicate hzero) (by decide)
  have hwhole : simpleReadFromBuffer
      (snprintfUnsigned 10 value (by decide) : TextBuffer bufferSize) 0 pageSize =
      (natText value.toNat).take 9 ++
        List.replicate (20 - ((natText value.toNat).take 9).length) 0 := by
    rw [simpleReadFromBuffer, List.drop_zero]
    apply List.take_of_length_le
    rw [TextBuffer.length_eq]
    decide
  have hmin : bufferSize - 1 - ((natText value.toNat).take 9).length ≤
      20 - ((natText value.toNat).take 9).length := Nat.sub_le_sub_right (by decide) _
  rw [hwhole, fgets_of_no_newline hline, List.take_append,
    List.take_of_length_le (Nat.le_trans hlength (by decide)), List.take_replicate,
    Nat.min_eq_left hmin]
  rfl

/-- A number that is cut after its ninth digit still tells whether it was 0. -/
theorem readNumber_snprintfUnsigned (value : UInt64) :
    readNumber (simpleReadFromBuffer
      (snprintfUnsigned 10 value (by decide) : TextBuffer bufferSize) 0 pageSize) = 0 ↔
      value = 0 := by
  have hall : ∀ byte ∈ (natText value.toNat).take 9, isDigit byte = true :=
    fun byte hmem => isDigit_of_mem_natText (List.mem_of_mem_take hmem)
  have hne : (natText value.toNat).take 9 ≠ [] := by
    simp [natText_ne_nil]
  have hbehind (count : Nat) : (List.replicate count (0 : UInt8)).takeWhile (· ≠ 0) = [] := by
    cases count <;> rfl
  rw [readNumber, fgets_snprintfUnsigned, strtol_digits hall hne (hbehind _),
    toUInt64_eq_zero_iff, clampLong_eq_zero_iff, digitsValue_take_eq_zero_iff (by decide)]
  exact UInt64.toNat_inj (b := 0)

end SafeTimer
