/-
Little-endian words.  A number and the bytes it occupies in memory determine
each other as long as the number fits.
-/
import Mathlib.Algebra.Order.Ring.Nat

namespace SafeTimer

/-- The `width` bytes of a number, least significant first. -/
def leBytes : Nat → Nat → List UInt8
  | 0, _ => []
  | width + 1, value => UInt8.ofNat (value % 256) :: leBytes width (value / 256)

/-- The number whose bytes these are. -/
def ofLeBytes : List UInt8 → Nat
  | [] => 0
  | byte :: rest => byte.toNat + 256 * ofLeBytes rest

theorem leBytes_length (width value : Nat) : (leBytes width value).length = width := by
  induction width generalizing value with
  | zero => rfl
  | succ width ih => rw [leBytes, List.length_cons, ih]

theorem ofLeBytes_leBytes {width value : Nat} (hfits : value < 256 ^ width) :
    ofLeBytes (leBytes width value) = value := by
  induction width generalizing value with
  | zero =>
      rw [pow_zero, Nat.lt_one_iff] at hfits
      rw [hfits]
      rfl
  | succ width ih =>
      have hrest : value / 256 < 256 ^ width := by
        rw [pow_succ] at hfits
        omega
      have hbyte : (UInt8.ofNat (value % 256)).toNat = value % 256 :=
        UInt8.toNat_ofNat_of_lt (Nat.mod_lt value (by decide))
      rw [leBytes, ofLeBytes, ih hrest, hbyte]
      exact Nat.mod_add_div value 256

theorem ofLeBytes_lt (bytes : List UInt8) : ofLeBytes bytes < 256 ^ bytes.length := by
  induction bytes with
  | nil => decide
  | cons byte rest ih =>
      have hbyte := byte.toNat_lt
      rw [ofLeBytes, List.length_cons, pow_succ]
      omega

theorem leBytes_ofLeBytes (bytes : List UInt8) :
    leBytes bytes.length (ofLeBytes bytes) = bytes := by
  induction bytes with
  | nil => rfl
  | cons byte rest ih =>
      have hbyte : byte.toNat < 256 := byte.toNat_lt
      have hlow : (byte.toNat + 256 * ofLeBytes rest) % 256 = byte.toNat := by omega
      have hhigh : (byte.toNat + 256 * ofLeBytes rest) / 256 = ofLeBytes rest := by omega
      rw [List.length_cons, ofLeBytes, leBytes, hlow, hhigh, ih, UInt8.ofNat_toNat]

theorem leBytes_mod (width value : Nat) :
    leBytes width (value % 256 ^ width) = leBytes width value := by
  induction width generalizing value with
  | zero => rfl
  | succ width ih =>
      have hlow : value % 256 ^ (width + 1) % 256 = value % 256 :=
        Nat.mod_mod_of_dvd value (dvd_pow_self 256 (Nat.succ_ne_zero width))
      have hhigh : value % 256 ^ (width + 1) / 256 = value / 256 % 256 ^ width := by
        rw [pow_succ, Nat.mul_comm, Nat.mod_mul_right_div_self]
      rw [leBytes, leBytes, hlow, hhigh, ih]

theorem leBytes_take {width more : Nat} (hle : width ≤ more) (value : Nat) :
    (leBytes more value).take width = leBytes width value := by
  induction width generalizing more value with
  | zero => rfl
  | succ width ih =>
      obtain ⟨rest, rfl⟩ := Nat.exists_eq_add_of_le' hle
      rw [← Nat.add_assoc, leBytes, leBytes, List.take_succ_cons, ih (Nat.le_add_left width rest)]

/-- Numbers of one width are told apart by their bytes. -/
theorem leBytes_inj {width value value' : Nat} (hfits : value < 256 ^ width)
    (hfits' : value' < 256 ^ width) (hbytes : leBytes width value = leBytes width value') :
    value = value' := by
  rw [← ofLeBytes_leBytes hfits, hbytes, ofLeBytes_leBytes hfits']

end SafeTimer
