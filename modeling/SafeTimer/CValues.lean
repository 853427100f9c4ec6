/-
The C values the programs exchange: longs as they lie in memory, strings, and
the ways in which an execution leaves the language.
-/
import SafeTimer.ByteWords

namespace SafeTimer

/-- The points where the C code leaves defined behaviour. -/
inductive Fault where
  /-- a packet byte behind the payload is read -/
  | packetRead
  /-- `received_barrier_msg_array` is accessed out of its bounds -/
  | arrayAccess
  /-- `array_round ++` overflows an `int` -/
  | intOverflow
  /-- a pointer to no allocated table is followed -/
  | badPointer
deriving DecidableEq, Repr

/-- `HB_SERVER_PORT`, the port of the heartbeat server. -/
def hbServerPort : UInt16 := 5001

inductive Protocol where
  | tcp
  | udp
  | other
deriving DecidableEq

/-- What the kernel modules look at in every packet. -/
structure Skb where
  protocol : Protocol
  dport : UInt16
deriving DecidableEq

/-- The heartbeat datagrams, as the probes and the hooks recognise them. -/
def Skb.IsHeartbeat (skb : Skb) : Prop :=
  skb.protocol = .udp ∧ skb.dport = hbServerPort

instance (skb : Skb) : Decidable skb.IsHeartbeat :=
  inferInstanceAs (Decidable (_ ∧ _))

/-- `NF_ACCEPT` and `NF_DROP` -/
inductive Verdict where
  | accept
  | drop
deriving DecidableEq

/-- `BUFFERSIZE` of the debugfs modules. -/
abbrev bufferSize : Nat := 20

/-- The eight bytes of a `long` on a little-endian host. -/
def longBytes (value : Int64) : List UInt8 :=
  leBytes 8 value.toBitVec.toNat

theorem longBytes_length (value : Int64) : (longBytes value).length = 8 :=
  leBytes_length 8 _

theorem longBytes_injective : Function.Injective longBytes := by
  intro value value' hbytes
  apply Int64.toBitVec.inj
  apply BitVec.eq_of_toNat_eq
  exact leBytes_inj value.toBitVec.isLt value'.toBitVec.isLt hbytes

theorem bmod_of_fits {value : Int} (hlow : -2 ^ 63 ≤ value) (hhigh : value < 2 ^ 63) :
    value.bmod (2 ^ 64) = value :=
  Int.bmod_eq_of_le (by omega) (by omega)

/-- A signed result; `none` is an overflow. -/
def longOf (value : Int) : Option Int64 :=
  if -2 ^ 63 ≤ value ∧ value < 2 ^ 63 then some (Int64.ofInt value) else none

theorem toInt_of_longOf {value : Int} {result : Int64} (hresult : longOf value = some result) :
    result.toInt = value := by
  rw [longOf] at hresult
  split at hresult
  · rename_i hfits
    cases hresult
    rw [Int64.toInt_ofInt]
    exact bmod_of_fits hfits.1 hfits.2
  · cases hresult

theorem toInt_one : (1 : Int64).toInt = 1 := rfl

theorem toInt_add_one {value : Int64} (hfits : value ≠ Int64.maxValue) :
    (value + 1).toInt = value.toInt + 1 := by
  have hlow := Int64.le_toInt value
  have hhigh := Int64.toInt_lt value
  have hmax : value.toInt ≠ 2 ^ 63 - 1 := fun heq => hfits (Int64.toInt_inj.mp heq)
  rw [Int64.toInt_add, toInt_one]
  exact bmod_of_fits (by omega) (by omega)

theorem add_one_le_iff {value bound : Int64} (hfits : value ≠ Int64.maxValue) :
    value + 1 ≤ bound ↔ value < bound := by
  rw [Int64.le_iff_toInt_le, toInt_add_one hfits, Int64.lt_iff_toInt_lt]
  exact Int.add_one_le_iff

theorem le_add_one_of_le {value bound : Int64} (hfits : bound ≠ Int64.maxValue)
    (hle : value ≤ bound) : value ≤ bound + 1 := by
  rw [Int64.le_iff_toInt_le] at hle ⊢
  rw [toInt_add_one hfits]
  omega

/-- A string without its terminating NUL; `strlen` is the number of its bytes. -/
structure CString where
  bytes : List UInt8
  no_nul : (0 : UInt8) ∉ bytes
deriving DecidableEq

theorem CString.bytes_injective : Function.Injective CString.bytes := by
  intro text text' hbytes
  cases text
  cases text'
  cases hbytes
  rfl

end SafeTimer
