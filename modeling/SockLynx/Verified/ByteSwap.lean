import SockLynx.Lib.ByteOrder
import SockLynx.Model.Endian

/-!
# `HtoN` and `NtoH` reverse bytes

The three widths are written in three ways: a sum of promoted shifts, two
masked rotations joined by a sum, and two swaps of half the width.  Each is
computed as a number from the digits to base 256; no sum carries, since its
terms share no digit.  The signed overloads are the unsigned ones through a
cast.

## Main results

* `toNat_htoNUshort`, `toNat_htoNUint`, `toNat_htoNUlong` — the swapped number.
* `htoN_swaps` — at every width and for both signs `HtoN` reverses the bytes
  and `NtoH` undoes it.
-/

namespace SockLynx.Util

open SockLynx.Lib.ByteOrder

/-! ## 16 bits -/

/-- An `int` promoted from `ushort` has no sign bit, so that the arithmetic
shift is the logical one. -/
theorem promoted_shiftRight (input : UInt16) :
    (input.toUInt32.toInt32 >>> 8).toUInt32 = input.toUInt32 >>> 8 := by
  have hmsb : input.toUInt32.toBitVec.msb = false := by
    have hlt := input.toNat_lt
    rw [BitVec.msb_eq_false_iff_two_mul_lt]
    show 2 * input.toUInt32.toNat < 2 ^ 32
    rw [UInt16.toNat_toUInt32]
    omega
  apply UInt32.toBitVec_inj.1
  show input.toUInt32.toBitVec.sshiftRight 8 = input.toUInt32.toBitVec >>> 8
  exact BitVec.sshiftRight_eq_of_msb_false hmsb

theorem toNat_htoNUshort (input : UInt16) :
    (htoNUshort input).toNat = 256 * (input.toNat % 256) + input.toNat / 256 := by
  have hlt := input.toNat_lt
  have hsum : ((input.toUInt32.toInt32 >>> 8) + (input.toUInt32.toInt32 <<< 8)).toUInt32 =
      (input.toUInt32 >>> 8) + (input.toUInt32 <<< 8) := by
    rw [← promoted_shiftRight]
    rfl
  rw [htoNUshort, hsum, UInt32.toNat_toUInt16, UInt32.toNat_add, UInt32.toNat_shiftRight,
    UInt32.toNat_shiftLeft, UInt16.toNat_toUInt32, Nat.shiftRight_eq_div_pow, Nat.shiftLeft_eq]
  show (input.toNat / 2 ^ 8 + input.toNat * 2 ^ 8 % 2 ^ 32) % 2 ^ 32 % 2 ^ 16 = _
  omega

/-- The lower byte is the other number's higher one. -/
theorem toUInt8_htoNUshort (input : UInt16) :
    (htoNUshort input).toUInt8 = (input >>> 8).toUInt8 := by
  have hlt := input.toNat_lt
  rw [← UInt8.toNat_inj, UInt16.toNat_toUInt8, UInt16.toNat_toUInt8, toNat_htoNUshort,
    UInt16.toNat_shiftRight, Nat.shiftRight_eq_div_pow]
  show _ = input.toNat / 2 ^ 8 % 2 ^ 8
  omega

theorem toUInt8_htoNUshort_shiftRight (input : UInt16) :
    (htoNUshort input >>> 8).toUInt8 = input.toUInt8 := by
  have hlt := input.toNat_lt
  have hhigh : input.toNat / 256 < 256 := by omega
  have hlow : (256 * (input.toNat % 256) + input.toNat / 256) / 2 ^ 8 = input.toNat % 256 := by
    omega
  rw [← UInt8.toNat_inj, UInt16.toNat_toUInt8, UInt16.toNat_toUInt8, UInt16.toNat_shiftRight,
    toNat_htoNUshort, Nat.shiftRight_eq_div_pow]
  show _ / 2 ^ 8 % 2 ^ 8 = _
  rw [hlow]
  omega

/-! ## 32 bits -/

/-- The first and the third byte. -/
theorem toNat_num1 (input : UInt32) :
    (input &&& 0x00FF00FF).toNat =
      65536 * (input.toNat / 65536 % 256) + input.toNat % 256 := by
  rw [UInt32.toNat_and]
  show input.toNat &&& 0x00FF00FF = _
  rw [and_split 16, show 0x00FF00FF / 2 ^ 16 = 255 by decide,
    show 0x00FF00FF % 2 ^ 16 = 255 by decide, and_low_byte, and_low_byte]
  omega

/-- The second and the fourth byte. -/
theorem toNat_num2 (input : UInt32) :
    (input &&& 0xFF00FF00).toNat =
      16777216 * (input.toNat / 16777216) + 256 * (input.toNat / 256 % 256) := by
  have hlt := input.toNat_lt
  rw [UInt32.toNat_and]
  show input.toNat &&& 0xFF00FF00 = _
  rw [and_split 16, show 0xFF00FF00 / 2 ^ 16 = 65280 by decide,
    show 0xFF00FF00 % 2 ^ 16 = 65280 by decide, and_second_byte, and_second_byte]
  omega

/-- Both rotations join two bytes without an overlap. -/
theorem or_eq_add {k a b : Nat} (h : b < 2 ^ k) : b ||| 2 ^ k * a = 2 ^ k * a + b := by
  rw [Nat.or_comm, Nat.two_pow_add_eq_or_of_lt h]

/-- The first byte becomes the fourth, the third the second. -/
theorem toNat_rotateRight (input : UInt32) :
    ((input &&& 0x00FF00FF) >>> 8 ||| (input &&& 0x00FF00FF) <<< 24).toNat =
      16777216 * (input.toNat % 256) + 256 * (input.toNat / 65536 % 256) := by
  rw [UInt32.toNat_or, UInt32.toNat_shiftRight, UInt32.toNat_shiftLeft, toNat_num1,
    Nat.shiftRight_eq_div_pow, Nat.shiftLeft_eq]
  have hright : (65536 * (input.toNat / 65536 % 256) + input.toNat % 256) / 2 ^ 8 =
      256 * (input.toNat / 65536 % 256) := by
    omega
  have hleft : (65536 * (input.toNat / 65536 % 256) + input.toNat % 256) * 2 ^ 24 % 2 ^ 32 =
      2 ^ 24 * (input.toNat % 256) := by
    omega
  show _ / 2 ^ 8 ||| _ * 2 ^ 24 % 2 ^ 32 = _
  rw [hright, hleft, or_eq_add (by omega)]
  omega

/-- The second byte becomes the third, the fourth the first. -/
theorem toNat_rotateLeft (input : UInt32) :
    ((input &&& 0xFF00FF00) <<< 8 ||| (input &&& 0xFF00FF00) >>> 24).toNat =
      65536 * (input.toNat / 256 % 256) + input.toNat / 16777216 := by
  have hlt := input.toNat_lt
  rw [UInt32.toNat_or, UInt32.toNat_shiftRight, UInt32.toNat_shiftLeft, toNat_num2,
    Nat.shiftRight_eq_div_pow, Nat.shiftLeft_eq]
  have hleft : (16777216 * (input.toNat / 16777216) + 256 * (input.toNat / 256 % 256)) *
      2 ^ 8 % 2 ^ 32 = 2 ^ 16 * (input.toNat / 256 % 256) := by
    omega
  have hright : (16777216 * (input.toNat / 16777216) + 256 * (input.toNat / 256 % 256)) /
      2 ^ 24 = input.toNat / 16777216 := by
    omega
  show _ * 2 ^ 8 % 2 ^ 32 ||| _ / 2 ^ 24 = _
  rw [hleft, hright, Nat.or_comm, or_eq_add (by omega)]
  omega

theorem toNat_htoNUint (input : UInt32) :
    (htoNUint input).toNat =
      16777216 * (input.toNat % 256) + 65536 * (input.toNat / 256 % 256) +
        256 * (input.toNat / 65536 % 256) + input.toNat / 16777216 := by
  have hlt := input.toNat_lt
  rw [htoNUint, UInt32.toNat_add, toNat_rotateRight, toNat_rotateLeft]
  omega

/-! ## 64 bits -/

theorem toNat_htoNUlong (input : UInt64) :
    (htoNUlong input).toNat =
      2 ^ 32 * (htoNUint input.toUInt32).toNat + (htoNUint (input >>> 32).toUInt32).toNat := by
  have hlow := (htoNUint input.toUInt32).toNat_lt
  have hhigh := (htoNUint (input >>> 32).toUInt32).toNat_lt
  rw [htoNUlong, UInt64.toNat_add, UInt64.toNat_shiftLeft, UInt32.toNat_toUInt64,
    UInt32.toNat_toUInt64, Nat.shiftLeft_eq]
  show (_ * 2 ^ 32 % 2 ^ 64 + _) % 2 ^ 64 = _
  omega

/-- The 64-bit swap is the two 32-bit swaps exchanged. -/
theorem htoNUlong_halves (input : UInt64) :
    (htoNUlong input).toUInt32 = htoNUint (input >>> 32).toUInt32 ∧
      (htoNUlong input >>> 32).toUInt32 = htoNUint input.toUInt32 := by
  have hlow := (htoNUint input.toUInt32).toNat_lt
  have hhigh := (htoNUint (input >>> 32).toUInt32).toNat_lt
  constructor
  · rw [← UInt32.toNat_inj, UInt64.toNat_toUInt32, toNat_htoNUlong]
    omega
  · rw [← UInt32.toNat_inj, UInt64.toNat_toUInt32, UInt64.toNat_shiftRight, toNat_htoNUlong,
      Nat.shiftRight_eq_div_pow]
    show _ / 2 ^ 32 % 2 ^ 32 = _
    omega

/-! ## Bytes -/

theorem bytesLE_htoNUshort (input : UInt16) :
    bytesLE 2 (htoNUshort input).toNat = (bytesLE 2 input.toNat).reverse := by
  have hlt := input.toNat_lt
  obtain ⟨b₀, b₁, h₀, h₁, hinput, hswapped⟩ : ∃ b₀ b₁, b₀ < 256 ∧ b₁ < 256 ∧
      input.toNat = b₀ + 256 * (b₁ + 256 * 0) ∧
        (htoNUshort input).toNat = b₁ + 256 * (b₀ + 256 * 0) := by
    refine ⟨input.toNat % 256, input.toNat / 256, by omega, by omega, by omega, ?_⟩
    rw [toNat_htoNUshort]
    omega
  rw [hswapped, hinput, bytesLE_digit _ _ h₁, bytesLE_digit _ _ h₀, bytesLE_digit _ _ h₀,
    bytesLE_digit _ _ h₁]
  rfl

theorem bytesLE_htoNUint (input : UInt32) :
    bytesLE 4 (htoNUint input).toNat = (bytesLE 4 input.toNat).reverse := by
  have hlt := input.toNat_lt
  obtain ⟨b₀, b₁, b₂, b₃, h₀, h₁, h₂, h₃, hinput, hswapped⟩ : ∃ b₀ b₁ b₂ b₃, b₀ < 256 ∧
      b₁ < 256 ∧ b₂ < 256 ∧ b₃ < 256 ∧
        input.toNat = b₀ + 256 * (b₁ + 256 * (b₂ + 256 * (b₃ + 256 * 0))) ∧
        (htoNUint input).toNat = b₃ + 256 * (b₂ + 256 * (b₁ + 256 * (b₀ + 256 * 0))) := by
    refine ⟨input.toNat % 256, input.toNat / 256 % 256, input.toNat / 65536 % 256,
      input.toNat / 16777216, by omega, by omega, by omega, by omega, by omega, ?_⟩
    rw [toNat_htoNUint]
    omega
  rw [hswapped, hinput, bytesLE_digit _ _ h₃, bytesLE_digit _ _ h₂, bytesLE_digit _ _ h₁,
    bytesLE_digit _ _ h₀, bytesLE_digit _ _ h₀, bytesLE_digit _ _ h₁, bytesLE_digit _ _ h₂,
    bytesLE_digit _ _ h₃]
  rfl

/-- The bytes of a 64-bit number are those of its halves. -/
theorem bytesLE_halves {v low high : Nat} (hlow : v % 2 ^ 32 = low) (hhigh : v / 2 ^ 32 = high) :
    bytesLE 8 v = bytesLE 4 low ++ bytesLE 4 high := by
  rw [bytesLE_append 4 4, ← hhigh]
  congr 1
  rw [bytesLE_eq_iff, ← hlow]
  exact (Nat.mod_mod _ _).symm

theorem bytesLE_htoNUlong (input : UInt64) :
    bytesLE 8 (htoNUlong input).toNat = (bytesLE 8 input.toNat).reverse := by
  have hlt := input.toNat_lt
  have hlow : input.toNat % 2 ^ 32 = input.toUInt32.toNat :=
    (UInt64.toNat_toUInt32 input).symm
  have hhigh : input.toNat / 2 ^ 32 = (input >>> 32).toUInt32.toNat := by
    rw [UInt64.toNat_toUInt32, UInt64.toNat_shiftRight, Nat.shiftRight_eq_div_pow]
    show _ = input.toNat / 2 ^ 32 % 2 ^ 32
    omega
  have hhigh' := (htoNUint (input >>> 32).toUInt32).toNat_lt
  rw [bytesLE_halves hlow hhigh, List.reverse_append, ← bytesLE_htoNUint, ← bytesLE_htoNUint,
    toNat_htoNUlong]
  exact bytesLE_halves (by omega) (by omega)

/-! ## The overloads -/

theorem swapsBytes_ushort :
    SwapsBytes (fun x : UInt16 => bytesLE 2 x.toNat) htoNUshort ntoHUshort :=
  .of_reverses (fun x y h => UInt16.toNat_inj.mp (bytesLE_inj x.toNat_lt y.toNat_lt h))
    bytesLE_htoNUshort

theorem swapsBytes_uint :
    SwapsBytes (fun x : UInt32 => bytesLE 4 x.toNat) htoNUint ntoHUint :=
  .of_reverses (fun x y h => UInt32.toNat_inj.mp (bytesLE_inj x.toNat_lt y.toNat_lt h))
    bytesLE_htoNUint

theorem swapsBytes_ulong :
    SwapsBytes (fun x : UInt64 => bytesLE 8 x.toNat) htoNUlong ntoHUlong :=
  .of_reverses (fun x y h => UInt64.toNat_inj.mp (bytesLE_inj x.toNat_lt y.toNat_lt h))
    bytesLE_htoNUlong

theorem swapsBytes_short :
    SwapsBytes (fun x : Int16 => bytesLE 2 x.toUInt16.toNat) htoNShort ntoHShort :=
  swapsBytes_ushort.comap (fun _ => rfl) (fun _ => rfl)

theorem swapsBytes_int :
    SwapsBytes (fun x : Int32 => bytesLE 4 x.toUInt32.toNat) htoNInt ntoHInt :=
  swapsBytes_uint.comap (fun _ => rfl) (fun _ => rfl)

theorem swapsBytes_long :
    SwapsBytes (fun x : Int64 => bytesLE 8 x.toUInt64.toNat) htoNLong ntoHLong :=
  swapsBytes_ulong.comap (fun _ => rfl) (fun _ => rfl)

/--
**Byte order.**  For every value of the six types the little-endian bytes of
`HtoN` are those of the value in reverse, `NtoH` undoes `HtoN` and `HtoN` undoes
`NtoH`, and the 64-bit swap is the two 32-bit swaps exchanged.
-/
theorem htoN_swaps :
    SwapsBytes (fun x : UInt16 => bytesLE 2 x.toNat) htoNUshort ntoHUshort ∧
      SwapsBytes (fun x : UInt32 => bytesLE 4 x.toNat) htoNUint ntoHUint ∧
      SwapsBytes (fun x : UInt64 => bytesLE 8 x.toNat) htoNUlong ntoHUlong ∧
      SwapsBytes (fun x : Int16 => bytesLE 2 x.toUInt16.toNat) htoNShort ntoHShort ∧
      SwapsBytes (fun x : Int32 => bytesLE 4 x.toUInt32.toNat) htoNInt ntoHInt ∧
      SwapsBytes (fun x : Int64 => bytesLE 8 x.toUInt64.toNat) htoNLong ntoHLong ∧
      ∀ input : UInt64, (htoNUlong input).toUInt32 = htoNUint (input >>> 32).toUInt32 ∧
        (htoNUlong input >>> 32).toUInt32 = htoNUint input.toUInt32 :=
  ⟨swapsBytes_ushort, swapsBytes_uint, swapsBytes_ulong, swapsBytes_short, swapsBytes_int,
    swapsBytes_long, htoNUlong_halves⟩

example : htoNShort (-2) = -257 := by decide

end SockLynx.Util
