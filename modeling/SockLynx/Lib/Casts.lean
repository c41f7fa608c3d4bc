import Mathlib.Algebra.Ring.Int.Defs

/-!
# Casts between fixed-width integers

A cast from signed to unsigned keeps the value modulo a power of two: that of
the wider type where the cast widens, because the sign is extended.
-/

namespace SockLynx.Lib.Casts

theorem toNat_toUInt32 (n : Int32) : (n.toUInt32.toNat : Int) = n.toInt % 2 ^ 32 := by
  have hbits : n.toUInt32.toNat = n.toBitVec.toNat := rfl
  have hcond := BitVec.toInt_eq_toNat_cond n.toBitVec
  have hlt := n.toBitVec.isLt
  rw [hbits, ← Int32.toInt_toBitVec]
  omega

theorem toNat_toUInt16 (n : Int16) : (n.toUInt16.toNat : Int) = n.toInt % 2 ^ 16 := by
  have hbits : n.toUInt16.toNat = n.toBitVec.toNat := rfl
  have hcond := BitVec.toInt_eq_toNat_cond n.toBitVec
  have hlt := n.toBitVec.isLt
  rw [hbits, ← Int16.toInt_toBitVec]
  omega

theorem toNat_toUInt64 (n : Int64) : (n.toUInt64.toNat : Int) = n.toInt % 2 ^ 64 := by
  have hbits : n.toUInt64.toNat = n.toBitVec.toNat := rfl
  have hcond := BitVec.toInt_eq_toNat_cond n.toBitVec
  have hlt := n.toBitVec.isLt
  rw [hbits, ← Int64.toInt_toBitVec]
  omega

/-- A 32-bit number, sign-extended. -/
theorem toNat_signExtend (n : Int32) : (n.toInt64.toUInt64.toNat : Int) = n.toInt % 2 ^ 64 := by
  rw [toNat_toUInt64, Int32.toInt_toInt64]

/-- A 16-bit number, sign-extended. -/
theorem toNat_signExtend16 (n : Int16) : (n.toInt64.toUInt64.toNat : Int) = n.toInt % 2 ^ 64 := by
  rw [toNat_toUInt64, Int16.toInt_toInt64]

end SockLynx.Lib.Casts
