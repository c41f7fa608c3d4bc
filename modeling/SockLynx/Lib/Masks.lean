/-!
# Masks

A word with a mask set is `x ||| m`, with a mask cleared `x &&& ~~~m`, and a
mask is read by `x &&& m`.  The lemmas say what is read after a set or a
clear: of the same mask, and of a mask that shares no bit with it.  They are
stated once for `BitVec` and carried over to `UInt32` and `Int32`.
-/

namespace SockLynx.Lib.Masks

section Bits

variable {w : Nat} (x : BitVec w) {m n : BitVec w}

theorem bits_set_same (m : BitVec w) : (x ||| m) &&& m = m := by
  refine BitVec.eq_of_getLsbD_eq fun k _ => ?_
  simp only [BitVec.getLsbD_and, BitVec.getLsbD_or]
  cases x.getLsbD k <;> cases m.getLsbD k <;> rfl

theorem bits_clear_same (m : BitVec w) : (x &&& ~~~m) &&& m = 0 := by
  rw [BitVec.and_assoc, BitVec.not_and_self]
  exact BitVec.and_zero

theorem bits_set_other (h : n &&& m = 0) : (x ||| n) &&& m = x &&& m := by
  refine BitVec.eq_of_getLsbD_eq fun k _ => ?_
  have hk : (n.getLsbD k && m.getLsbD k) = false := by
    rw [← BitVec.getLsbD_and, h]
    exact BitVec.getLsbD_zero
  simp only [BitVec.getLsbD_and, BitVec.getLsbD_or]
  cases hx : x.getLsbD k <;> cases hn : n.getLsbD k <;> simp_all

theorem bits_clear_other (h : n &&& m = 0) : (x &&& ~~~n) &&& m = x &&& m := by
  refine BitVec.eq_of_getLsbD_eq fun k hlt => ?_
  have hk : (n.getLsbD k && m.getLsbD k) = false := by
    rw [← BitVec.getLsbD_and, h]
    exact BitVec.getLsbD_zero
  simp only [BitVec.getLsbD_and, BitVec.getLsbD_not, hlt, decide_true, Bool.true_and]
  cases hx : x.getLsbD k <;> cases hn : n.getLsbD k <;> simp_all

end Bits

section Words

theorem uint32_set_same (x m : UInt32) : (x ||| m) &&& m = m :=
  UInt32.toBitVec_inj.1 (bits_set_same _ _)

theorem uint32_clear_same (x m : UInt32) : (x &&& ~~~m) &&& m = 0 :=
  UInt32.toBitVec_inj.1 (bits_clear_same _ _)

theorem uint32_set_other (x : UInt32) {m n : UInt32} (h : n &&& m = 0) :
    (x ||| n) &&& m = x &&& m :=
  UInt32.toBitVec_inj.1 (bits_set_other _ (congrArg UInt32.toBitVec h))

theorem uint32_clear_other (x : UInt32) {m n : UInt32} (h : n &&& m = 0) :
    (x &&& ~~~n) &&& m = x &&& m :=
  UInt32.toBitVec_inj.1 (bits_clear_other _ (congrArg UInt32.toBitVec h))

theorem int32_set_same (x m : Int32) : (x ||| m) &&& m = m :=
  Int32.toBitVec_inj.1 (bits_set_same _ _)

theorem int32_clear_same (x m : Int32) : (x &&& ~~~m) &&& m = 0 :=
  Int32.toBitVec_inj.1 (bits_clear_same _ _)

theorem int32_set_other (x : Int32) {m n : Int32} (h : n &&& m = 0) :
    (x ||| n) &&& m = x &&& m :=
  Int32.toBitVec_inj.1 (bits_set_other _ (congrArg Int32.toBitVec h))

theorem int32_clear_other (x : Int32) {m n : Int32} (h : n &&& m = 0) :
    (x &&& ~~~n) &&& m = x &&& m :=
  Int32.toBitVec_inj.1 (bits_clear_other _ (congrArg Int32.toBitVec h))

end Words

end SockLynx.Lib.Masks
