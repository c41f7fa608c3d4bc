import SockLynx.Verified.Ranges

/-!
# `MemCmp` is equality of bytes

Words are equal exactly when their bytes are, so it does not matter that the
accesses of a tail overlap, nor whether the two ranges do.  A mismatch ends
the comparison early; what has not been read then could not make it equal.

## Main results

* `memCmp_iff` — `MemCmp` returns whether all bytes are equal.
-/

namespace SockLynx.Util

open SockLynx.Lib.Words
open SockLynx.Lib.Moves

/-- On readable ranges `MemCmp` returns whether they are equal. -/
theorem memCmp_run {acc : Access} {dst src : UInt64} {dstOffset srcOffset byteLength : Int32}
    {n : Nat} (hn : byteLength.toInt = n) (hdst : acc.CanRead (dst + ulong dstOffset).toNat n)
    (hsrc : acc.CanRead (src + ulong srcOffset).toNat n) (m : Mem) :
    memCmp dst dstOffset src srcOffset byteLength acc m =
      .ok (decide (∀ i < n, m ((dst + ulong dstOffset).toNat + i) =
        m ((src + ulong srcOffset).toNat + i)), m) := by
  obtain ⟨x, hrun, hx⟩ := cmpChunks_eq (m := m) hdst hsrc fun c hc => chunks_bounds hc
  have hall : x = true ↔ ∀ i < n, m ((dst + ulong dstOffset).toNat + i) =
      m ((src + ulong srcOffset).toNat + i) := by
    refine hx.trans ⟨fun h i hi => ?_, fun h c hc i hhas => ?_⟩
    · obtain ⟨c, hc, hhas⟩ := (chunks_covers n i).mpr hi
      exact h c hc i hhas
    · exact h i ((chunks_covers n i).mp ⟨c, hc, hhas⟩)
  rw [memCmp_eq, toNat_ulong hn, hrun]
  congr 2
  rw [Bool.eq_iff_iff, hall, decide_eq_true_eq]

/--
**`MemCmp`.**  Any length from 0 on, any two pointers and any memory, with the
two ranges readable and no other byte necessarily so: `MemCmp` returns, leaves
the memory as it is, and the result is whether byte `i` of the one range is
byte `i` of the other for every `i`.
-/
theorem memCmp_iff {acc : Access} {dst src : UInt64} {dstOffset srcOffset byteLength : Int32}
    {n : Nat} (hn : byteLength.toInt = n) (hdst : acc.CanRead (dst + ulong dstOffset).toNat n)
    (hsrc : acc.CanRead (src + ulong srcOffset).toNat n) (m : Mem) :
    ∃ x, memCmp dst dstOffset src srcOffset byteLength acc m = .ok (x, m) ∧
      (x = true ↔ ∀ i < n, m ((dst + ulong dstOffset).toNat + i) =
        m ((src + ulong srcOffset).toNat + i)) :=
  ⟨_, memCmp_run hn hdst hsrc m, decide_eq_true_iff⟩

/-- Five zeros, and five bytes of which the last, a byte of the tail, is not. -/
theorem memCmp_iff_tail :
    memCmp 64 0 69 0 5 (.only 64 64 10 (by decide) (by decide)) (fun a => if a = 73 then 1 else 0) =
      .ok (false, fun a => if a = 73 then 1 else 0) := by
  obtain ⟨x, hrun, hx⟩ := @memCmp_iff (.only 64 64 10 (by decide) (by decide)) 64 69 0 0 5 5 rfl
    (fun k hk => decide_eq_true (show 64 ≤ 64 + k ∧ 64 + k < 64 + 10 by omega))
    (fun k hk => decide_eq_true (show 64 ≤ 69 + k ∧ 69 + k < 64 + 10 by omega))
    fun a => if a = 73 then 1 else 0
  cases x with
  | false => exact hrun
  | true => exact absurd (hx.mp rfl 4 (by decide)) (by decide)

end SockLynx.Util
