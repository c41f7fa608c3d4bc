import Mathlib.Tactic.Ring
import SockLynx.Verified.Ranges

/-!
# What `MemSet` fills with

`MemSet` with a `ulong` repeats its eight bytes, in the loop and in the
accesses of the tail.  The other overloads build such a pattern first.  That
of a byte is eight times the byte.  That of a `short` or an `int` is built
from the value cast to `ulong`, which extends the sign: of a negative number
only the first element of the pattern is the element, all further bytes
are 0xFF.

## Main results

* `memSet_run` — the bytes `MemSet` leaves, for every pattern.
* `memSet_fills` — the overloads for `ulong` and `byte` fill with their value.
* `memSet_element_iff` — those for `short` and `int` fill with their element
  exactly when it is not negative, or as short or as full of ones as to hide
  the difference.
-/

namespace SockLynx.Util

open SockLynx.Lib.Words
open SockLynx.Lib.Moves

/-! ## Bytes of a pattern -/

theorem byteOf_or (a b k : Nat) : byteOf (a ||| b) k = byteOf a k ||| byteOf b k := by
  have hpow : 256 ^ k = 2 ^ (8 * k) := by rw [Nat.pow_mul]
  rw [byteOf, hpow, Nat.or_div_two_pow, UInt8.ofNat_or, byteOf, byteOf, hpow]

/-- A byte depends on the bytes up to it only. -/
theorem byteOf_mod {v width k : Nat} (h : k < width) : byteOf (v % 256 ^ width) k = byteOf v k := by
  have hsplit : 256 ^ width = 256 ^ k * (256 ^ (width - k - 1) * 256) := by
    rw [← Nat.pow_succ, ← Nat.pow_add]
    congr 1
    omega
  rw [← UInt8.toNat_inj, byteOf, byteOf, hsplit, Nat.mod_mul_right_div_self, UInt8.toNat_ofNat',
    UInt8.toNat_ofNat']
  exact Nat.mod_mul_left_mod _ _ _

/-- Shifting by `j` bytes moves byte `k - j` to place `k`. -/
theorem byteOf_shiftLeft {x s : UInt64} {k : Nat} (j : Nat) (hs : s.toNat = 8 * j) (hj : j < 8)
    (hk : k < 8) :
    byteOf (x <<< s).toNat k = if j ≤ k then byteOf x.toNat (k - j) else 0 := by
  have hpow : 2 ^ (8 * j) = 256 ^ j := by rw [Nat.pow_mul]
  have hamount : 8 * j % 64 = 8 * j := by omega
  have hshift : (x <<< s).toNat = x.toNat * 256 ^ j % 256 ^ 8 := by
    rw [UInt64.toNat_shiftLeft, hs, hamount, Nat.shiftLeft_eq, hpow]
    rfl
  rw [hshift, byteOf_mod hk, ← UInt8.toNat_inj, byteOf, UInt8.toNat_ofNat']
  by_cases hle : j ≤ k
  · obtain ⟨i, rfl⟩ := Nat.exists_eq_add_of_le hle
    have hi : j + i - j = i := by omega
    rw [if_pos hle, hi, byteOf, UInt8.toNat_ofNat', Nat.pow_add, ← Nat.div_div_eq_div_mul,
      Nat.mul_div_cancel _ (Nat.pow_pos (by omega))]
  · obtain ⟨i, rfl⟩ : ∃ i, j = k + (i + 1) := ⟨j - k - 1, by omega⟩
    have hmul : x.toNat * 256 ^ (k + (i + 1)) = 256 ^ k * (256 * (x.toNat * 256 ^ i)) := by
      rw [Nat.pow_add, Nat.pow_succ]
      ring
    rw [if_neg hle, hmul, Nat.mul_div_cancel_left _ (Nat.pow_pos (by omega)), Nat.mul_mod_right]
    rfl

/-- Every byte of the pattern is the byte. -/
theorem byteOf_bytePattern (byteValue : UInt8) {k : Nat} (hk : k < 8) :
    byteOf (bytePattern byteValue).toNat k = byteValue := by
  have hlt : byteValue.toNat < 256 := byteValue.toNat_lt
  have hbyte : ∀ i, byteOf byteValue.toNat i = if i = 0 then byteValue else 0 := by
    intro i
    rw [byteOf]
    cases i with
    | zero => simp
    | succ i =>
        have hzero : byteValue.toNat / 256 ^ (i + 1) = 0 := by
          apply Nat.div_eq_of_lt
          exact Nat.lt_of_lt_of_le hlt (Nat.le_self_pow (by omega) 256)
        simp [hzero]
  unfold bytePattern
  simp only [UInt64.toNat_or, byteOf_or]
  rw [byteOf_shiftLeft 1 rfl (by omega) hk, byteOf_shiftLeft 2 rfl (by omega) hk,
    byteOf_shiftLeft 3 rfl (by omega) hk, byteOf_shiftLeft 4 rfl (by omega) hk,
    byteOf_shiftLeft 5 rfl (by omega) hk, byteOf_shiftLeft 6 rfl (by omega) hk,
    byteOf_shiftLeft 7 rfl (by omega) hk, UInt8.toNat_toUInt64]
  rcases lt_eight_cases hk with rfl | rfl | rfl | rfl | rfl | rfl | rfl | rfl <;>
    simp [hbyte]

/-- Extending the sign keeps the bytes of a value. -/
theorem byteOf_extended_lo {u e width k : Nat} {v : Int} (hu : (u : Int) = v % 2 ^ 64)
    (he : (e : Int) = v % 256 ^ width) (hwidth : width ≤ 8) (hk : k < width) :
    byteOf u k = byteOf e k := by
  have hdvd : (256 ^ width : Int) ∣ 2 ^ 64 := pow_dvd_pow (256 : Int) hwidth
  have hmod : u % 256 ^ width = e := by
    rw [← Int.natCast_inj, Int.natCast_mod, hu, he, Int.natCast_pow]
    exact Int.emod_emod_of_dvd v hdvd
  rw [← hmod, byteOf_mod hk]

/-- The bytes above a value are its sign. -/
theorem byteOf_extended_hi {u width k : Nat} {v : Int} (hu : (u : Int) = v % 2 ^ 64)
    (hv : v.natAbs ≤ 256 ^ width / 2) (hwidth : width ≤ k) (hk : k < 8) :
    byteOf u k = if 0 ≤ v then 0 else 255 := by
  have hpow : 256 ^ width ≤ 256 ^ k := Nat.pow_le_pow_right (by omega) hwidth
  have habs : v.natAbs ≤ 256 ^ k / 2 := Nat.le_trans hv (Nat.div_le_div_right hpow)
  have hbyte : u / 256 ^ k % 256 = if 0 ≤ v then 0 else 255 := by
    clear hv hwidth hpow
    rcases lt_eight_cases hk with rfl | rfl | rfl | rfl | rfl | rfl | rfl | rfl <;>
      split <;> omega
  rw [← UInt8.toNat_inj, byteOf, UInt8.toNat_ofNat', hbyte]
  split <;> rfl

/-- A pattern repeats its first `width` bytes, or has only ones above them. -/
structure Repeats (pattern : UInt64) (e width : Nat) (v : Int) : Prop where
  lo : ∀ k < width, byteOf pattern.toNat k = byteOf e k
  hi : ∀ k, width ≤ k → k < 8 →
    byteOf pattern.toNat k = if 0 ≤ v then byteOf e (k % width) else 255

theorem shortPattern_repeats (shortValue : Int16) :
    Repeats (shortPattern shortValue) shortValue.toUInt16.toNat 2 shortValue.toInt := by
  have hu := Lib.Casts.toNat_signExtend16 shortValue
  have he : (shortValue.toUInt16.toNat : Int) = shortValue.toInt % 256 ^ 2 :=
    Lib.Casts.toNat_toUInt16 shortValue
  have hlt := shortValue.toInt_lt
  have hle := shortValue.le_toInt
  have hlo := fun k (hk : k < 2) => byteOf_extended_lo hu he (by omega) hk
  have hhi := fun k (hk : 2 ≤ k) (hk8 : k < 8) => byteOf_extended_hi hu (by omega) hk hk8
  have hones : ∀ x : UInt8, 255 ||| x = 255 := fun x => UInt8.neg_one_or
  have hpattern : ∀ k, k < 8 → byteOf (shortPattern shortValue).toNat k =
      byteOf shortValue.toInt64.toUInt64.toNat k |||
        (if 2 ≤ k then byteOf shortValue.toInt64.toUInt64.toNat (k - 2) else 0) |||
        (if 4 ≤ k then byteOf shortValue.toInt64.toUInt64.toNat (k - 4) else 0) |||
        (if 6 ≤ k then byteOf shortValue.toInt64.toUInt64.toNat (k - 6) else 0) := by
    intro k hk
    unfold shortPattern
    simp only [UInt64.toNat_or, byteOf_or]
    rw [byteOf_shiftLeft 2 rfl (by omega) hk, byteOf_shiftLeft 4 rfl (by omega) hk,
      byteOf_shiftLeft 6 rfl (by omega) hk]
  refine ⟨fun k hk => ?_, fun k hk hk8 => ?_⟩
  · rw [hpattern k (by omega), if_neg (by omega), if_neg (by omega), if_neg (by omega), hlo k hk]
    simp
  · have hcases : k = 2 ∨ k = 3 ∨ k = 4 ∨ k = 5 ∨ k = 6 ∨ k = 7 := by omega
    rw [hpattern k hk8]
    by_cases hv : 0 ≤ shortValue.toInt
    · rcases hcases with rfl | rfl | rfl | rfl | rfl | rfl <;> simp [hhi, hlo, hv]
    · rcases hcases with rfl | rfl | rfl | rfl | rfl | rfl <;> simp [hhi, hv, hones]

theorem intPattern_repeats (intValue : Int32) :
    Repeats (intPattern intValue) intValue.toUInt32.toNat 4 intValue.toInt := by
  have hu : ((ulong intValue).toNat : Int) = intValue.toInt % 2 ^ 64 :=
    Lib.Casts.toNat_signExtend intValue
  have he : (intValue.toUInt32.toNat : Int) = intValue.toInt % 256 ^ 4 :=
    Lib.Casts.toNat_toUInt32 intValue
  have hlt := intValue.toInt_lt
  have hle := intValue.le_toInt
  have hlo := fun k (hk : k < 4) => byteOf_extended_lo hu he (by omega) hk
  have hhi := fun k (hk : 4 ≤ k) (hk8 : k < 8) => byteOf_extended_hi hu (by omega) hk hk8
  have hones : ∀ x : UInt8, 255 ||| x = 255 := fun x => UInt8.neg_one_or
  have hpattern : ∀ k, k < 8 → byteOf (intPattern intValue).toNat k =
      byteOf (ulong intValue).toNat k |||
        (if 4 ≤ k then byteOf (ulong intValue).toNat (k - 4) else 0) := by
    intro k hk
    unfold intPattern
    simp only [UInt64.toNat_or, byteOf_or]
    rw [byteOf_shiftLeft 4 rfl (by omega) hk]
  refine ⟨fun k hk => ?_, fun k hk hk8 => ?_⟩
  · rw [hpattern k (by omega), if_neg (by omega), hlo k hk]
    simp
  · have hmod : k % 4 = k - 4 := by omega
    rw [hpattern k hk8, if_pos hk, hhi k hk hk8, hmod, hlo (k - 4) (by omega)]
    split
    · simp
    · exact hones _

/-! ## What is filled -/

/-- Each access of a length stays inside one word. -/
theorem chunks_word {n : Nat} {c : Chunk} (h : c ∈ chunks n) : c.offset % 8 + c.width ≤ 8 := by
  have hr : n % 8 < 8 := Nat.mod_lt n (by omega)
  rcases List.mem_append.mp h with h | h
  · obtain ⟨i, hi⟩ := ladder_offset h
    have hw := (ladder_bounds h).2.2
    omega
  · have hwidth := tailChunks_width h
    have hfirst := (tailChunks_has_iff hr).mp ⟨c, h, Nat.le_refl _, by omega⟩
    have hlast := (tailChunks_has_iff hr).mp ⟨c, h, (by omega : c.offset ≤ c.offset + c.width - 1),
      by omega⟩
    omega

/-- From any memory the routine returns, with byte `i` of the `n` bytes from `t`
on equal to `f i` and all other bytes as they were. -/
def Fills (acc : Access) (t n : Nat) (routine : Raw Unit) (f : Nat → UInt8) : Prop :=
  ∀ m, ∃ m', routine acc m = .ok ((), m') ∧ (∀ i < n, m' (t + i) = f i) ∧
    ∀ x, x < t ∨ t + n ≤ x → m' x = m x

section Routines

variable {acc : Access} {dst : UInt64} {dstOffset byteLength : Int32} {n : Nat}

/-- On an allowed range `MemSet` returns and has painted the pattern. -/
theorem memSet_run (hn : byteLength.toInt = n)
    (hw : acc.CanWrite (dst + ulong dstOffset).toNat n) (ulongValue : UInt64) (m : Mem) :
    memSet dst dstOffset ulongValue byteLength acc m =
      .ok ((), paint (fun x => byteOf ulongValue.toNat ((x - (dst + ulong dstOffset).toNat) % 8))
        (dst + ulong dstOffset).toNat n m) := by
  rw [memSet_eq, toNat_ulong hn, ← paintChunks_eq (chunks_covers n)]
  exact copyChunks_local hw (fun c hc => chunks_bounds hc) fun c hc => chunks_word hc

/-- `MemSet` fills with a function exactly when the bytes of the pattern,
repeated, are that function. -/
theorem memSet_fills_iff (hn : byteLength.toInt = n)
    (hw : acc.CanWrite (dst + ulong dstOffset).toNat n) {ulongValue : UInt64} {f : Nat → UInt8} :
    Fills acc (dst + ulong dstOffset).toNat n (memSet dst dstOffset ulongValue byteLength) f ↔
      ∀ i < n, byteOf ulongValue.toNat (i % 8) = f i := by
  have hrun := memSet_run hn hw ulongValue
  have hindex : ∀ i, (dst + ulong dstOffset).toNat + i - (dst + ulong dstOffset).toNat = i := by
    intro i
    omega
  constructor
  · intro h i hi
    obtain ⟨m', hm', hfilled, _⟩ := h fun _ => 0
    have hpainted : paint _ _ _ _ = m' :=
      congrArg Prod.snd (Except.ok.inj ((hrun fun _ => 0).symm.trans hm'))
    have hbyte := hfilled i hi
    rw [← hpainted, paint_of_mem ⟨Nat.le_add_right _ i, by omega⟩, hindex] at hbyte
    exact hbyte
  · intro h m
    refine ⟨_, hrun m, fun i hi => ?_, fun x hx => paint_of_not_mem (by omega)⟩
    rw [paint_of_mem ⟨Nat.le_add_right _ i, by omega⟩, hindex, h i hi]

/--
**`MemSet` with a `ulong` or a `byte`.**  Any length from 0 on, any pointer and
any value, with the destination writable and no byte of the memory readable:
byte `i` of the destination is byte `i mod 8` of the value, or the byte, and
nothing else changes.
-/
theorem memSet_fills (hn : byteLength.toInt = n)
    (hw : acc.CanWrite (dst + ulong dstOffset).toNat n) (ulongValue : UInt64)
    (byteValue : UInt8) :
    Fills acc (dst + ulong dstOffset).toNat n (memSet dst dstOffset ulongValue byteLength)
        (fun i => byteOf ulongValue.toNat (i % 8)) ∧
      Fills acc (dst + ulong dstOffset).toNat n (memSetByte dst dstOffset byteValue byteLength)
        (fun _ => byteValue) := by
  constructor
  · rw [memSet_fills_iff hn hw]
    intro i _
    rfl
  · rw [memSetByte, memSet_fills_iff hn hw]
    intro i _
    exact byteOf_bytePattern byteValue (Nat.mod_lt i (by omega))

/-- Negative elements are kept where the pattern shows no byte above the first
element, or none that differs. -/
def ElementKept (width n e : Nat) (v : Int) : Prop :=
  0 ≤ v ∨ ∀ j < min n (2 * width) - width, byteOf e j = 255

/-- A pattern repeats the element over `n` bytes exactly when the element is
kept. -/
theorem Repeats.element_iff {pattern : UInt64} {e width : Nat} {v : Int}
    (h : Repeats pattern e width v) (hwidth : width = 2 ∨ width = 4) :
    (∀ i < n, byteOf pattern.toNat (i % 8) = byteOf e (i % width)) ↔
      ElementKept width n e v := by
  have hmod : ∀ i, i % 8 % width = i % width := by
    intro i
    rcases hwidth with rfl | rfl <;> omega
  constructor
  · intro hall
    by_cases hv : 0 ≤ v
    · exact Or.inl hv
    · refine Or.inr fun j hj => ?_
      have hbyte := hall (width + j) (by omega)
      have hsmall : (width + j) % 8 = width + j := by omega
      have hj' : (width + j) % width = j := by
        rw [Nat.add_mod_left]
        exact Nat.mod_eq_of_lt (by omega)
      rw [hsmall, h.hi (width + j) (by omega) (by omega), if_neg hv, hj'] at hbyte
      exact hbyte.symm
  · intro hkept i hi
    by_cases hlow : i % 8 < width
    · rw [h.lo (i % 8) hlow, ← hmod, Nat.mod_eq_of_lt hlow]
    · rw [h.hi (i % 8) (by omega) (Nat.mod_lt i (by omega)), hmod]
      rcases hkept with hv | hones
      · rw [if_pos hv]
      · by_cases hv : 0 ≤ v
        · rw [if_pos hv]
        · have hj : i % width < min n (2 * width) - width := by
            rcases hwidth with rfl | rfl <;> omega
          rw [if_neg hv, hones _ hj]

/--
**`MemSet` with a `short` or an `int`.**  Any length from 0 on, any pointer and
any value, with the destination writable: the routine fills with the element
exactly when the value is not negative, or the bytes of the element are 0xFF as
far as the second element of the pattern reaches into the range.
-/
theorem memSet_element_iff (hn : byteLength.toInt = n)
    (hw : acc.CanWrite (dst + ulong dstOffset).toNat n) (shortValue : Int16)
    (intValue : Int32) :
    (Fills acc (dst + ulong dstOffset).toNat n (memSetShort dst dstOffset shortValue byteLength)
        (fun i => byteOf shortValue.toUInt16.toNat (i % 2)) ↔
      ElementKept 2 n shortValue.toUInt16.toNat shortValue.toInt) ∧
    (Fills acc (dst + ulong dstOffset).toNat n (memSetInt dst dstOffset intValue byteLength)
        (fun i => byteOf intValue.toUInt32.toNat (i % 4)) ↔
      ElementKept 4 n intValue.toUInt32.toNat intValue.toInt) := by
  constructor
  · rw [memSetShort, memSet_fills_iff hn hw]
    exact (shortPattern_repeats shortValue).element_iff (Or.inl rfl)
  · rw [memSetInt, memSet_fills_iff hn hw]
    exact (intPattern_repeats intValue).element_iff (Or.inr rfl)

end Routines

/-! ### Four and eight bytes -/

/-- The theorem at five bytes. -/
theorem memSet_fills_five :
    Fills (.only 64 64 5 (by decide) (by decide)) 64 5 (memSet 64 0 0x0807060504030201 5)
        (fun i => byteOf 0x0807060504030201 (i % 8)) ∧
      Fills (.only 64 64 5 (by decide) (by decide)) 64 5 (memSetByte 64 0 7 5) (fun _ => 7) :=
  @memSet_fills _ 64 0 5 5 rfl (Access.only_canWrite _ _) _ _

/-- The theorem at -1, whose bytes are all 0xFF. -/
theorem memSet_element_iff_ones :
    Fills (.only 64 64 8 (by decide) (by decide)) 64 8 (memSetShort 64 0 (-1) 8)
        (fun i => byteOf (-1 : Int16).toUInt16.toNat (i % 2)) ∧
      Fills (.only 64 64 8 (by decide) (by decide)) 64 8 (memSetInt 64 0 (-1) 8)
        (fun i => byteOf (-1 : Int32).toUInt32.toNat (i % 4)) :=
  have h := @memSet_element_iff _ 64 0 8 8 rfl (Access.only_canWrite _ _) (-1) (-1)
  ⟨h.1.mpr (Or.inr (by decide)), h.2.mpr (Or.inr (by decide))⟩

/-- Four bytes of the `short` -2 come out as FE FF FF FF, eight of the `int` -2 as
FE FF FF FF FF FF FF FF. -/
theorem memSet_minus_two :
    ¬Fills (.only 64 64 4 (by decide) (by decide)) 64 4 (memSetShort 64 0 (-2) 4)
        (fun i => byteOf (-2 : Int16).toUInt16.toNat (i % 2)) ∧
      ¬Fills (.only 64 64 8 (by decide) (by decide)) 64 8 (memSetInt 64 0 (-2) 8)
        (fun i => byteOf (-2 : Int32).toUInt32.toNat (i % 4)) := by
  constructor
  · intro h
    have hbytes := (@memSet_fills_iff _ 64 0 4 4 rfl (Access.only_canWrite _ _) _ _).mp h
    exact absurd (hbytes 2 (by decide)) (by decide)
  · intro h
    have hbytes := (@memSet_fills_iff _ 64 0 8 8 rfl (Access.only_canWrite _ _) _ _).mp h
    exact absurd (hbytes 4 (by decide)) (by decide)

end SockLynx.Util
