import SockLynx.Verified.Ranges

/-!
# Negative lengths

The routines cast `byteLength` to `ulong` without looking at its sign.  A
negative length becomes one of almost 2^64 bytes, and the routines run over that
many, the addresses wrapping around: they end at the first access that is not
allowed, which on any real memory is soon.

## Main results

* `memCpy_needs`, `memSet_needs` — for any length: the routine ends at an access
  that is not allowed, or all bytes of the length are.
* `negative_length` — the same for every negative length and every routine.
-/

namespace SockLynx.Util

open SockLynx.Lib.Words
open SockLynx.Lib.Moves

/-- The routine ends at an access that is not allowed, or it returns and `bytes`
holds of what is allowed. -/
def Needs {α : Type} (acc : Access) (m : Mem) (routine : Raw α) (bytes : Prop) : Prop :=
  routine acc m = .error .access ∨ ∃ r, routine acc m = .ok r ∧ bytes

/-- The `n` bytes from `p` on may be read, the addresses wrapping around. -/
def Access.ReadsAll (acc : Access) (p : UInt64) (n : Nat) : Prop :=
  ∀ i < n, acc.readable ((p.toNat + i) % 2 ^ 64) = true

/-- The `n` bytes from `p` on may be written, the addresses wrapping around. -/
def Access.WritesAll (acc : Access) (p : UInt64) (n : Nat) : Prop :=
  ∀ i < n, acc.writable ((p.toNat + i) % 2 ^ 64) = true

/-! ## Any length -/

/-- The bytes of an allowed access, the addresses wrapping around. -/
theorem allowed_wraps {ok : Nat → Bool} (hok : ∀ x, ok x = true → x < 2 ^ 64) {p : UInt64}
    {c : Chunk} {i : Nat} (h : allowed ok (p + UInt64.ofNat c.offset).toNat c.width = true)
    (hi : c.Has i) : ok ((p.toNat + i) % 2 ^ 64) = true := by
  obtain ⟨j, rfl⟩ := Nat.exists_eq_add_of_le hi.1
  have hj : j < c.width := by
    have := hi.2
    omega
  have hbyte := allowed_iff.mp h j hj
  have hlt := hok _ hbyte
  have haddr : (p + UInt64.ofNat c.offset).toNat = (p.toNat + c.offset) % 2 ^ 64 := by
    rw [UInt64.toNat_add, UInt64.toNat_ofNat', Nat.add_mod_mod]
  have hsum : (p.toNat + (c.offset + j)) % 2 ^ 64 = (p + UInt64.ofNat c.offset).toNat + j := by
    omega
  rw [hsum]
  exact hbyte

/-- If every access of a length is allowed, so is every byte of it. -/
theorem chunks_wrap {ok : Nat → Bool} (hok : ∀ x, ok x = true → x < 2 ^ 64) {p : UInt64} {n : Nat}
    (h : ∀ c ∈ chunks n, allowed ok (p + UInt64.ofNat c.offset).toNat c.width = true) :
    ∀ i < n, ok ((p.toNat + i) % 2 ^ 64) = true := by
  intro i hi
  obtain ⟨c, hc, hhas⟩ := (chunks_covers n i).mpr hi
  exact allowed_wraps hok (h c hc) hhas

section Lengths

variable {acc : Access} {m : Mem} (dst src : UInt64) (dstOffset srcOffset byteLength : Int32)

/-- `MemCpy` needs every byte of both ranges. -/
theorem memCpy_needs :
    Needs acc m (memCpy dst dstOffset src srcOffset byteLength)
      (acc.ReadsAll (src + ulong srcOffset) (ulong byteLength).toNat ∧
        acc.WritesAll (dst + ulong dstOffset) (ulong byteLength).toNat) := by
  rw [memCpy_eq]
  rcases @copyChunks_cases acc m _ _ _ with ⟨m', hrun, hall⟩ | hfault
  · have hreads := fun c hc => (Bool.and_eq_true_iff.mp (hall c hc)).1
    have hwrites := fun c hc => (Bool.and_eq_true_iff.mp (hall c hc)).2
    exact Or.inr ⟨_, hrun, chunks_wrap acc.readable_lt hreads,
      chunks_wrap acc.writable_lt hwrites⟩
  · exact Or.inl hfault

/-- `MemSet` needs every byte of its range. -/
theorem memSet_needs (ulongValue : UInt64) :
    Needs acc m (memSet dst dstOffset ulongValue byteLength)
      (acc.WritesAll (dst + ulong dstOffset) (ulong byteLength).toNat) := by
  rw [memSet_eq]
  rcases @copyChunks_cases acc m _ _ _ with ⟨m', hrun, hall⟩ | hfault
  · have hwrites := fun c hc => (Bool.and_eq_true_iff.mp (hall c hc)).2
    exact Or.inr ⟨_, hrun, chunks_wrap acc.writable_lt hwrites⟩
  · exact Or.inl hfault

/-- `MemCmp` needs the first word of both ranges, if the length has a word. -/
theorem memCmp_needs (h : 8 ≤ (ulong byteLength).toNat) :
    Needs acc m (memCmp dst dstOffset src srcOffset byteLength)
      (acc.ReadsAll (dst + ulong dstOffset) 8 ∧ acc.ReadsAll (src + ulong srcOffset) 8) := by
  rw [memCmp_eq]
  rcases @cmpChunks_cases acc m (dst + ulong dstOffset) (chunks (ulong byteLength).toNat)
    (src + ulong srcOffset) with ⟨x, hrun, hfirst⟩ | hfault
  · have hhead : (chunks (ulong byteLength).toNat).head? = some ⟨0, 8⟩ := by
      rw [chunks_of_le h]
      rfl
    have hallowed := Bool.and_eq_true_iff.mp (hfirst ⟨0, 8⟩ hhead)
    refine Or.inr ⟨_, hrun, fun i hi => ?_, fun i hi => ?_⟩
    · exact allowed_wraps acc.readable_lt hallowed.1 ⟨Nat.zero_le i, by simpa using hi⟩
    · exact allowed_wraps acc.readable_lt hallowed.2 ⟨Nat.zero_le i, by simpa using hi⟩
  · exact Or.inl hfault

end Lengths

/-! ## Negative lengths -/

theorem toNat_ulong_neg {byteLength : Int32} (h : byteLength < 0) :
    ((ulong byteLength).toNat : Int) = 2 ^ 64 + byteLength.toInt := by
  have hcast : ((ulong byteLength).toNat : Int) = byteLength.toInt % 2 ^ 64 :=
    Lib.Casts.toNat_signExtend byteLength
  have hneg : byteLength.toInt < 0 := Int32.lt_iff_toInt_lt.mp h
  have hle := byteLength.le_toInt
  omega

/--
**Negative lengths.**  Any memory, any pointers and any negative length: the
length becomes 2^64 more, `MemCpy` and every `MemSet` end at an access that is
not allowed unless all bytes of that length are, and `MemCmp` unless the first
eight bytes of both ranges are.
-/
theorem negative_length (acc : Access) (m : Mem) (dst src : UInt64)
    (dstOffset srcOffset : Int32) {byteLength : Int32} (h : byteLength < 0) :
    ((ulong byteLength).toNat : Int) = 2 ^ 64 + byteLength.toInt ∧
      Needs acc m (memCpy dst dstOffset src srcOffset byteLength)
        (acc.ReadsAll (src + ulong srcOffset) (ulong byteLength).toNat ∧
          acc.WritesAll (dst + ulong dstOffset) (ulong byteLength).toNat) ∧
      (∀ ulongValue, Needs acc m (memSet dst dstOffset ulongValue byteLength)
        (acc.WritesAll (dst + ulong dstOffset) (ulong byteLength).toNat)) ∧
      (∀ byteValue, Needs acc m (memSetByte dst dstOffset byteValue byteLength)
        (acc.WritesAll (dst + ulong dstOffset) (ulong byteLength).toNat)) ∧
      (∀ shortValue, Needs acc m (memSetShort dst dstOffset shortValue byteLength)
        (acc.WritesAll (dst + ulong dstOffset) (ulong byteLength).toNat)) ∧
      (∀ intValue, Needs acc m (memSetInt dst dstOffset intValue byteLength)
        (acc.WritesAll (dst + ulong dstOffset) (ulong byteLength).toNat)) ∧
      Needs acc m (memCmp dst dstOffset src srcOffset byteLength)
        (acc.ReadsAll (dst + ulong dstOffset) 8 ∧ acc.ReadsAll (src + ulong srcOffset) 8) := by
  have hlength := toNat_ulong_neg h
  have hle := byteLength.le_toInt
  have hset := @memSet_needs acc m dst dstOffset byteLength
  exact ⟨hlength, memCpy_needs dst src dstOffset srcOffset byteLength, hset,
    fun byteValue => hset (bytePattern byteValue),
    fun shortValue => hset (shortPattern shortValue), fun intValue => hset (intPattern intValue),
    memCmp_needs dst src dstOffset srcOffset byteLength (by omega)⟩

/-! ### Length -1 -/

theorem Needs.faults {α : Type} {acc : Access} {m : Mem} {routine : Raw α} {bytes : Prop}
    (h : Needs acc m routine bytes) (hnot : ¬bytes) : routine acc m = .error .access :=
  h.resolve_right fun ⟨_, _, hbytes⟩ => hnot hbytes

/-- The 64 bytes from 64 on may be read and written. -/
def Access.page : Access := .only 64 64 64 (by decide) (by decide)

theorem not_writesAll_page : ¬Access.page.WritesAll 64 (ulong (-1)).toNat :=
  fun h => absurd (h 64 (by decide)) (by decide)

theorem not_readsAll_page : ¬Access.page.ReadsAll 124 8 :=
  fun h => absurd (h 4 (by decide)) (by decide)

/-- With length -1 every routine leaves that page. -/
theorem negative_length_page :
    let m : Mem := fun _ => 0
    memCpy 64 0 124 0 (-1) .page m = .error .access ∧
      memSet 64 0 7 (-1) .page m = .error .access ∧
      memSetByte 64 0 7 (-1) .page m = .error .access ∧
      memSetShort 64 0 7 (-1) .page m = .error .access ∧
      memSetInt 64 0 7 (-1) .page m = .error .access ∧
      memCmp 64 0 124 0 (-1) .page m = .error .access := by
  obtain ⟨_, hcpy, hset, hbyte, hshort, hint, hcmp⟩ :=
    negative_length .page (fun _ => 0) 64 124 0 0 (show (-1 : Int32) < 0 by decide)
  exact ⟨hcpy.faults fun h => not_writesAll_page h.2, (hset 7).faults not_writesAll_page,
    (hbyte 7).faults not_writesAll_page, (hshort 7).faults not_writesAll_page,
    (hint 7).faults not_writesAll_page, hcmp.faults fun h => not_readsAll_page h.2⟩

/-- No byte may be read or written. -/
def Access.sealed : Access := .only 0 0 0 (by decide) (by decide)

theorem not_writesAll_sealed (p : UInt64) : ¬Access.sealed.WritesAll p (ulong (-1)).toNat := by
  intro h
  have hbyte := h 0 (by decide)
  simp only [Access.sealed, Access.only, decide_eq_true_eq] at hbyte
  omega

theorem not_readsAll_sealed (p : UInt64) : ¬Access.sealed.ReadsAll p 8 := by
  intro h
  have hbyte := h 0 (by decide)
  simp only [Access.sealed, Access.only, decide_eq_true_eq] at hbyte
  omega

/-- In sealed memory length 0 is harmless and length -1 is not. -/
theorem length_minus_one :
    let m : Mem := fun _ => 0
    (memCpy 64 0 96 0 0 .sealed m = .ok ((), m) ∧ memSet 64 0 0 0 .sealed m = .ok ((), m) ∧
      memCmp 64 0 96 0 0 .sealed m = .ok (true, m)) ∧
    (memCpy 64 0 96 0 (-1) .sealed m = .error .access ∧
      memSet 64 0 0 (-1) .sealed m = .error .access ∧
      memCmp 64 0 96 0 (-1) .sealed m = .error .access) :=
  ⟨⟨rfl, rfl, rfl⟩,
    (memCpy_needs 64 96 0 0 (-1)).faults fun h => not_writesAll_sealed _ h.2,
    (memSet_needs 64 0 (-1) 0).faults (not_writesAll_sealed _),
    (memCmp_needs 64 96 0 0 (-1) (by decide)).faults fun h => not_readsAll_sealed _ h.1⟩

end SockLynx.Util
