import SockLynx.Lib.Moves
import SockLynx.Model.Util

/-!
# The accesses of the memory routines

A length of `N` bytes is split into words of eight bytes and a rest of less
than eight, for which one or two narrower accesses are made.  `chunks N` lists
these accesses.  `MemCpy` and every `MemSet` copy them one after the other,
`MemCmp` compares them until two differ, whatever the 64-bit length is: also
the one that a negative `byteLength` is cast to.

## Main results

* `chunks_covers` — the accesses touch the `N` bytes and no others.
* `eachWord_eq` — the loop of a routine ends after the words of the length.
* `memCpy_eq`, `memSet_eq`, `memCmp_eq` — the routines as runs over `chunks`.
-/

namespace SockLynx.Util

open SockLynx.Lib.Words
open SockLynx.Lib.Moves

/-! ## Computations -/

section Computations

variable {α β : Type} {acc : Access} {m : Mem}

@[simp] theorem Raw.pure_apply (x : α) : (pure x : Raw α) acc m = .ok (x, m) := rfl

theorem Raw.bind_apply (c : Raw α) (f : α → Raw β) :
    (c >>= f) acc m =
      match c acc m with
      | .error fault => .error fault
      | .ok (x, m') => f x acc m' := rfl

theorem Raw.bind_ok {c : Raw α} {f : α → Raw β} {x : α} {m' : Mem} (h : c acc m = .ok (x, m')) :
    (c >>= f) acc m = f x acc m' := by
  rw [Raw.bind_apply, h]

theorem Raw.bind_error {c : Raw α} {f : α → Raw β} {fault : Fault}
    (h : c acc m = .error fault) : (c >>= f) acc m = .error fault := by
  rw [Raw.bind_apply, h]

instance : LawfulMonad Raw := by
  refine LawfulMonad.mk' Raw (fun c => ?_) (fun x f => rfl) (fun c f g => ?_)
  · funext acc m
    show (c >>= pure) acc m = c acc m
    rw [Raw.bind_apply]
    cases c acc m <;> rfl
  · funext acc m
    simp only [Raw.bind_apply]
    cases c acc m <;> rfl

end Computations

/-! ## The chunks of a length -/

/-- The one or two accesses for a rest of `r` bytes from `o` on. -/
def tailChunks (o : Nat) : Nat → List Chunk
  | 1 => [⟨o, 1⟩]
  | 2 => [⟨o, 2⟩]
  | 3 => [⟨o, 2⟩, ⟨o + 1, 2⟩]
  | 4 => [⟨o, 4⟩]
  | 5 => [⟨o, 4⟩, ⟨o + 1, 4⟩]
  | 6 => [⟨o, 4⟩, ⟨o + 2, 4⟩]
  | 7 => [⟨o, 4⟩, ⟨o + 3, 4⟩]
  | _ => []

/-- The accesses for a length of `n` bytes. -/
def chunks (n : Nat) : List Chunk := ladder 8 0 (n / 8) ++ tailChunks (8 * (n / 8)) (n % 8)

/-- From eight bytes on the first access is a word at the start. -/
theorem chunks_of_le {n : Nat} (h : 8 ≤ n) :
    chunks n =
      ⟨0, 8⟩ :: (ladder 8 8 (n / 8 - 1) ++ tailChunks (8 * (n / 8)) (n % 8)) := by
  obtain ⟨q, hq⟩ : ∃ q, n / 8 = q + 1 := ⟨n / 8 - 1, by omega⟩
  rw [chunks, hq, ladder]
  rfl

theorem lt_eight_cases {r : Nat} (h : r < 8) :
    r = 0 ∨ r = 1 ∨ r = 2 ∨ r = 3 ∨ r = 4 ∨ r = 5 ∨ r = 6 ∨ r = 7 := by omega

theorem tailChunks_has_iff {o r k : Nat} (hr : r < 8) :
    (∃ c ∈ tailChunks o r, c.Has k) ↔ o ≤ k ∧ k < o + r := by
  rcases lt_eight_cases hr with rfl | rfl | rfl | rfl | rfl | rfl | rfl | rfl <;>
    simp only [tailChunks, List.mem_cons, List.not_mem_nil, or_false, exists_eq_or_imp,
      exists_eq_left, Chunk.Has, false_and, exists_false, false_iff] <;>
    omega

/-- The accesses touch the `n` bytes and no others. -/
theorem chunks_covers (n : Nat) : Covers (chunks n) n := by
  intro k
  have hr : n % 8 < 8 := Nat.mod_lt n (by omega)
  have hsplit : (∃ c ∈ chunks n, c.Has k) ↔
      (∃ c ∈ ladder 8 0 (n / 8), c.Has k) ∨
        ∃ c ∈ tailChunks (8 * (n / 8)) (n % 8), c.Has k := by
    simp only [chunks, List.mem_append, or_and_right, exists_or]
  rw [hsplit, ladder_has_iff, tailChunks_has_iff hr]
  omega

theorem tailChunks_width {o r : Nat} {c : Chunk} (h : c ∈ tailChunks o r) : 0 < c.width := by
  unfold tailChunks at h
  split at h <;> simp only [List.mem_cons, List.not_mem_nil, or_false] at h
  all_goals rcases h with rfl | rfl <;> simp

/-- An access touches at least one byte, and only bytes of the length. -/
theorem chunks_bounds {n : Nat} {c : Chunk} (h : c ∈ chunks n) :
    0 < c.width ∧ c.offset + c.width ≤ n := by
  have hwidth : 0 < c.width := by
    rcases List.mem_append.mp h with h | h
    · have hw := (ladder_bounds h).2.2
      omega
    · exact tailChunks_width h
  have hlast := (chunks_covers n (c.offset + c.width - 1)).mp ⟨c, h, by omega, by omega⟩
  omega

/-! ## Lengths and limits -/

/-- The loop ends at the last multiple of eight. -/
theorem toNat_writeLimit (n : UInt64) : (n &&& ~~~7).toNat = 8 * (n.toNat / 8) := by
  have hlt : n.toNat < 2 ^ 64 := n.toNat_lt
  have hmask : (~~~7 : UInt64).toNat = (2 ^ 61 - 1) <<< 3 := by decide
  have hshift : 8 * (n.toNat / 8) = (n.toNat >>> 3) <<< 3 := by
    rw [Nat.shiftLeft_eq, Nat.shiftRight_eq_div_pow]
    omega
  rw [UInt64.toNat_and, hmask, hshift]
  apply Nat.eq_of_testBit_eq
  intro i
  rw [Nat.testBit_and, Nat.testBit_shiftLeft, Nat.testBit_shiftLeft, Nat.testBit_shiftRight,
    Nat.testBit_two_pow_sub_one]
  by_cases hi : 3 ≤ i
  · have hback : 3 + (i - 3) = i := by omega
    by_cases hbit : i < 64
    · have hmasked : i - 3 < 61 := by omega
      simp [hi, hback, hmasked]
    · have hzero : n.toNat.testBit i = false := by
        apply Nat.testBit_lt_two_pow
        exact Nat.lt_of_lt_of_le hlt (Nat.pow_le_pow_right (by omega) (by omega))
      simp [hback, hzero]
  · simp [hi]

theorem toNat_rest (n : UInt64) : (n &&& 7).toNat = n.toNat % 8 := by
  have h7 : (7 : UInt64).toNat = 2 ^ 3 - 1 := rfl
  rw [UInt64.toNat_and, h7, Nat.and_two_pow_sub_one_eq_mod]

theorem writeLimit_eq (n : UInt64) : n &&& ~~~7 = UInt64.ofNat (8 * (n.toNat / 8)) := by
  rw [← toNat_writeLimit, UInt64.ofNat_toNat]

theorem rest_eq (n : UInt64) : n &&& 7 = UInt64.ofNat (n.toNat % 8) := by
  rw [← toNat_rest, UInt64.ofNat_toNat]

/-! ## Loops -/

/-- `count` rounds of a loop over words, from offset `o` on. -/
def wordsFrom (body : UInt64 → Raw Bool) : Nat → Nat → Raw Bool
  | _, 0 => return true
  | o, count + 1 => do
      if ← body (UInt64.ofNat o) then wordsFrom body (o + 8) count else return false

theorem forWords_eq {limit : UInt64} {body : UInt64 → Raw Bool} {o count : Nat}
    (h : limit.toNat = o + 8 * count) :
    forWords limit body (count + 1) (UInt64.ofNat o) = wordsFrom body o count := by
  have hlt : limit.toNat < 2 ^ 64 := limit.toNat_lt
  induction count generalizing o with
  | zero =>
      have hge : ¬UInt64.ofNat o < limit := by
        rw [UInt64.lt_iff_toNat_lt, UInt64.toNat_ofNat_of_lt' (by simp only [UInt64.size]; omega)]
        omega
      rw [forWords, if_neg hge, wordsFrom]
  | succ count ih =>
      have hcursor : UInt64.ofNat o < limit := by
        rw [UInt64.lt_iff_toNat_lt, UInt64.toNat_ofNat_of_lt' (by simp only [UInt64.size]; omega)]
        omega
      have hnext : UInt64.ofNat o + 8 = UInt64.ofNat (o + 8) := (UInt64.ofNat_add o 8).symm
      rw [forWords, if_pos hcursor, wordsFrom, hnext, ih (by omega)]

/-- The loop of a routine ends after the words of the length. -/
theorem eachWord_eq (n : UInt64) (body : UInt64 → Raw Bool) :
    eachWord (n &&& ~~~7) body = wordsFrom body 0 (n.toNat / 8) := by
  have hlimit : (n &&& ~~~7).toNat = 0 + 8 * (n.toNat / 8) := by
    rw [toNat_writeLimit, Nat.zero_add]
  have hcount : (n &&& ~~~7).toNat / 8 = n.toNat / 8 := by omega
  rw [eachWord, hcount]
  exact forWords_eq hlimit

/-! ## Copies -/

/-- Copy chunk by chunk; the source pointer depends on the offset. -/
def copyChunks (pdst : UInt64) (psrc : Nat → BytePtr) : List Chunk → Raw Unit
  | [] => return ()
  | c :: cs => do
      copyWord c.width (pdst + UInt64.ofNat c.offset) (psrc c.offset)
      copyChunks pdst psrc cs

section Copies

variable {pdst : UInt64} {psrc : Nat → BytePtr}

theorem copyChunks_append (xs ys : List Chunk) :
    copyChunks pdst psrc (xs ++ ys) =
      (copyChunks pdst psrc xs >>= fun _ => copyChunks pdst psrc ys) := by
  induction xs with
  | nil => rfl
  | cons c xs ih =>
      rw [List.cons_append, copyChunks, copyChunks, ih, bind_assoc]

/-- A copying loop, the source pointer of each round given. -/
theorem wordsFrom_copy {source : UInt64 → BytePtr} {i count : Nat}
    (h : ∀ j, source (UInt64.ofNat (8 * j)) = psrc (8 * j)) :
    wordsFrom (fun cursor => do
        copy8 (pdst + cursor) (source cursor)
        return true) (8 * i) count =
      (copyChunks pdst psrc (ladder 8 (8 * i) count) >>= fun _ => return true) := by
  induction count generalizing i with
  | zero => rfl
  | succ count ih =>
      have hnext : 8 * i + 8 = 8 * (i + 1) := by omega
      rw [wordsFrom, ladder, copyChunks, bind_assoc, bind_assoc, h, hnext, ih]
      rfl

theorem copyChunks_one (o width : Nat) :
    copyChunks pdst psrc [⟨o, width⟩] = copyWord width (pdst + UInt64.ofNat o) (psrc o) :=
  bind_pure_unit

theorem copyChunks_two (o d width : Nat) :
    copyChunks pdst psrc [⟨o, width⟩, ⟨o + d, width⟩] =
      (copyWord width (pdst + UInt64.ofNat o) (psrc o) >>= fun _ =>
        copyWord width (pdst + UInt64.ofNat (o + d)) (psrc (o + d))) := by
  rw [copyChunks, copyChunks_one]

/-- The two accesses of a pair. -/
theorem copyPair_eq {source : BytePtr} {o d width : Nat} (h0 : source + (0 : UInt64) = psrc o)
    (hd : source + UInt64.ofNat d = psrc (o + d)) :
    copyPair width (UInt64.ofNat d) (pdst + UInt64.ofNat o) source =
      copyChunks pdst psrc [⟨o, width⟩, ⟨o + d, width⟩] := by
  have hdst : pdst + UInt64.ofNat o + UInt64.ofNat d = pdst + UInt64.ofNat (o + d) := by
    rw [UInt64.add_assoc, ← UInt64.ofNat_add]
  rw [copyChunks_two, copyPair, h0, hd, hdst, UInt64.add_zero]

/-- The `switch`, the source pointer of each access given. -/
theorem copyTail_eq {source : BytePtr} {o r : Nat} (hr : r < 8) (h : source = psrc o)
    (hd : ∀ d < 4, source + UInt64.ofNat d = psrc (o + d)) :
    copyTail (UInt64.ofNat r) (pdst + UInt64.ofNat o) source =
      copyChunks pdst psrc (tailChunks o r) := by
  have h0 := hd 0 (by omega)
  rcases lt_eight_cases hr with rfl | rfl | rfl | rfl | rfl | rfl | rfl | rfl
  · rfl
  · exact h ▸ (copyChunks_one o 1).symm
  · exact h ▸ (copyChunks_one o 2).symm
  · exact copyPair_eq h0 (hd 1 (by omega))
  · exact h ▸ (copyChunks_one o 4).symm
  · exact copyPair_eq h0 (hd 1 (by omega))
  · exact copyPair_eq h0 (hd 2 (by omega))
  · exact copyPair_eq h0 (hd 3 (by omega))

end Copies

/-- A routine that copies: the loop and then the `switch`. -/
theorem loop_copyTail_eq {pdst n : UInt64} {psrc : Nat → BytePtr} {source : UInt64 → BytePtr}
    {rest : BytePtr} (hsource : ∀ j, source (UInt64.ofNat (8 * j)) = psrc (8 * j))
    (hrest : rest = psrc (8 * (n.toNat / 8)))
    (hd : ∀ d < 4, rest + UInt64.ofNat d = psrc (8 * (n.toNat / 8) + d)) :
    (eachWord (n &&& ~~~7) (fun cursor => do
        copy8 (pdst + cursor) (source cursor)
        return true) >>= fun _ =>
      copyTail (n &&& 7) (pdst + (n &&& ~~~7)) rest) = copyChunks pdst psrc (chunks n.toNat) := by
  have hr : n.toNat % 8 < 8 := Nat.mod_lt _ (by omega)
  have hloop := @wordsFrom_copy pdst psrc source 0 (n.toNat / 8) hsource
  rw [eachWord_eq, hloop, bind_assoc, rest_eq, writeLimit_eq, copyTail_eq hr hrest hd, chunks,
    copyChunks_append]
  rfl

/-- `MemCpy` copies its chunks. -/
theorem memCpy_eq (dst : UInt64) (dstOffset : Int32) (src : UInt64)
    (srcOffset byteLength : Int32) :
    memCpy dst dstOffset src srcOffset byteLength =
      copyChunks (dst + ulong dstOffset)
        (fun o => .mem (src + ulong srcOffset + UInt64.ofNat o))
        (chunks (ulong byteLength).toNat) := by
  apply loop_copyTail_eq
  · intro j
    rfl
  · rw [writeLimit_eq]
  · intro d _
    show BytePtr.mem (_ + UInt64.ofNat d) = _
    rw [writeLimit_eq, UInt64.add_assoc, ← UInt64.ofNat_add]

/-- `MemSet` copies its chunks, the source of each at the same offset in its
word. -/
theorem memSet_eq (dst : UInt64) (dstOffset : Int32) (ulongValue : UInt64)
    (byteLength : Int32) :
    memSet dst dstOffset ulongValue byteLength =
      copyChunks (dst + ulong dstOffset) (fun o => .ofLocal ulongValue (UInt64.ofNat (o % 8)))
        (chunks (ulong byteLength).toNat) := by
  refine @loop_copyTail_eq _ _ _ (fun _ => .ofLocal ulongValue 0) _ ?_ ?_ ?_
  · intro j
    rw [Nat.mul_mod_right]
    rfl
  · rw [Nat.mul_mod_right]
    rfl
  · intro d hd
    have hmod : (8 * ((ulong byteLength).toNat / 8) + d) % 8 = d := by omega
    show BytePtr.ofLocal _ (0 + UInt64.ofNat d) = _
    rw [hmod, UInt64.zero_add]

/-! ## Comparisons -/

/-- Compare chunk by chunk, until two differ. -/
def cmpChunks (pdst psrc : UInt64) : List Chunk → Raw Bool
  | [] => return true
  | c :: cs => do
      if ← cmpWord c.width (pdst + UInt64.ofNat c.offset) (psrc + UInt64.ofNat c.offset) then
        cmpChunks pdst psrc cs
      else return false

section Comparisons

variable {pdst psrc : UInt64}

/-- Go on with `d` if `c` returns true. -/
theorem Raw.ite_bind {α : Type} (c : Raw Bool) (d : Raw Bool) (f : Bool → Raw α) :
    ((do if ← c then d else return false) >>= f) =
      c >>= fun x => if x then d >>= f else f false := by
  rw [bind_assoc]
  congr 1
  funext x
  cases x <;> rfl

theorem cmpChunks_append (xs ys : List Chunk) :
    cmpChunks pdst psrc (xs ++ ys) =
      (cmpChunks pdst psrc xs >>= fun x => if x then cmpChunks pdst psrc ys else return false) := by
  induction xs with
  | nil => rfl
  | cons c xs ih =>
      rw [List.cons_append, cmpChunks, cmpChunks, Raw.ite_bind, ih]
      rfl

theorem wordsFrom_cmp {i count : Nat} :
    wordsFrom (fun cursor => cmp8 (pdst + cursor) (psrc + cursor)) i count =
      cmpChunks pdst psrc (ladder 8 i count) := by
  induction count generalizing i with
  | zero => rfl
  | succ count ih =>
      rw [wordsFrom, ladder, cmpChunks, ih]
      rfl

theorem cmpChunks_one (o width : Nat) :
    cmpChunks pdst psrc [⟨o, width⟩] =
      cmpWord width (pdst + UInt64.ofNat o) (psrc + UInt64.ofNat o) := by
  have hreturn : (fun x : Bool => if x = true then cmpChunks pdst psrc [] else pure false) =
      (pure : Bool → Raw Bool) := by
    funext x
    cases x <;> rfl
  rw [cmpChunks, hreturn, bind_pure]

theorem cmpPair_eq (o d width : Nat) :
    cmpPair width (UInt64.ofNat d) (pdst + UInt64.ofNat o) (psrc + UInt64.ofNat o) =
      cmpChunks pdst psrc [⟨o, width⟩, ⟨o + d, width⟩] := by
  have hadd : ∀ p : UInt64, p + UInt64.ofNat o + UInt64.ofNat d = p + UInt64.ofNat (o + d) := by
    intro p
    rw [UInt64.add_assoc, ← UInt64.ofNat_add]
  rw [cmpChunks, cmpChunks_one, cmpPair, UInt64.add_zero, UInt64.add_zero, hadd, hadd]

theorem cmpTail_eq {o r : Nat} (hr : r < 8) :
    cmpTail (UInt64.ofNat r) (pdst + UInt64.ofNat o) (psrc + UInt64.ofNat o) =
      cmpChunks pdst psrc (tailChunks o r) := by
  rcases lt_eight_cases hr with rfl | rfl | rfl | rfl | rfl | rfl | rfl | rfl
  · rfl
  · exact (cmpChunks_one o 1).symm
  · exact (cmpChunks_one o 2).symm
  · exact cmpPair_eq o 1 2
  · exact (cmpChunks_one o 4).symm
  · exact cmpPair_eq o 1 4
  · exact cmpPair_eq o 2 4
  · exact cmpPair_eq o 3 4

end Comparisons

/-- `MemCmp` compares its chunks. -/
theorem memCmp_eq (dst : UInt64) (dstOffset : Int32) (src : UInt64)
    (srcOffset byteLength : Int32) :
    memCmp dst dstOffset src srcOffset byteLength =
      cmpChunks (dst + ulong dstOffset) (src + ulong srcOffset)
        (chunks (ulong byteLength).toNat) := by
  have hr : (ulong byteLength).toNat % 8 < 8 := Nat.mod_lt _ (by omega)
  rw [memCmp, eachWord_eq, wordsFrom_cmp, rest_eq, writeLimit_eq, cmpTail_eq hr, chunks,
    cmpChunks_append]

end SockLynx.Util
