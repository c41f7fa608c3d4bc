import SockLynx.Lib.Blocks

/-!
# Arrays of blocks in memory

An array lies in memory block after block.  Whoever reads it with the block size
it was stored with finds the blocks again, and nobody who stores one disturbs
the bytes around it.

A word is also an array, of its two halves: `readLE_add` splits a read of `a + b`
bytes, which is what one sees of a struct through the layout of another.

## Main results

* `loadArray_storeArray` — an array reads back.
* `storeArray_frame` — the bytes around an array stay.
* `readLE_add` — a word by its low and its high bytes.
-/

namespace SockLynx.Lib.Arrays

open SockLynx.Lib.Blocks
open SockLynx.Lib.Words

variable {n : Nat}

/-- Store the blocks from `p` on. -/
def storeArray (m : Mem) (p : Nat) : List (Block n) → Mem
  | [] => m
  | v :: vs => storeArray (blit m p v.toList) (p + n) vs

/-- The `k` blocks of `n` bytes from `p` on. -/
def loadArray (n : Nat) (m : Mem) (p : Nat) : Nat → List (Block n)
  | 0 => []
  | k + 1 => Block.load n m p :: loadArray n m (p + n) k

theorem storeArray_frame {m : Mem} {p a : Nat} {vs : List (Block n)}
    (h : a < p ∨ p + n * vs.length ≤ a) : storeArray m p vs a = m a := by
  induction vs generalizing m p with
  | nil => rfl
  | cons v vs ih =>
      have hlen : n * (v :: vs).length = n + n * vs.length := by
        rw [List.length_cons, Nat.mul_succ, Nat.add_comm]
      rw [hlen] at h
      have hrest := ih (m := blit m p v.toList) (p := p + n) (by omega)
      have hv : v.toList.length = n := Vector.length_toList
      rw [storeArray, hrest]
      apply blit_frame
      rw [hv]
      omega

/-- A block that was just stored reads back. -/
theorem load_blit_self (m : Mem) (p : Nat) (v : Block n) :
    Block.load n (blit m p v.toList) p = v := by
  have hv : v.toList.length = n := Vector.length_toList
  apply Vector.ext
  intro a ha
  rw [← Block.mem_of_lt ha, Block.mem_load ha, blit_apply (by omega)]
  exact Vector.getElem_toList _

/-- **An array reads back.** -/
theorem loadArray_storeArray (m : Mem) (p : Nat) (vs : List (Block n)) :
    loadArray n (storeArray m p vs) p vs.length = vs := by
  induction vs generalizing m p with
  | nil => rfl
  | cons v vs ih =>
      have hhead : Block.load n (storeArray m p (v :: vs)) p = v := by
        calc Block.load n (storeArray m p (v :: vs)) p
            = Block.load n (blit m p v.toList) p := by
              apply Block.load_congr
              intro a _ hlt
              exact storeArray_frame (Or.inl hlt)
          _ = v := load_blit_self m p v
      rw [List.length_cons, loadArray, hhead]
      exact congrArg (v :: ·) (ih (blit m p v.toList) (p + n))

/-! ## Halves of a word -/

/-- The low `a` bytes of a word, and the `b` bytes after them. -/
theorem readLE_add (m : Mem) (p a b : Nat) :
    readLE m p (a + b) = readLE m p a + 256 ^ a * readLE m (p + a) b := by
  induction a generalizing p with
  | zero => simp [readLE]
  | succ a ih =>
      have hrest := ih (p + 1)
      rw [show a + 1 + b = (a + b) + 1 by omega, readLE, hrest, readLE,
        show p + 1 + a = p + (a + 1) by omega, Nat.pow_succ, Nat.mul_add, ← Nat.mul_assoc,
        Nat.mul_comm 256 (256 ^ a)]
      omega

end SockLynx.Lib.Arrays
