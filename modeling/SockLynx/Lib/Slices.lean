import Mathlib.Data.List.OfFn
import SockLynx.Lib.Blocks
import SockLynx.Lib.ByteOrder

/-!
# Memory as lists of bytes

`slice m p n` lists the `n` bytes from `p` on.  What is stored word by word
under one declaration and handed over as raw bytes is read here: a slice is cut
anywhere, the slice of a word is the list of its little-endian bytes, and the
slice of an array is the slices of its elements.

## Main results

* `slice_add` — two slices in a row.
* `slice_readLE` — the slice of a word.
* `slice_mul` — the slice of an array.
* `slice_toList`, `take_eq_slice` — the slices of a block.
-/

namespace SockLynx.Lib.Slices

open SockLynx.Lib.Blocks
open SockLynx.Lib.ByteOrder
open SockLynx.Lib.Words

/-- The `n` bytes from `p` on. -/
def slice (m : Mem) (p : Nat) : Nat → List UInt8
  | 0 => []
  | n + 1 => m p :: slice m (p + 1) n

section Memory

variable (m : Mem) (p : Nat)

@[simp] theorem length_slice (n : Nat) : (slice m p n).length = n := by
  induction n generalizing p with
  | zero => rfl
  | succ n ih => rw [slice, List.length_cons, ih]

theorem getElem_slice {n k : Nat} (h : k < (slice m p n).length) :
    (slice m p n)[k] = m (p + k) := by
  induction n generalizing p k with
  | zero => simp [slice] at h
  | succ n ih =>
      cases k with
      | zero => rfl
      | succ k =>
          have hk : k < (slice m (p + 1) n).length := by simpa [slice] using h
          calc
            (slice m p (n + 1))[k + 1] = (slice m (p + 1) n)[k] := rfl
            _ = m (p + 1 + k) := ih (p + 1) hk
            _ = m (p + (k + 1)) := by rw [Nat.add_assoc, Nat.add_comm 1 k]

/-- A slice is cut anywhere. -/
theorem slice_add (a b : Nat) : slice m p (a + b) = slice m p a ++ slice m (p + a) b := by
  induction a generalizing p with
  | zero => simp [slice]
  | succ a ih => rw [Nat.succ_add, slice, slice, ih, List.cons_append, Nat.succ_add_eq_add_succ]

/-- The slice of a word. -/
theorem slice_readLE (n : Nat) : slice m p n = bytesLE n (readLE m p n) := by
  induction n generalizing p with
  | zero => rfl
  | succ n ih =>
      rw [slice, ih, readLE, bytesLE_digit n _ (m p).toNat_lt, UInt8.ofNat_toNat]

/-- The slice of an array whose elements take `w` bytes. -/
theorem slice_mul (w n : Nat) :
    slice m p (w * n) = (List.ofFn fun k : Fin n => slice m (p + w * k) w).flatten := by
  induction n generalizing p with
  | zero => rfl
  | succ n ih =>
      have hrest : (fun k : Fin n => slice m (p + w + w * k) w) =
          fun k : Fin n => slice m (p + w * k.succ) w := by
        funext k
        rw [Fin.val_succ, Nat.mul_succ, Nat.add_assoc, Nat.add_comm w]
      rw [Nat.mul_succ, Nat.add_comm, slice_add, ih, hrest, List.ofFn_succ, List.flatten_cons]
      rfl

theorem slice_eq_replicate {n : Nat} {x : UInt8} (h : ∀ a, p ≤ a → a < p + n → m a = x) :
    slice m p n = List.replicate n x := by
  refine List.ext_getElem (by simp) fun k hk _ => ?_
  rw [length_slice] at hk
  rw [getElem_slice, List.getElem_replicate]
  exact h _ (by omega) (by omega)

end Memory

section Blocks

variable {n : Nat} (v : Block n)

/-- The first bytes of a block. -/
theorem take_eq_slice {k : Nat} (h : k ≤ n) : v.toList.take k = slice v.mem 0 k := by
  refine List.ext_getElem (by simp [h]) fun a ha _ => ?_
  have ha : a < n := by
    rw [List.length_take] at ha
    omega
  rw [getElem_slice, Nat.zero_add, Block.mem_of_lt ha]
  simp

/-- The bytes of a block inside a block. -/
theorem slice_toList (off k : Nat) : (v.sub off k).toList = slice v.mem off k := by
  refine List.ext_getElem (by simp) fun a ha _ => ?_
  rw [getElem_slice]
  simp [Block.sub, Block.load]

/-- The slice of a field. -/
theorem slice_word (off size : Nat) : slice v.mem off size = bytesLE size (v.word off size) :=
  slice_readLE v.mem off size

end Blocks

end SockLynx.Lib.Slices
