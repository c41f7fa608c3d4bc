import SockLynx.Lib.Words

/-!
# Blocks of bytes with fields at fixed offsets

A `Block n` is `n` bytes: the content of a struct whatever language declares
it.  A field is an offset and a size, so two declarations that overlay the
same bytes are two ways of reading one block, and fields of one declaration
may overlap.

## Main results

* `word_setWord_self`, `sub_store_self` — a field reads back what was written.
* `word_setWord_of_disjoint` and its three siblings — a write is invisible to
  fields that share no byte with it.
-/

namespace SockLynx.Lib.Blocks

open SockLynx.Lib.Words

/-- `n` bytes. -/
abbrev Block (n : Nat) := Vector UInt8 n

namespace Block

variable {n : Nat}

/-- The block as a memory that starts at address 0, zero past its end. -/
def mem (v : Block n) : Mem := fun a => v[a]?.getD 0

/-- The `n` bytes of a memory from `p` on. -/
def load (n : Nat) (m : Mem) (p : Nat) : Block n := Vector.ofFn fun k => m (p + k)

/-- The unsigned little-endian field of `size` bytes at `off`. -/
def word (v : Block n) (off size : Nat) : Nat := readLE v.mem off size

/-- Assign to the field of `size` bytes at `off`. -/
def setWord (v : Block n) (off size x : Nat) : Block n := load n (writeLE v.mem off size x) 0

/-- The block of `k` bytes inside `v` at `off`. -/
def sub (v : Block n) (off k : Nat) : Block k := load k v.mem off

/-- Store the bytes `bs` at `off`; what does not fit is dropped. -/
def store (v : Block n) (off : Nat) (bs : List UInt8) : Block n := load n (blit v.mem off bs) 0

/-- All bytes zero, the `default` of a struct. -/
def zero (n : Nat) : Block n := Vector.replicate n 0

/-! ## Byte by byte -/

theorem mem_of_lt {v : Block n} {a : Nat} (h : a < n) : v.mem a = v[a] := by
  simp [mem, h]

theorem mem_of_le {v : Block n} {a : Nat} (h : n ≤ a) : v.mem a = 0 := by
  simp [mem, h]

@[simp] theorem mem_zero (a : Nat) : (zero n).mem a = 0 := by
  by_cases h : a < n
  · rw [mem_of_lt h]
    simp [zero]
  · exact mem_of_le (by omega)

theorem mem_load {m : Mem} {p a : Nat} (h : a < n) : (load n m p).mem a = m (p + a) := by
  rw [mem_of_lt h]
  simp [load]

/-- A loaded block depends on the bytes it covers only. -/
theorem load_congr {m m' : Mem} {p : Nat} (h : ∀ a, p ≤ a → a < p + n → m a = m' a) :
    load n m p = load n m' p := by
  unfold load
  congr 1
  funext k
  exact h _ (by omega) (by omega)

theorem mem_setWord_frame {v : Block n} {off size x a : Nat} (h : a < off ∨ off + size ≤ a) :
    (v.setWord off size x).mem a = v.mem a := by
  by_cases ha : a < n
  · rw [setWord, mem_load ha, Nat.zero_add, writeLE_frame h]
  · rw [mem_of_le (by omega), mem_of_le (by omega)]

theorem mem_store_frame {v : Block n} {off a : Nat} {bs : List UInt8}
    (h : a < off ∨ off + bs.length ≤ a) : (v.store off bs).mem a = v.mem a := by
  by_cases ha : a < n
  · rw [store, mem_load ha, Nat.zero_add, blit_frame h]
  · rw [mem_of_le (by omega), mem_of_le (by omega)]

theorem mem_store_apply (v : Block n) (off : Nat) {k : Nat} {bs : List UInt8}
    (hn : off + k < n) (h : k < bs.length) : (v.store off bs).mem (off + k) = bs[k] := by
  rw [store, mem_load (by omega), Nat.zero_add, blit_apply h]

/-- Loading what was just stored. -/
theorem load_blit (m : Mem) (p : Nat) (bs : List UInt8) :
    load n (blit m p bs) p = (load n m p).store 0 bs := by
  refine Vector.ext fun a ha => ?_
  rw [← mem_of_lt ha, ← mem_of_lt ha, mem_load ha]
  by_cases h : a < bs.length
  · have hstored := mem_store_apply (load n m p) 0 (by omega) h
    rw [blit_apply h, ← hstored, Nat.zero_add]
  · rw [blit_frame (by omega), mem_store_frame (by omega), mem_load ha]

/-- The bytes that were stored at the front. -/
theorem take_store (v : Block n) {bs : List UInt8} (h : bs.length ≤ n) :
    (v.store 0 bs).toList.take bs.length = bs := by
  refine List.ext_getElem (by simp [h]) fun k _ hk => ?_
  have hget := mem_store_apply v 0 (by omega) hk
  rw [Nat.zero_add, mem_of_lt (by omega)] at hget
  simpa using hget

/-! ## Fields -/

theorem word_lt (v : Block n) (off size : Nat) : v.word off size < 256 ^ size :=
  readLE_lt _ _ _

theorem word_one (v : Block n) (off : Nat) : v.word off 1 = (v.mem off).toNat := by
  simp [word, readLE]

theorem word_two (v : Block n) (off : Nat) :
    v.word off 2 = (v.mem off).toNat + 256 * (v.mem (off + 1)).toNat := by
  simp [word, readLE]

/-- The second byte of a two-byte field. -/
theorem word_high (v : Block n) (off : Nat) : v.word (off + 1) 1 = v.word off 2 / 256 := by
  have hlow := (v.mem off).toNat_lt
  rw [word_one, word_two]
  omega

@[simp] theorem word_zero (off size : Nat) : (zero n).word off size = 0 := by
  induction size generalizing off with
  | zero => rfl
  | succ size ih =>
      have hrest : readLE (zero n).mem (off + 1) size = 0 := ih (off + 1)
      simp [word, readLE, hrest]

/-- A field reads back the part of the value that fits. -/
theorem word_setWord_self {v : Block n} {off size : Nat} (x : Nat) (h : off + size ≤ n) :
    (v.setWord off size x).word off size = x % 256 ^ size := by
  rw [← readLE_writeLE_self v.mem off size x]
  refine readLE_congr fun a _ ha => ?_
  rw [setWord, mem_load (by omega), Nat.zero_add]

theorem word_setWord_of_disjoint {v : Block n} {off size x off' size' : Nat}
    (h : off' + size' ≤ off ∨ off + size ≤ off') :
    (v.setWord off size x).word off' size' = v.word off' size' :=
  readLE_congr fun _ _ _ => mem_setWord_frame (by omega)

theorem word_store_of_disjoint {v : Block n} {off off' size' : Nat} {bs : List UInt8}
    (h : off' + size' ≤ off ∨ off + bs.length ≤ off') :
    (v.store off bs).word off' size' = v.word off' size' :=
  readLE_congr fun _ _ _ => mem_store_frame (by omega)

/-- A block inside reads back what was stored. -/
theorem sub_store_self {v : Block n} {off k : Nat} (s : Block k) (h : off + k ≤ n) :
    (v.store off s.toList).sub off k = s := by
  refine Vector.ext fun a ha => ?_
  have hlen : s.toList.length = k := by simp
  rw [← mem_of_lt ha, sub, mem_load ha, mem_store_apply v off (by omega) (by omega)]
  simp

end Block

end SockLynx.Lib.Blocks
