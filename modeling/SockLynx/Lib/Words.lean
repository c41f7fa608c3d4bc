import Mathlib.Algebra.Ring.Nat
import Mathlib.Logic.Function.Basic

/-!
# Little-endian words in byte memory

A memory is a function `Nat → UInt8`.  `readLE m p n` is the number whose `n`
little-endian bytes start at `p`, `writeLE m p n v` stores the `n` low bytes
of `v` there, and `blit m p bs` stores a list of bytes.  Reads of one width
and writes of another may overlap freely: everything is said byte by byte.

Clients need the frame lemmas (`writeLE_frame`, `blit_frame`), reading back
what was written (`readLE_writeLE_self`, `blit_apply`), that a read depends on
the bytes it covers only (`readLE_congr`), and that copying or comparing words
is copying or comparing bytes (`writeLE_readLE`, `readLE_eq_iff`).
-/

namespace SockLynx.Lib.Words

/-- A byte memory. -/
abbrev Mem := Nat → UInt8

/-- The number stored little-endian in the `n` bytes from `p` on. -/
def readLE (m : Mem) (p : Nat) : Nat → Nat
  | 0 => 0
  | n + 1 => (m p).toNat + 256 * readLE m (p + 1) n

/-- Store the `n` low bytes of `v` little-endian from `p` on. -/
def writeLE (m : Mem) (p : Nat) : Nat → Nat → Mem
  | 0, _ => m
  | n + 1, v =>
      Function.update (writeLE m (p + 1) n (v / 256)) p (UInt8.ofNat v)

/-- Store the bytes `bs` from `p` on. -/
def blit (m : Mem) (p : Nat) (bs : List UInt8) : Mem := fun a =>
  if h : p ≤ a ∧ a - p < bs.length then bs[a - p] else m a

/-! ## Words -/

theorem readLE_lt (m : Mem) (p n : Nat) : readLE m p n < 256 ^ n := by
  induction n generalizing p with
  | zero => simp [readLE]
  | succ n ih =>
      have hb : (m p).toNat < 256 := (m p).toNat_lt
      have hr := ih (p + 1)
      simp only [readLE, Nat.pow_succ]
      omega

/-- A read depends on the bytes it covers only. -/
theorem readLE_congr {m m' : Mem} {p n : Nat}
    (h : ∀ a, p ≤ a → a < p + n → m a = m' a) :
    readLE m p n = readLE m' p n := by
  induction n generalizing p with
  | zero => rfl
  | succ n ih =>
      have hp : m p = m' p := h p (Nat.le_refl p) (by omega)
      have hrest : readLE m (p + 1) n = readLE m' (p + 1) n :=
        ih fun a ha hlt => h a (by omega) (by omega)
      simp only [readLE, hp, hrest]

/-- A write changes the bytes it covers only. -/
theorem writeLE_frame {m : Mem} {p n v a : Nat} (h : a < p ∨ p + n ≤ a) :
    writeLE m p n v a = m a := by
  induction n generalizing p v with
  | zero => rfl
  | succ n ih =>
      have hne : a ≠ p := by omega
      rw [writeLE, Function.update_of_ne hne]
      exact ih (by omega)

/-- Reading back a word returns the part of the value that fits. -/
theorem readLE_writeLE_self (m : Mem) (p n v : Nat) :
    readLE (writeLE m p n v) p n = v % 256 ^ n := by
  induction n generalizing p v with
  | zero => simp [readLE, Nat.mod_one]
  | succ n ih =>
      have hrest : readLE (writeLE m p (n + 1) v) (p + 1) n =
          readLE (writeLE m (p + 1) n (v / 256)) (p + 1) n := by
        refine readLE_congr fun a ha _ => ?_
        have hne : a ≠ p := by omega
        rw [writeLE, Function.update_of_ne hne]
      have hhead : (writeLE m p (n + 1) v p).toNat = v % 256 := by
        rw [writeLE, Function.update_self, UInt8.toNat_ofNat']
      rw [readLE, hrest, hhead, ih, Nat.pow_succ, Nat.mul_comm (256 ^ n) 256,
        Nat.mod_mul]

/-- A word that is read and written elsewhere takes its bytes along. -/
theorem writeLE_readLE {m m' : Mem} {p q n k : Nat} (h : k < n) :
    writeLE m p n (readLE m' q n) (p + k) = m' (q + k) := by
  induction n generalizing p q k with
  | zero => omega
  | succ n ih =>
      have hb : (m' q).toNat < 256 := (m' q).toNat_lt
      have hrest : readLE m' q (n + 1) / 256 = readLE m' (q + 1) n := by
        rw [readLE]
        omega
      rw [writeLE, hrest]
      cases k with
      | zero =>
          simp only [Nat.add_zero, Function.update_self]
          rw [← UInt8.toNat_inj, UInt8.toNat_ofNat', readLE]
          show ((m' q).toNat + 256 * _) % 256 = (m' q).toNat
          omega
      | succ k =>
          have hne : p + (k + 1) ≠ p := by omega
          rw [Function.update_of_ne hne, Nat.add_comm k 1, ← Nat.add_assoc, ← Nat.add_assoc]
          exact ih (by omega)

/-- Words are equal exactly when their bytes are. -/
theorem readLE_eq_iff {m m' : Mem} {p q n : Nat} :
    readLE m p n = readLE m' q n ↔ ∀ k < n, m (p + k) = m' (q + k) := by
  constructor
  · intro h k hk
    calc m (p + k) = writeLE m 0 n (readLE m p n) (0 + k) := (writeLE_readLE hk).symm
      _ = writeLE m 0 n (readLE m' q n) (0 + k) := by rw [h]
      _ = m' (q + k) := writeLE_readLE hk
  · intro h
    induction n generalizing p q with
    | zero => rfl
    | succ n ih =>
        have hhead : m p = m' q := h 0 (by omega)
        have hrest : readLE m (p + 1) n = readLE m' (q + 1) n := by
          apply ih
          intro k hk
          have hk := h (k + 1) (by omega)
          rwa [Nat.add_comm k 1, ← Nat.add_assoc, ← Nat.add_assoc] at hk
        rw [readLE, readLE, hhead, hrest]

/-! ## Runs of bytes -/

/-- Storing bytes changes the bytes it covers only. -/
theorem blit_frame {m : Mem} {p a : Nat} {bs : List UInt8}
    (h : a < p ∨ p + bs.length ≤ a) : blit m p bs a = m a := by
  rw [blit, dif_neg (by omega)]

/-- Where bytes were stored they are found. -/
theorem blit_apply {m : Mem} {p k : Nat} {bs : List UInt8} (h : k < bs.length) :
    blit m p bs (p + k) = bs[k] := by
  have hk : p ≤ p + k ∧ p + k - p < bs.length := by omega
  rw [blit, dif_pos hk]
  congr 1
  omega

end SockLynx.Lib.Words
