import Mathlib.Algebra.Ring.Nat
import Mathlib.Logic.Function.Basic

/-!
# Byte order

`bytesLE n v` lists the `n` low bytes of a number, least significant first, so
a number of another byte order is one whose list is reversed.  `SwapsBytes`
says that of a function on an arbitrary type of numbers, together with the
function that undoes it.

Swapping is written with shifts and masks that take whole bytes.  The lemmas
on masks split a number at a bit and mask the two parts separately.

## Main results

* `bytesLE_eq_iff` — equal bytes are equality up to the width.
* `SwapsBytes.of_reverses` — what reverses the bytes undoes itself.
* `SwapsBytes.comap` — swapping through a bijective cast.
-/

namespace SockLynx.Lib.ByteOrder

/-- The `n` low bytes of `v`, least significant first. -/
def bytesLE : Nat → Nat → List UInt8
  | 0, _ => []
  | n + 1, v => UInt8.ofNat v :: bytesLE n (v / 256)

/-- The `n` low bytes of `v`, most significant first. -/
def bytesBE (n v : Nat) : List UInt8 := (bytesLE n v).reverse

/-! ## Lists of bytes -/

/-- A number has the same bytes as another exactly when it is equal to it up to
their number. -/
theorem bytesLE_eq_iff {n a b : Nat} :
    bytesLE n a = bytesLE n b ↔ a % 256 ^ n = b % 256 ^ n := by
  induction n generalizing a b with
  | zero => simp [bytesLE, Nat.mod_one]
  | succ n ih =>
      have hhead : UInt8.ofNat a = UInt8.ofNat b ↔ a % 256 = b % 256 := by
        rw [← UInt8.toNat_inj, UInt8.toNat_ofNat', UInt8.toNat_ofNat']
      rw [bytesLE, bytesLE, List.cons.injEq, hhead, ih, Nat.pow_succ, Nat.mul_comm (256 ^ n),
        Nat.mod_mul, Nat.mod_mul]
      constructor
      · rintro ⟨hlow, hrest⟩
        rw [hlow, hrest]
      · intro h
        have ha := Nat.mod_lt a (show 0 < 256 by decide)
        have hb := Nat.mod_lt b (show 0 < 256 by decide)
        omega

/-- Numbers that fit are determined by their bytes. -/
theorem bytesLE_inj {n a b : Nat} (ha : a < 256 ^ n) (hb : b < 256 ^ n)
    (h : bytesLE n a = bytesLE n b) : a = b := by
  rw [bytesLE_eq_iff, Nat.mod_eq_of_lt ha, Nat.mod_eq_of_lt hb] at h
  exact h

/-- The bytes of a number written in digits to base 256. -/
theorem bytesLE_digit (n a : Nat) {b : Nat} (h : b < 256) :
    bytesLE (n + 1) (b + 256 * a) = UInt8.ofNat b :: bytesLE n a := by
  have hhead : UInt8.ofNat (b + 256 * a) = UInt8.ofNat b := by
    rw [← UInt8.toNat_inj, UInt8.toNat_ofNat', UInt8.toNat_ofNat']
    omega
  have hrest : (b + 256 * a) / 256 = a := by omega
  rw [bytesLE, hhead, hrest]

/-- The low bytes and then the high ones. -/
theorem bytesLE_append (m n v : Nat) :
    bytesLE (m + n) v = bytesLE m v ++ bytesLE n (v / 256 ^ m) := by
  induction m generalizing v with
  | zero => simp [bytesLE]
  | succ m ih =>
      rw [Nat.succ_add, bytesLE, ih, bytesLE, List.cons_append, Nat.div_div_eq_div_mul,
        Nat.pow_succ, Nat.mul_comm 256]

/-! ## Swapping -/

section Swapping

variable {α β : Type} {bytes : α → List UInt8} {swap unswap : α → α}

/-- `swap` reverses the bytes of every number, and `unswap` undoes it. -/
structure SwapsBytes (bytes : α → List UInt8) (swap unswap : α → α) : Prop where
  reverses : ∀ x, bytes (swap x) = (bytes x).reverse
  unswap_swap : ∀ x, unswap (swap x) = x
  swap_unswap : ∀ x, swap (unswap x) = x

/-- Reversing twice changes nothing. -/
theorem SwapsBytes.of_reverses (hinj : Function.Injective bytes)
    (h : ∀ x, bytes (swap x) = (bytes x).reverse) : SwapsBytes bytes swap swap := by
  have hself : ∀ x, swap (swap x) = x := by
    intro x
    apply hinj
    rw [h, h, List.reverse_reverse]
  exact ⟨h, hself, hself⟩

/-- Swapping what `cast` makes of a number, where `uncast` takes it back. -/
theorem SwapsBytes.comap {cast : β → α} {uncast : α → β} (hl : ∀ y, uncast (cast y) = y)
    (hr : ∀ x, cast (uncast x) = x) (h : SwapsBytes bytes swap unswap) :
    SwapsBytes (fun y => bytes (cast y)) (fun y => uncast (swap (cast y)))
      (fun y => uncast (unswap (cast y))) where
  reverses y := by
    rw [hr, h.reverses]
  unswap_swap y := by
    rw [hr, h.unswap_swap, hl]
  swap_unswap y := by
    rw [hr, h.swap_unswap, hl]

end Swapping

/-! ## Masks of whole bytes -/

/-- Masking a number is masking the part above bit `k` and the part below. -/
theorem and_split (k v m : Nat) :
    v &&& m = 2 ^ k * ((v / 2 ^ k) &&& (m / 2 ^ k)) + ((v % 2 ^ k) &&& (m % 2 ^ k)) := by
  rw [← Nat.and_div_two_pow, ← Nat.and_mod_two_pow, Nat.div_add_mod]

/-- The mask of the low byte. -/
theorem and_low_byte (v : Nat) : v &&& 255 = v % 256 :=
  Nat.and_two_pow_sub_one_eq_mod v 8

/-- The mask of the byte above it. -/
theorem and_second_byte (v : Nat) : v &&& 65280 = 256 * (v / 256 % 256) := by
  rw [and_split 8, show 65280 / 2 ^ 8 = 255 by decide, show 65280 % 2 ^ 8 = 0 by decide,
    Nat.and_zero, and_low_byte]
  rfl

end SockLynx.Lib.ByteOrder
