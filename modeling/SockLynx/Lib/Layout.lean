/-!
# Layout of a C struct

A struct is the list of its members in declaration order, each with its size
and alignment.  Members are placed one after the other, each at the next
multiple of its alignment, and the size of the whole is rounded up to the
largest alignment: the rule every mainstream ABI follows for plain structs.

`offset_disjoint` is the one fact clients need: two members never share a
byte, whatever the sizes and alignments are.
-/

namespace SockLynx.Lib.Layout

/-- One member of a struct. -/
structure Member (κ : Type) where
  name : κ
  size : Nat
  align : Nat

/-- The least multiple of `a` that is at least `p`. -/
def alignUp (p a : Nat) : Nat := p + (a - p % a) % a

theorem le_alignUp (p a : Nat) : p ≤ alignUp p a := Nat.le_add_right _ _

section Offsets

variable {κ : Type} [DecidableEq κ]

/-- Where member `k` lies when the members are placed from `pos` on. -/
def offsetFrom (k : κ) : Nat → List (Member κ) → Nat
  | pos, [] => pos
  | pos, m :: ms =>
      if m.name = k then alignUp pos m.align
      else offsetFrom k (alignUp pos m.align + m.size) ms

/-- `offsetof` -/
def offset (ms : List (Member κ)) (k : κ) : Nat := offsetFrom k 0 ms

/-- The size of member `k`. -/
def memberSize (k : κ) : List (Member κ) → Nat
  | [] => 0
  | m :: ms => if m.name = k then m.size else memberSize k ms

theorem le_offsetFrom (k : κ) (pos : Nat) (ms : List (Member κ)) :
    pos ≤ offsetFrom k pos ms := by
  induction ms generalizing pos with
  | nil => exact Nat.le_refl pos
  | cons m ms ih =>
      have hup := le_alignUp pos m.align
      have hrest := ih (alignUp pos m.align + m.size)
      rw [offsetFrom]
      split <;> omega

private theorem offsetFrom_disjoint {k k' : κ} (hne : k ≠ k') (pos : Nat)
    (ms : List (Member κ)) :
    offsetFrom k pos ms + memberSize k ms ≤ offsetFrom k' pos ms ∨
      offsetFrom k' pos ms + memberSize k' ms ≤ offsetFrom k pos ms := by
  induction ms generalizing pos with
  | nil => exact Or.inl (Nat.le_refl pos)
  | cons m ms ih =>
      have hk := le_offsetFrom k (alignUp pos m.align + m.size) ms
      have hk' := le_offsetFrom k' (alignUp pos m.align + m.size) ms
      simp only [offsetFrom, memberSize]
      by_cases h : m.name = k
      · have h' : ¬m.name = k' := fun e => hne (h.symm.trans e)
        rw [if_pos h, if_pos h, if_neg h']
        exact Or.inl hk'
      · by_cases h' : m.name = k'
        · rw [if_neg h, if_pos h', if_pos h']
          exact Or.inr hk
        · rw [if_neg h, if_neg h, if_neg h', if_neg h']
          exact ih _

/-- Two members of a struct share no byte. -/
theorem offset_disjoint {k k' : κ} (hne : k ≠ k') (ms : List (Member κ)) :
    offset ms k + memberSize k ms ≤ offset ms k' ∨
      offset ms k' + memberSize k' ms ≤ offset ms k :=
  offsetFrom_disjoint hne 0 ms

end Offsets

/-- The first byte after the last member. -/
def endFrom {κ : Type} : Nat → List (Member κ) → Nat
  | pos, [] => pos
  | pos, m :: ms => endFrom (alignUp pos m.align + m.size) ms

/-- The alignment of a struct is the largest alignment of its members. -/
def structAlign {κ : Type} (ms : List (Member κ)) : Nat :=
  ms.foldr (fun m a => max m.align a) 1

/-- `sizeof` -/
def structSize {κ : Type} (ms : List (Member κ)) : Nat :=
  alignUp (endFrom 0 ms) (structAlign ms)

end SockLynx.Lib.Layout
