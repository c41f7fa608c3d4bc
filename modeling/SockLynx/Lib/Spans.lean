import SockLynx.Lib.Slices

/-!
# Bytes spread over memory

A transfer may be handed its bytes in pieces, spans of memory that are used one
after the other.  `fill` stores a list of bytes in them, as many as there is room
for, and `gather` lists the bytes they hold.

## Main results

* `fill_frame` — nothing outside the spans is written.
* `fill_congr` — what a cell holds afterwards depends on what it held only.
* `gather_congr` — what is gathered depends on the cells of the spans only.
* `gather_fill` — what was stored in spans without a common cell is found there.
-/

namespace SockLynx.Lib.Spans

open SockLynx.Lib.Slices
open SockLynx.Lib.Words

/-- `len` cells from `base` on. -/
structure Span where
  base : Nat
  len : Nat
  deriving DecidableEq, Repr

/-- The span has the cell `x`. -/
def Span.Has (s : Span) (x : Nat) : Prop := s.base ≤ x ∧ x < s.base + s.len

/-- The spans have no cell in common. -/
def Span.Apart (s t : Span) : Prop := ∀ x, s.Has x → ¬t.Has x

/-- How many cells the spans have. -/
def total (spans : List Span) : Nat := (spans.map Span.len).sum

/-- The bytes in the spans, one span after the other. -/
def gather (m : Mem) (spans : List Span) : List UInt8 :=
  spans.flatMap fun s => slice m s.base s.len

/-- Store the bytes in the spans, one span after the other. -/
def fill (m : Mem) : List Span → List UInt8 → Mem
  | [], _ => m
  | s :: spans, bs => fill (blit m s.base (bs.take s.len)) spans (bs.drop s.len)

section Spans

variable {m m' : Mem} {s : Span} {spans : List Span} {bs : List UInt8} {x : Nat}

theorem fill_frame (h : ∀ s ∈ spans, ¬s.Has x) : fill m spans bs x = m x := by
  induction spans generalizing m bs with
  | nil => rfl
  | cons s spans ih =>
      have hout : x < s.base ∨ s.base + (bs.take s.len).length ≤ x := by
        have hs := h s List.mem_cons_self
        have hlen := List.length_take_le s.len bs
        simp only [Span.Has, not_and_or] at hs
        omega
      rw [fill, ih fun t ht => h t (List.mem_cons_of_mem s ht), blit_frame hout]

theorem fill_congr (h : m x = m' x) : fill m spans bs x = fill m' spans bs x := by
  induction spans generalizing m m' bs with
  | nil => exact h
  | cons s spans ih =>
      refine ih ?_
      simp only [blit, h]

theorem slice_congr (h : ∀ x, s.Has x → m x = m' x) :
    slice m s.base s.len = slice m' s.base s.len := by
  refine List.ext_getElem (by simp) fun k hk _ => ?_
  rw [length_slice] at hk
  rw [getElem_slice, getElem_slice]
  exact h _ ⟨by omega, by omega⟩

theorem gather_congr (h : ∀ s ∈ spans, ∀ x, s.Has x → m x = m' x) :
    gather m spans = gather m' spans := by
  induction spans with
  | nil => rfl
  | cons s spans ih =>
      have hrest : gather m spans = gather m' spans :=
        ih fun t ht => h t (List.mem_cons_of_mem s ht)
      rw [gather, List.flatMap_cons, slice_congr (h s List.mem_cons_self)]
      exact congrArg (_ ++ ·) hrest

/-- What was stored in one piece is found in the piece. -/
theorem slice_blit (m : Mem) (p n : Nat) (bs : List UInt8) :
    (slice (blit m p (bs.take n)) p n).take bs.length = bs.take n := by
  refine List.ext_getElem (by simp [Nat.min_comm]) fun k hk hk' => ?_
  rw [List.getElem_take, getElem_slice, blit_apply hk']

/-- What was stored in spans without a common cell is found there. -/
theorem gather_fill (h : spans.Pairwise Span.Apart) (m : Mem) (bs : List UInt8) :
    (gather (fill m spans bs) spans).take bs.length = bs.take (total spans) := by
  induction spans generalizing m bs with
  | nil => simp [gather, total]
  | cons s spans ih =>
      obtain ⟨hs, hrest⟩ := List.pairwise_cons.mp h
      have htotal : total (s :: spans) = s.len + total spans := by simp [total]
      -- the later spans leave the first one alone
      have hfirst : slice (fill m (s :: spans) bs) s.base s.len =
          slice (blit m s.base (bs.take s.len)) s.base s.len :=
        slice_congr fun x hx => fill_frame fun t ht => hs t ht x hx
      rw [gather, List.flatMap_cons, hfirst, List.take_append, slice_blit, length_slice, htotal,
        List.take_add]
      have hdrop : bs.length - s.len = (bs.drop s.len).length := by simp
      rw [hdrop]
      exact congrArg (_ ++ ·) (ih hrest _ _)

end Spans

end SockLynx.Lib.Spans
