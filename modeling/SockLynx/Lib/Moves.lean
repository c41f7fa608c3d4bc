import Mathlib.Logic.Function.Basic

/-!
# Copying a range piece by piece

A range of cells may be filled or copied in chunks, which may overlap each
other, and source and destination of a copy may overlap as well.  A chunk is
an offset and a width, the same in both ranges; each chunk is read completely
before it is written.

What a copy leaves at an index is decided by the last chunk that has the
index: it is what the chunks before that one left at the source.  All results
on copies below are read off this.

## Main results

* `paintChunks_eq` — chunks that cover a range fill it.
* `moveChunks_last` — the value at an index, by its last chunk.
* `moveChunks_eq_move` — no chunk reads what one before it wrote: the copy is
  the copy of the whole range at once.
* `moveChunks_self` — a copy onto itself changes nothing.
* `move_eq_iff` — a copy equals what its source holds afterwards exactly where the
  source repeats at the distance.
* `moveChunks_twice` — a chunk reads what exactly one chunk before it wrote: the
  value comes from twice the distance.
-/

namespace SockLynx.Lib.Moves

variable {α : Type*}

/-- `width` cells from `offset` on. -/
structure Chunk where
  offset : Nat
  width : Nat
  deriving DecidableEq, Repr

/-- The chunk has the cell of index `k`. -/
def Chunk.Has (c : Chunk) (k : Nat) : Prop := c.offset ≤ k ∧ k < c.offset + c.width

/-- The chunks have the cells below `n` and no others. -/
def Covers (cs : List Chunk) (n : Nat) : Prop := ∀ k, (∃ c ∈ cs, c.Has k) ↔ k < n

/-! ## Filling -/

/-- `m` with the cells from `t` to `t + n` taken from `f`. -/
def paint (f : Nat → α) (t n : Nat) (m : Nat → α) : Nat → α := fun x =>
  if t ≤ x ∧ x < t + n then f x else m x

/-- `paint` chunk by chunk. -/
def paintChunks (f : Nat → α) (t : Nat) (cs : List Chunk) (m : Nat → α) : Nat → α :=
  cs.foldl (fun m c => paint f (t + c.offset) c.width m) m

section Paint

variable {f : Nat → α} {t n x k : Nat} {m : Nat → α} {cs : List Chunk}

theorem paint_of_mem (h : t ≤ x ∧ x < t + n) : paint f t n m x = f x := if_pos h

theorem paint_of_not_mem (h : ¬(t ≤ x ∧ x < t + n)) : paint f t n m x = m x := if_neg h

/-- Only the colours inside the range count. -/
theorem paint_congr {g : Nat → α} (h : ∀ x, t ≤ x → x < t + n → f x = g x) :
    paint f t n m = paint g t n m := by
  funext x
  by_cases hx : t ≤ x ∧ x < t + n
  · rw [paint_of_mem hx, paint_of_mem hx]
    exact h x hx.1 hx.2
  · rw [paint_of_not_mem hx, paint_of_not_mem hx]

/-- Cells outside the chunks stay. -/
theorem paintChunks_frame (h : ∀ c ∈ cs, x < t + c.offset ∨ t + c.offset + c.width ≤ x) :
    paintChunks f t cs m x = m x := by
  induction cs generalizing m with
  | nil => rfl
  | cons c cs ih =>
      have hc := h c List.mem_cons_self
      have hrest := ih (m := paint f (t + c.offset) c.width m) fun c' hc' =>
        h c' (List.mem_cons_of_mem c hc')
      exact hrest.trans (paint_of_not_mem (by omega))

/-- Once painted, a cell keeps its colour. -/
theorem paintChunks_of_eq (h : m (t + k) = f (t + k)) :
    paintChunks f t cs m (t + k) = f (t + k) := by
  induction cs generalizing m with
  | nil => exact h
  | cons c cs ih =>
      apply ih
      by_cases hc : t + c.offset ≤ t + k ∧ t + k < t + c.offset + c.width
      · exact paint_of_mem hc
      · exact (paint_of_not_mem hc).trans h

theorem paintChunks_of_has (h : ∃ c ∈ cs, c.Has k) :
    paintChunks f t cs m (t + k) = f (t + k) := by
  induction cs generalizing m with
  | nil => simp at h
  | cons c cs ih =>
      obtain ⟨c', hmem, hlo, hhi⟩ := h
      rcases List.mem_cons.mp hmem with rfl | hmem
      · have hin : t + c'.offset ≤ t + k ∧ t + k < t + c'.offset + c'.width := by omega
        show paintChunks f t cs (paint f (t + c'.offset) c'.width m) (t + k) = f (t + k)
        exact paintChunks_of_eq (paint_of_mem hin)
      · exact ih ⟨c', hmem, hlo, hhi⟩

/-- Chunks that cover a range fill it. -/
theorem paintChunks_eq (h : Covers cs n) : paintChunks f t cs m = paint f t n m := by
  funext x
  by_cases hx : t ≤ x ∧ x < t + n
  · obtain ⟨k, rfl⟩ := Nat.exists_eq_add_of_le hx.1
    rw [paint_of_mem hx, paintChunks_of_has ((h k).mpr (by omega))]
  · rw [paint_of_not_mem hx]
    apply paintChunks_frame
    intro c hc
    by_contra hin
    have hk := (h (x - t)).mp ⟨c, hc, by omega, by omega⟩
    omega

end Paint

/-! ## Copying -/

/-- Copy `n` cells from `s` to `t`, all read before any is written. -/
def move (t s n : Nat) (m : Nat → α) : Nat → α := paint (fun x => m (s + (x - t))) t n m

/-- `move` chunk by chunk. -/
def moveChunks (t s : Nat) (cs : List Chunk) (m : Nat → α) : Nat → α :=
  cs.foldl (fun m c => move (t + c.offset) (s + c.offset) c.width m) m

section Move

variable {t s n k x : Nat} {m : Nat → α} {c : Chunk} {cs pre post : List Chunk}

theorem move_add (h : k < n) : move t s n m (t + k) = m (s + k) := by
  have hk : t + k - t = k := by omega
  rw [move, paint_of_mem (by omega), hk]

theorem move_frame (h : x < t ∨ t + n ≤ x) : move t s n m x = m x :=
  paint_of_not_mem (by omega)

/-- A copy onto itself changes nothing. -/
theorem move_self : move t t n m = m := by
  funext x
  by_cases hx : t ≤ x ∧ x < t + n
  · obtain ⟨k, rfl⟩ := Nat.exists_eq_add_of_le hx.1
    exact move_add (by omega)
  · exact paint_of_not_mem hx

/-- How far two ranges start from each other. -/
def apart (s t : Nat) : Nat := max s t - min s t

/-- After a copy the two ranges are equal exactly when the source repeats at
their distance, as far as it reaches. -/
theorem move_eq_iff :
    (∀ i < n, move t s n m (t + i) = move t s n m (s + i)) ↔
      ∀ k, k + apart s t < n → m (s + k + apart s t) = m (s + k) := by
  constructor
  · intro h k hk
    rcases Nat.le_total t s with hle | hle
    · have hd : apart s t = s - t := by rw [apart, Nat.max_eq_left hle, Nat.min_eq_right hle]
      rw [hd] at hk ⊢
      have heq := h k (by omega)
      have hsource : s + k = t + (k + (s - t)) := by omega
      rw [move_add (by omega), hsource, move_add hk, ← hsource] at heq
      rw [Nat.add_assoc]
      exact heq.symm
    · have hd : apart s t = t - s := by rw [apart, Nat.max_eq_right hle, Nat.min_eq_left hle]
      rw [hd] at hk ⊢
      have heq := h (k + (t - s)) hk
      have hsource : s + (k + (t - s)) = t + k := by omega
      rw [move_add hk] at heq
      rw [Nat.add_assoc, heq, hsource, move_add (by omega)]
  · intro h i hi
    rw [move_add hi]
    by_cases hin : t ≤ s + i ∧ s + i < t + n
    · obtain ⟨j, hj⟩ := Nat.exists_eq_add_of_le hin.1
      have hmoved : move t s n m (s + i) = m (s + j) := by
        rw [hj]
        exact move_add (by omega)
      rw [hmoved]
      rcases Nat.le_total t s with hle | hle
      · have hd : apart s t = s - t := by rw [apart, Nat.max_eq_left hle, Nat.min_eq_right hle]
        have hperiod := h i (by omega)
        rw [← hperiod, hd]
        congr 1
        omega
      · have hd : apart s t = t - s := by rw [apart, Nat.max_eq_right hle, Nat.min_eq_left hle]
        have hperiod := h j (by omega)
        rw [← hperiod, hd]
        congr 1
        omega
    · exact (move_frame (by omega)).symm

theorem moveChunks_append :
    moveChunks t s (pre ++ post) m = moveChunks t s post (moveChunks t s pre m) :=
  List.foldl_append

/-- Cells outside the chunks stay. -/
theorem moveChunks_frame (h : ∀ c ∈ cs, x < t + c.offset ∨ t + c.offset + c.width ≤ x) :
    moveChunks t s cs m x = m x := by
  induction cs generalizing m with
  | nil => rfl
  | cons c cs ih =>
      have hc := h c List.mem_cons_self
      have hrest := ih (m := move (t + c.offset) (s + c.offset) c.width m) fun c' hc' =>
        h c' (List.mem_cons_of_mem c hc')
      exact hrest.trans (move_frame hc)

theorem moveChunks_self : moveChunks t t cs m = m := by
  induction cs generalizing m with
  | nil => rfl
  | cons c cs ih =>
      show moveChunks t t cs (move (t + c.offset) (t + c.offset) c.width m) = m
      rw [move_self, ih]

/-- The last chunk that has an index. -/
theorem exists_last (h : ∃ c ∈ cs, c.Has k) :
    ∃ pre c post, cs = pre ++ c :: post ∧ c.Has k ∧ ∀ c' ∈ post, ¬c'.Has k := by
  induction cs with
  | nil => simp at h
  | cons c cs ih =>
      by_cases hrest : ∃ c' ∈ cs, c'.Has k
      · obtain ⟨pre, c', post, rfl, hlast⟩ := ih hrest
        exact ⟨c :: pre, c', post, rfl, hlast⟩
      · obtain ⟨c', hmem, hk⟩ := h
        rcases List.mem_cons.mp hmem with rfl | hmem
        · exact ⟨[], c', cs, rfl, hk, fun c'' hc'' hk' => hrest ⟨c'', hc'', hk'⟩⟩
        · exact absurd ⟨c', hmem, hk⟩ hrest

/-- What the last chunk with an index writes there is what the chunks before it
left at the source. -/
theorem moveChunks_last (hk : c.Has k) (hpost : ∀ c' ∈ post, ¬c'.Has k) :
    moveChunks t s (pre ++ c :: post) m (t + k) = moveChunks t s pre m (s + k) := by
  obtain ⟨j, rfl⟩ := Nat.exists_eq_add_of_le hk.1
  rw [moveChunks_append]
  have hframe : moveChunks t s (c :: post) (moveChunks t s pre m) (t + (c.offset + j)) =
      move (t + c.offset) (s + c.offset) c.width (moveChunks t s pre m)
        (t + (c.offset + j)) := by
    show moveChunks t s post (move _ _ _ _) _ = _
    apply moveChunks_frame
    intro c' hc'
    by_contra hin
    exact hpost c' hc' ⟨by omega, by omega⟩
  have hj : j < c.width := by
    have := hk.2
    omega
  rw [hframe, ← Nat.add_assoc, move_add hj, Nat.add_assoc]

/-- Chunk `b` does not read what chunk `a` writes. -/
def Apart (t s : Nat) (a b : Chunk) : Prop :=
  s + b.offset + b.width ≤ t + a.offset ∨ t + a.offset + a.width ≤ s + b.offset

/-- If no chunk reads what one before it wrote, the range is copied as if at
once. -/
theorem moveChunks_eq_move (hcover : Covers cs n) (h : cs.Pairwise (Apart t s)) :
    moveChunks t s cs m = move t s n m := by
  funext x
  by_cases hx : t ≤ x ∧ x < t + n
  · obtain ⟨k, rfl⟩ := Nat.exists_eq_add_of_le hx.1
    obtain ⟨pre, c, post, rfl, hk, hpost⟩ := exists_last ((hcover k).mpr (by omega))
    rw [moveChunks_last hk hpost, move_add (by omega)]
    apply moveChunks_frame
    intro a ha
    have hapart : Apart t s a c := (List.pairwise_append.mp h).2.2 a ha c List.mem_cons_self
    have hlo := hk.1
    have hhi := hk.2
    unfold Apart at hapart
    omega
  · rw [move_frame (by omega)]
    apply moveChunks_frame
    intro c hc
    by_contra hin
    have hk := (hcover (x - t)).mp ⟨c, hc, by omega, by omega⟩
    omega

/-- If the last chunk with an index reads a cell that of the chunks before it
only `a` wrote, the value comes from where `a` read it. -/
theorem moveChunks_twice {a : Chunk} {mid : List Chunk} {j : Nat}
    (hcs : cs = pre ++ a :: mid ++ c :: post) (hk : c.Has k) (hpost : ∀ c' ∈ post, ¬c'.Has k)
    (hread : s + k = t + j) (ha : a.Has j) (hmid : ∀ c' ∈ mid, ¬c'.Has j)
    (hpre : ∀ c' ∈ pre, s + j < t + c'.offset ∨ t + c'.offset + c'.width ≤ s + j) :
    moveChunks t s cs m (t + k) = m (s + j) := by
  rw [hcs, moveChunks_last hk hpost, hread, moveChunks_last ha hmid]
  exact moveChunks_frame hpre

end Move

/-! ## Chunks of one width -/

/-- `count` chunks of `width` cells from `offset` on, one after the other. -/
def ladder (width : Nat) : Nat → Nat → List Chunk
  | _, 0 => []
  | offset, count + 1 => ⟨offset, width⟩ :: ladder width (offset + width) count

section Ladder

variable {width offset count k : Nat}

theorem ladder_bounds {c : Chunk} (h : c ∈ ladder width offset count) :
    offset ≤ c.offset ∧ c.offset + c.width ≤ offset + width * count ∧ c.width = width := by
  induction count generalizing offset with
  | zero => simp [ladder] at h
  | succ count ih =>
      have hmul : width * (count + 1) = width * count + width := Nat.mul_succ width count
      rcases List.mem_cons.mp h with rfl | h
      · exact ⟨Nat.le_refl _, by simp only; omega, rfl⟩
      · obtain ⟨hlo, hhi, hw⟩ := ih h
        exact ⟨by omega, by omega, hw⟩

theorem ladder_offset {c : Chunk} (h : c ∈ ladder width offset count) :
    ∃ i, c.offset = offset + width * i := by
  induction count generalizing offset with
  | zero => simp [ladder] at h
  | succ count ih =>
      rcases List.mem_cons.mp h with rfl | h
      · exact ⟨0, rfl⟩
      · obtain ⟨i, hi⟩ := ih h
        have hmul : width * (i + 1) = width * i + width := Nat.mul_succ width i
        exact ⟨i + 1, by omega⟩

/-- A ladder covers what its chunks add up to. -/
theorem ladder_has_iff :
    (∃ c ∈ ladder width offset count, c.Has k) ↔ offset ≤ k ∧ k < offset + width * count := by
  constructor
  · intro h
    obtain ⟨c, hc, hlo, hhi⟩ := h
    obtain ⟨hoff, hend, _⟩ := ladder_bounds hc
    omega
  · induction count generalizing offset with
    | zero =>
        intro h
        omega
    | succ count ih =>
        intro h
        have hmul : width * (count + 1) = width * count + width := Nat.mul_succ width count
        by_cases hk : k < offset + width
        · exact ⟨⟨offset, width⟩, List.mem_cons_self, h.1, hk⟩
        · have hlater : offset + width ≤ k ∧ k < offset + width + width * count := by omega
          obtain ⟨c, hc, hhas⟩ := ih hlater
          exact ⟨c, List.mem_cons_of_mem _ hc, hhas⟩

/-- The chunks of a ladder lie one after the other. -/
theorem ladder_pairwise :
    (ladder width offset count).Pairwise fun a b => a.offset + a.width ≤ b.offset := by
  induction count generalizing offset with
  | zero => exact List.Pairwise.nil
  | succ count ih =>
      rw [ladder, List.pairwise_cons]
      exact ⟨fun c hc => (ladder_bounds hc).1, ih⟩

end Ladder

end SockLynx.Lib.Moves
