import SockLynx.Verified.Ranges

/-!
# `MemCpy` on overlapping ranges

`MemCpy` copies upwards, so a destination below the source is safe except
where the second access of the tail reads what the first has just written: a
rest of five or six bytes and a distance of one or two.  With the destination
above the source, inside it, only the lengths that are one single access come
out as a `memmove` would leave them.

## Main results

* `moveChunks_eq_move_iff` — the chunks of a length leave any memory as the
  copy of the whole range at once exactly when `CopySafe` holds.
* `memCpy_memmove_iff` — the same of `MemCpy`, with the bytes it reads and
  writes.
-/

namespace SockLynx.Util

open SockLynx.Lib.Words
open SockLynx.Lib.Moves

/-! ## The condition -/

/-- Copying `n` bytes from `s` to `t` in chunks is as good as copying them at
once: the ranges are disjoint or the same; or the destination is below, but not
by less than the overlap of the tail; or it is above, and the length one single
access. -/
def CopySafe (t s n : Nat) : Prop :=
  (s + n ≤ t ∨ t + n ≤ s ∨ s = t ∨ n = 0) ∨
    (t < s ∧ ¬(n % 8 = 5 ∧ (s - t = 1 ∨ s - t = 2)) ∧ ¬(n % 8 = 6 ∧ s - t = 1)) ∨
    (s < t ∧ t < s + n ∧ (n = 2 ∨ n = 4 ∨ n = 8))

/-! ## Where the copies agree -/

/-- By how much the two accesses of a tail overlap. -/
def tailOverlap : Nat → Nat
  | 3 => 1
  | 5 => 3
  | 6 => 2
  | 7 => 1
  | _ => 0

/-- Each chunk ends before a later one starts, or reaches into it by the overlap
of the tail. -/
theorem chunks_pairwise (n : Nat) :
    (chunks n).Pairwise fun a b => a.offset + a.width ≤ b.offset + tailOverlap (n % 8) := by
  have hr : n % 8 < 8 := Nat.mod_lt n (by omega)
  rw [chunks, List.pairwise_append]
  refine ⟨ladder_pairwise.imp fun h => by omega, ?_, fun a ha b hb => ?_⟩
  · rcases lt_eight_cases hr with h | h | h | h | h | h | h | h <;>
      rw [h] <;> simp [tailChunks, tailOverlap]
  · have hladder := (ladder_bounds ha).2.1
    have htail : 8 * (n / 8) ≤ b.offset := by
      have hw := tailChunks_width hb
      exact ((tailChunks_has_iff hr).mp ⟨b, hb, by omega, by omega⟩).1
    omega

/-- The overlap of the tail is small enough for any distance but these. -/
theorem tailOverlap_le {r d : Nat} (hr : r < 8) (hd : 0 < d) (h5 : ¬(r = 5 ∧ (d = 1 ∨ d = 2)))
    (h6 : ¬(r = 6 ∧ d = 1)) : tailOverlap r ≤ d := by
  rcases lt_eight_cases hr with rfl | rfl | rfl | rfl | rfl | rfl | rfl | rfl <;>
    simp only [tailOverlap] <;> omega

theorem moveChunks_of_safe {t s n : Nat} (h : CopySafe t s n) (m : Mem) :
    moveChunks t s (chunks n) m = move t s n m := by
  have hr : n % 8 < 8 := Nat.mod_lt n (by omega)
  rcases h with (hdisj | hdisj | heq | hzero) | ⟨hlt, h5, h6⟩ | ⟨_, _, hn⟩
  · apply moveChunks_eq_move (chunks_covers n)
    refine (chunks_pairwise n).imp_of_mem fun ha hb _ => Or.inl ?_
    have hb := chunks_bounds hb
    omega
  · apply moveChunks_eq_move (chunks_covers n)
    refine (chunks_pairwise n).imp_of_mem fun ha hb _ => Or.inr ?_
    have ha := chunks_bounds ha
    omega
  · subst heq
    rw [moveChunks_self, move_self]
  · subst hzero
    exact moveChunks_eq_move (chunks_covers 0) List.Pairwise.nil
  · apply moveChunks_eq_move (chunks_covers n)
    have hoverlap := tailOverlap_le hr (Nat.sub_pos_of_lt hlt) h5 h6
    refine (chunks_pairwise n).imp fun hab => Or.inr ?_
    omega
  · apply moveChunks_eq_move (chunks_covers n)
    rcases hn with rfl | rfl | rfl <;> exact List.pairwise_singleton _ _

/-! ## Where they differ -/

/-- Two memories that differ at an address where one holds a byte of its own. -/
theorem exists_content_ne {f g : Mem → Mem} {x y z : Nat} (hf : ∀ m, f m x = m y)
    (hg : ∀ m, g m x = m z) (hne : y ≠ z) : ∃ m, f m ≠ g m := by
  refine ⟨fun a => if a = y then 1 else 0, fun h => ?_⟩
  have hx := congrFun h x
  rw [hf, hg] at hx
  simp [hne.symm] at hx

/-- The second access of a tail reads what the first wrote. -/
theorem moveChunks_backward_ne {t s n e : Nat} (hlt : t < s) (he : 0 < e)
    (hoverlap : e + (s - t) < 4)
    (htail : tailChunks (8 * (n / 8)) (n % 8) = [⟨8 * (n / 8), 4⟩, ⟨8 * (n / 8) + e, 4⟩]) :
    ∃ m : Mem, moveChunks t s (chunks n) m ≠ move t s n m := by
  have hin : 8 * (n / 8) + e < n := by
    have hmem : (⟨8 * (n / 8) + e, 4⟩ : Chunk) ∈ chunks n := by simp [chunks, htail]
    have hbounds := (chunks_bounds hmem).2
    simp only at hbounds
    omega
  have hlist : chunks n =
      ladder 8 0 (n / 8) ++ ⟨8 * (n / 8), 4⟩ :: [] ++ ⟨8 * (n / 8) + e, 4⟩ :: [] := by
    simp [chunks, htail]
  have htwice : ∀ m : Mem, moveChunks t s (chunks n) m (t + (8 * (n / 8) + e)) =
      m (s + (8 * (n / 8) + e + (s - t))) := by
    intro m
    apply moveChunks_twice hlist
    · exact ⟨Nat.le_refl _, by simp only; omega⟩
    · simp
    · omega
    · exact ⟨by simp only; omega, by simp only; omega⟩
    · simp
    · intro c hc
      have hladder := (ladder_bounds hc).2.1
      omega
  exact exists_content_ne htwice (fun m => move_add hin) (by omega)

/-- Unless they are one single access, the chunks are a first one and others,
which start `e` bytes further on and cover the rest. -/
theorem chunks_split {n : Nat} (hn : 1 < n) (h2 : n ≠ 2) (h4 : n ≠ 4) (h8 : n ≠ 8) :
    ∃ e width rest, chunks n = ⟨0, width⟩ :: rest ∧ 0 < e ∧ e < n ∧ e ≤ width ∧
      (∀ c ∈ rest, e ≤ c.offset) ∧ ∀ k, e ≤ k → k < n → ∃ c ∈ rest, c.Has k := by
  by_cases hsmall : n < 8
  · have hpair : ∃ e width, chunks n = [⟨0, width⟩, ⟨e, width⟩] ∧ 0 < e ∧ e ≤ width ∧
        e + width = n := by
      have hcases : n = 3 ∨ n = 5 ∨ n = 6 ∨ n = 7 := by omega
      rcases hcases with rfl | rfl | rfl | rfl
      · exact ⟨1, 2, rfl, by omega, by omega, rfl⟩
      · exact ⟨1, 4, rfl, by omega, by omega, rfl⟩
      · exact ⟨2, 4, rfl, by omega, by omega, rfl⟩
      · exact ⟨3, 4, rfl, by omega, by omega, rfl⟩
    obtain ⟨e, width, hlist, he, hle, hsum⟩ := hpair
    refine ⟨e, width, [⟨e, width⟩], hlist, he, by omega, hle, by simp, fun k hlo hhi => ?_⟩
    exact ⟨⟨e, width⟩, List.mem_singleton_self _, hlo, by simp only; omega⟩
  · have hr : n % 8 < 8 := Nat.mod_lt n (by omega)
    have hlist := chunks_of_le (Nat.not_lt.mp hsmall)
    refine ⟨8, 8, _, hlist, by omega, by omega, by omega, fun c hc => ?_, fun k hlo hhi => ?_⟩
    · rcases List.mem_append.mp hc with hc | hc
      · exact (ladder_bounds hc).1
      · have hw := tailChunks_width hc
        have htail := ((tailChunks_has_iff hr).mp ⟨c, hc, Nat.le_refl _, by omega⟩).1
        omega
    · obtain ⟨c, hc, hhas⟩ := (chunks_covers n k).mpr hhi
      rw [hlist] at hc
      rcases List.mem_cons.mp hc with rfl | hc
      · have hfirst := hhas.2
        simp only at hfirst
        omega
      · exact ⟨c, hc, hhas⟩

/-- A later chunk reads what the first one wrote. -/
theorem moveChunks_forward_ne {t s n : Nat} (hlt : s < t) (hin : t < s + n) (h2 : n ≠ 2)
    (h4 : n ≠ 4) (h8 : n ≠ 8) : ∃ m : Mem, moveChunks t s (chunks n) m ≠ move t s n m := by
  obtain ⟨e, width, rest, hchunks, he, hen, hwidth, hoff, hcover⟩ :=
    chunks_split (by omega) h2 h4 h8
  -- the first index from `e` on whose source the first chunk has overwritten
  obtain ⟨k, hk, hkn⟩ : ∃ k, k = max e (t - s) ∧ k < n := ⟨_, rfl, by omega⟩
  obtain ⟨mid, c, post, hrest, hlast, hpost⟩ := exists_last (hcover k (by omega) hkn)
  have hlist : chunks n = [] ++ ⟨0, width⟩ :: mid ++ c :: post := by
    rw [hchunks, hrest]
    rfl
  have htwice : ∀ m : Mem, moveChunks t s (chunks n) m (t + k) = m (s + (k - (t - s))) := by
    intro m
    apply moveChunks_twice hlist hlast hpost
    · omega
    · exact ⟨Nat.zero_le _, by simp only; omega⟩
    · intro c' hc' hhas
      have hlater := hoff c' (by simp [hrest, hc'])
      have hlo := hhas.1
      omega
    · simp
  exact exists_content_ne htwice (fun m => move_add hkn) (by omega)

/-- Chunk by chunk any memory comes out as if the range had been copied at once
exactly when `CopySafe` holds. -/
theorem moveChunks_eq_move_iff {t s n : Nat} :
    (∀ m : Mem, moveChunks t s (chunks n) m = move t s n m) ↔ CopySafe t s n := by
  constructor
  · intro h
    by_contra hunsafe
    have hne : ∃ m : Mem, moveChunks t s (chunks n) m ≠ move t s n m := by
      unfold CopySafe at hunsafe
      rcases Nat.lt_or_ge t s with hlt | hge
      · by_cases h6 : n % 8 = 6 ∧ s - t = 1
        · exact moveChunks_backward_ne hlt (e := 2) (by omega) (by omega) (by rw [h6.1]; rfl)
        · have h5 : n % 8 = 5 ∧ (s - t = 1 ∨ s - t = 2) := by omega
          exact moveChunks_backward_ne hlt (e := 1) (by omega) (by omega) (by rw [h5.1]; rfl)
      · exact moveChunks_forward_ne (by omega) (by omega) (by omega) (by omega) (by omega)
    obtain ⟨m, hm⟩ := hne
    exact hm (h m)
  · intro h m
    exact moveChunks_of_safe h m

/-! ## The routine -/

section Routine

variable {acc : Access} {dst src : UInt64} {dstOffset srcOffset byteLength : Int32} {n : Nat}

/-- On allowed ranges `MemCpy` returns and has moved its chunks. -/
theorem memCpy_run (hn : byteLength.toInt = n)
    (hr : acc.CanRead (src + ulong srcOffset).toNat n)
    (hw : acc.CanWrite (dst + ulong dstOffset).toNat n) (m : Mem) :
    memCpy dst dstOffset src srcOffset byteLength acc m =
      .ok ((), moveChunks (dst + ulong dstOffset).toNat (src + ulong srcOffset).toNat
        (chunks n) m) := by
  rw [memCpy_eq, toNat_ulong hn]
  exact copyChunks_mem hr hw fun c hc => chunks_bounds hc

/--
**`MemCpy` against `memmove`.**  Any length from 0 on and any pointers, with
the source range readable and the destination range writable and no other byte
necessarily either: `MemCpy` returns, changes the destination range only, and
leaves every memory as a copy of the whole range at once would exactly when
`CopySafe` holds.
-/
theorem memCpy_memmove_iff (hn : byteLength.toInt = n)
    (hr : acc.CanRead (src + ulong srcOffset).toNat n)
    (hw : acc.CanWrite (dst + ulong dstOffset).toNat n) :
    (∀ m, ∃ m', memCpy dst dstOffset src srcOffset byteLength acc m = .ok ((), m') ∧
      ∀ x, x < (dst + ulong dstOffset).toNat ∨ (dst + ulong dstOffset).toNat + n ≤ x →
        m' x = m x) ∧
    ((∀ m, memCpy dst dstOffset src srcOffset byteLength acc m =
        .ok ((), move (dst + ulong dstOffset).toNat (src + ulong srcOffset).toNat n m)) ↔
      CopySafe (dst + ulong dstOffset).toNat (src + ulong srcOffset).toNat n) := by
  constructor
  · intro m
    refine ⟨_, memCpy_run hn hr hw m, fun x hx => moveChunks_frame fun c hc => ?_⟩
    have hbounds := chunks_bounds hc
    omega
  · rw [← moveChunks_eq_move_iff]
    constructor
    · intro h m
      have hboth := (memCpy_run hn hr hw m).symm.trans (h m)
      exact congrArg Prod.snd (Except.ok.inj hboth)
    · intro h m
      rw [memCpy_run hn hr hw m, h m]

end Routine

/-- The theorem at three bytes, one byte down. -/
theorem memCpy_memmove_iff_down :
    CopySafe 64 65 3 ∧ ∀ m, memCpy 64 0 65 0 3 (.only 65 64 3 (by decide) (by decide)) m =
      .ok ((), move 64 65 3 m) :=
  have hsafe : CopySafe 64 65 3 := Or.inr (Or.inl ⟨by decide, by decide, by decide⟩)
  ⟨hsafe, (@memCpy_memmove_iff _ 64 65 0 0 3 3 rfl (Access.only_canRead _ _)
    (Access.only_canWrite _ _)).2.mpr hsafe⟩

end SockLynx.Util
