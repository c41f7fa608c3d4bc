import Mathlib.Data.List.Basic
import SockLynx.Lib.Casts
import SockLynx.Verified.Chunks

/-!
# What the memory routines read and write

An access is made exactly when all its bytes are allowed, so a run over chunks
returns exactly when every chunk it comes to is allowed.  On ranges that are
allowed as a whole the runs return, and their results are those of the moves,
fills and comparisons of byte ranges.

## Main results

* `copyChunks_cases`, `cmpChunks_cases` — a run returns, or it ends at an access
  that is not allowed.
* `copyChunks_mem` — copying within memory is `moveChunks`.
* `copyChunks_local` — copying from a local word is `paintChunks`.
* `cmpChunks_eq` — comparing is comparing the bytes.
-/

namespace SockLynx.Util

open SockLynx.Lib.Words
open SockLynx.Lib.Moves

/-! ## Lengths and allowed ranges -/

/-- A length that is not negative is cast to itself. -/
theorem toNat_ulong {byteLength : Int32} {n : Nat} (h : byteLength.toInt = n) :
    (ulong byteLength).toNat = n := by
  have hcast : ((ulong byteLength).toNat : Int) = byteLength.toInt % 2 ^ 64 :=
    Lib.Casts.toNat_signExtend byteLength
  have hlt := byteLength.toInt_lt
  omega

/-- The `n` bytes from `s` on may be read. -/
def Access.CanRead (acc : Access) (s n : Nat) : Prop := ∀ k < n, acc.readable (s + k) = true

/-- The `n` bytes from `t` on may be written. -/
def Access.CanWrite (acc : Access) (t n : Nat) : Prop := ∀ k < n, acc.writable (t + k) = true

/-- Only the `n` bytes from `s` on may be read, and only those from `t` on
written. -/
def Access.only (s t n : Nat) (hs : s + n ≤ 2 ^ 64) (ht : t + n ≤ 2 ^ 64) : Access where
  readable x := decide (s ≤ x ∧ x < s + n)
  writable x := decide (t ≤ x ∧ x < t + n)
  readable_lt x h := by
    have h := of_decide_eq_true h
    omega
  writable_lt x h := by
    have h := of_decide_eq_true h
    omega

theorem Access.only_canRead {s t n : Nat} (hs : s + n ≤ 2 ^ 64) (ht : t + n ≤ 2 ^ 64) :
    (Access.only s t n hs ht).CanRead s n := by
  intro k hk
  simp only [Access.only, decide_eq_true_eq]
  omega

theorem Access.only_canWrite {s t n : Nat} (hs : s + n ≤ 2 ^ 64) (ht : t + n ≤ 2 ^ 64) :
    (Access.only s t n hs ht).CanWrite t n := by
  intro k hk
  simp only [Access.only, decide_eq_true_eq]
  omega

theorem allowed_iff {ok : Nat → Bool} {p width : Nat} :
    allowed ok p width = true ↔ ∀ k < width, ok (p + k) = true := by
  simp [allowed]

/-- No address wraps inside an allowed range. -/
theorem toNat_add_ofNat {p : UInt64} {o : Nat} (h : p.toNat + o < 2 ^ 64) :
    (p + UInt64.ofNat o).toNat = p.toNat + o := by
  have ho : (UInt64.ofNat o).toNat = o :=
    UInt64.toNat_ofNat_of_lt' (by simp only [UInt64.size]; omega)
  rw [UInt64.toNat_add, ho, Nat.mod_eq_of_lt h]

/-- A chunk of an allowed range lies where its offset says, and is allowed. -/
theorem chunk_allowed {ok : Nat → Bool} (hok : ∀ x, ok x = true → x < 2 ^ 64) {p : UInt64} {n : Nat}
    (h : ∀ k < n, ok (p.toNat + k) = true) {c : Chunk} (hc : 0 < c.width ∧ c.offset + c.width ≤ n) :
    (p + UInt64.ofNat c.offset).toNat = p.toNat + c.offset ∧
      allowed ok (p + UInt64.ofNat c.offset).toNat c.width = true := by
  have hfirst : p.toNat + c.offset < 2 ^ 64 := hok _ (h c.offset (by omega))
  have hat := toNat_add_ofNat hfirst
  refine ⟨hat, allowed_iff.mpr fun k hk => ?_⟩
  rw [hat, Nat.add_assoc]
  exact h (c.offset + k) (by omega)

/-! ## One access -/

/-- The `width` bytes behind the pointer may be read. -/
def BytePtr.canRead (acc : Access) (width : Nat) : BytePtr → Bool
  | .mem addr => allowed acc.readable addr.toNat width
  | .ofLocal _ k => decide (k.toNat + width ≤ 8)

/-- The bytes behind the pointer. -/
def BytePtr.bytes (m : Mem) : BytePtr → Mem
  | .mem addr => fun j => m (addr.toNat + j)
  | .ofLocal value k => fun j => byteOf value.toNat (k.toNat + j)

section Accesses

variable {acc : Access} {m : Mem} {width : Nat}

theorem load_eq (p : BytePtr) :
    load width p acc m =
      if p.canRead acc width then .ok (readLE (p.bytes m) 0 width, m) else .error .access := by
  cases p with
  | mem addr =>
      have hword : readLE m addr.toNat width = readLE (BytePtr.bytes m (.mem addr)) 0 width := by
        rw [readLE_eq_iff]
        intro k _
        rw [Nat.zero_add]
        rfl
      show (if _ then Except.ok (readLE m addr.toNat width, m) else _) = _
      rw [hword]
      rfl
  | ofLocal value k =>
      have hword : readLE (byteOf value.toNat) k.toNat width =
          readLE (BytePtr.bytes m (.ofLocal value k)) 0 width := by
        rw [readLE_eq_iff]
        intro j _
        rw [Nat.zero_add]
        rfl
      simp only [load, hword, BytePtr.canRead, decide_eq_true_eq]

/-- Both sides of a copy are allowed. -/
def copyAllowed (acc : Access) (width : Nat) (pdst : UInt64) (psrc : BytePtr) : Bool :=
  psrc.canRead acc width && allowed acc.writable pdst.toNat width

/-- A copy that is allowed paints the bytes behind the source pointer. -/
theorem copyWord_eq (pdst : UInt64) (psrc : BytePtr) :
    copyWord width pdst psrc acc m =
      if copyAllowed acc width pdst psrc then
        .ok ((), paint (fun x => psrc.bytes m (x - pdst.toNat)) pdst.toNat width m)
      else .error .access := by
  have hbytes : writeLE m pdst.toNat width (readLE (psrc.bytes m) 0 width) =
      paint (fun x => psrc.bytes m (x - pdst.toNat)) pdst.toNat width m := by
    funext x
    by_cases hx : pdst.toNat ≤ x ∧ x < pdst.toNat + width
    · obtain ⟨k, rfl⟩ := Nat.exists_eq_add_of_le hx.1
      have hk : pdst.toNat + k - pdst.toNat = 0 + k := by omega
      rw [paint_of_mem hx, writeLE_readLE (by omega), hk]
    · rw [paint_of_not_mem hx, writeLE_frame (by omega)]
  unfold copyWord copyAllowed
  rw [Raw.bind_apply, load_eq]
  cases psrc.canRead acc width with
  | false => rfl
  | true => simp only [if_true, store, hbytes, Bool.true_and]

/-- Both words of a comparison are allowed. -/
def cmpAllowed (acc : Access) (width : Nat) (pdst psrc : UInt64) : Bool :=
  allowed acc.readable pdst.toNat width && allowed acc.readable psrc.toNat width

/-- A comparison that is allowed compares the bytes. -/
theorem cmpWord_eq (pdst psrc : UInt64) :
    cmpWord width pdst psrc acc m =
      if cmpAllowed acc width pdst psrc then
        .ok (decide (∀ k < width, m (pdst.toNat + k) = m (psrc.toNat + k)), m)
      else .error .access := by
  have hword : (readLE m pdst.toNat width == readLE m psrc.toNat width) =
      decide (∀ k < width, m (pdst.toNat + k) = m (psrc.toNat + k)) := by
    rw [Bool.eq_iff_iff, beq_iff_eq, decide_eq_true_iff, readLE_eq_iff]
  unfold cmpWord cmpAllowed
  rw [Raw.bind_apply, load]
  cases hdst : allowed acc.readable pdst.toNat width with
  | false => simp
  | true =>
      cases hsrc : allowed acc.readable psrc.toNat width with
      | false => simp [hsrc, Raw.bind_apply, load]
      | true => simp [hsrc, Raw.bind_apply, load, hword]

end Accesses

/-! ## Runs -/

section Runs

variable {acc : Access} {m : Mem} {pdst : UInt64} {psrc : Nat → BytePtr} {cs : List Chunk}

/-- The copy of chunk `c` is allowed. -/
def chunkAllowed (acc : Access) (pdst : UInt64) (psrc : Nat → BytePtr) (c : Chunk) : Bool :=
  copyAllowed acc c.width (pdst + UInt64.ofNat c.offset) (psrc c.offset)

/-- What the copy of chunk `c` does to the memory. -/
def copyStep (pdst : UInt64) (psrc : Nat → BytePtr) (m : Mem) (c : Chunk) : Mem :=
  paint (fun x => (psrc c.offset).bytes m (x - (pdst + UInt64.ofNat c.offset).toNat))
    (pdst + UInt64.ofNat c.offset).toNat c.width m

theorem copyChunks_of_allowed (h : ∀ c ∈ cs, chunkAllowed acc pdst psrc c = true) :
    copyChunks pdst psrc cs acc m = .ok ((), cs.foldl (copyStep pdst psrc) m) := by
  induction cs generalizing m with
  | nil => rfl
  | cons c cs ih =>
      have hc : copyWord c.width (pdst + UInt64.ofNat c.offset) (psrc c.offset) acc m =
          .ok ((), copyStep pdst psrc m c) := by
        rw [copyWord_eq]
        exact if_pos (h c List.mem_cons_self)
      rw [copyChunks, Raw.bind_ok hc]
      exact ih fun c' hc' => h c' (List.mem_cons_of_mem c hc')

theorem copyChunks_of_not_allowed (h : ∃ c ∈ cs, chunkAllowed acc pdst psrc c = false) :
    copyChunks pdst psrc cs acc m = .error .access := by
  induction cs generalizing m with
  | nil => simp at h
  | cons c cs ih =>
      have hword := @copyWord_eq acc m c.width (pdst + UInt64.ofNat c.offset) (psrc c.offset)
      rw [copyChunks]
      cases hc : chunkAllowed acc pdst psrc c with
      | false =>
          apply Raw.bind_error
          rw [hword]
          exact if_neg (Bool.eq_false_iff.mp hc)
      | true =>
          obtain ⟨c', hmem, hc'⟩ := h
          rcases List.mem_cons.mp hmem with rfl | hmem
          · simp [hc] at hc'
          · rw [Raw.bind_ok (hword.trans (if_pos hc))]
            exact ih ⟨c', hmem, hc'⟩

/-- A run of copies returns and all its chunks are allowed, or it ends at one
that is not. -/
theorem copyChunks_cases :
    (∃ m', copyChunks pdst psrc cs acc m = .ok ((), m') ∧
        ∀ c ∈ cs, chunkAllowed acc pdst psrc c = true) ∨
      copyChunks pdst psrc cs acc m = .error .access := by
  by_cases h : ∀ c ∈ cs, chunkAllowed acc pdst psrc c = true
  · exact Or.inl ⟨_, copyChunks_of_allowed h, h⟩
  · refine Or.inr (copyChunks_of_not_allowed ?_)
    simpa using h

/-- Copying within memory moves the chunks. -/
theorem copyChunks_mem {src : UInt64} {n : Nat} (hr : acc.CanRead src.toNat n)
    (hw : acc.CanWrite pdst.toNat n) (hcs : ∀ c ∈ cs, 0 < c.width ∧ c.offset + c.width ≤ n) :
    copyChunks pdst (fun o => .mem (src + UInt64.ofNat o)) cs acc m =
      .ok ((), moveChunks pdst.toNat src.toNat cs m) := by
  have hallowed : ∀ c ∈ cs,
      chunkAllowed acc pdst (fun o => .mem (src + UInt64.ofNat o)) c = true := by
    intro c hc
    have hdst := (chunk_allowed acc.writable_lt hw (hcs c hc)).2
    have hsrc := (chunk_allowed acc.readable_lt hr (hcs c hc)).2
    simp only [chunkAllowed, copyAllowed, BytePtr.canRead, hsrc, hdst, Bool.and_self]
  have hstep : ∀ m' : Mem, ∀ c ∈ cs,
      copyStep pdst (fun o => .mem (src + UInt64.ofNat o)) m' c =
        move (pdst.toNat + c.offset) (src.toNat + c.offset) c.width m' := by
    intro m' c hc
    have hdst := (chunk_allowed acc.writable_lt hw (hcs c hc)).1
    have hsrc := (chunk_allowed acc.readable_lt hr (hcs c hc)).1
    simp only [copyStep, BytePtr.bytes, hdst, hsrc, move]
  rw [copyChunks_of_allowed hallowed, List.foldl_ext _ _ m hstep]
  rfl

/-- Copying from a local word fills with its bytes, each at its own place. -/
theorem copyChunks_local {value : UInt64} {n : Nat} (hw : acc.CanWrite pdst.toNat n)
    (hcs : ∀ c ∈ cs, 0 < c.width ∧ c.offset + c.width ≤ n)
    (hwords : ∀ c ∈ cs, c.offset % 8 + c.width ≤ 8) :
    copyChunks pdst (fun o => .ofLocal value (UInt64.ofNat (o % 8))) cs acc m =
      .ok ((), paintChunks (fun x => byteOf value.toNat ((x - pdst.toNat) % 8)) pdst.toNat
        cs m) := by
  have hplace : ∀ o : Nat, (UInt64.ofNat (o % 8)).toNat = o % 8 := by
    intro o
    exact UInt64.toNat_ofNat_of_lt' (by simp only [UInt64.size]; omega)
  have hallowed : ∀ c ∈ cs,
      chunkAllowed acc pdst (fun o => .ofLocal value (UInt64.ofNat (o % 8))) c = true := by
    intro c hc
    have hdst := (chunk_allowed acc.writable_lt hw (hcs c hc)).2
    simp only [chunkAllowed, copyAllowed, BytePtr.canRead, hplace, hwords c hc, hdst,
      decide_true, Bool.and_self]
  have hstep : ∀ m' : Mem, ∀ c ∈ cs,
      copyStep pdst (fun o => .ofLocal value (UInt64.ofNat (o % 8))) m' c =
        paint (fun x => byteOf value.toNat ((x - pdst.toNat) % 8)) (pdst.toNat + c.offset)
          c.width m' := by
    intro m' c hc
    have hdst := (chunk_allowed acc.writable_lt hw (hcs c hc)).1
    have hword := hwords c hc
    rw [copyStep, hdst]
    apply paint_congr
    intro x hlo hhi
    have hbyte : c.offset % 8 + (x - (pdst.toNat + c.offset)) = (x - pdst.toNat) % 8 := by omega
    simp only [BytePtr.bytes, hplace, hbyte]
  rw [copyChunks_of_allowed hallowed, List.foldl_ext _ _ m hstep]
  rfl

/-! ### Comparing -/

/-- The bytes of chunk `c` are equal in both ranges. -/
def ChunkEq (m : Mem) (t s : Nat) (c : Chunk) : Prop := ∀ k, c.Has k → m (t + k) = m (s + k)

theorem chunkEq_iff {t s : Nat} {c : Chunk} :
    ChunkEq m t s c ↔
      ∀ k < c.width, m (t + c.offset + k) = m (s + c.offset + k) := by
  constructor
  · intro h k hk
    rw [Nat.add_assoc, Nat.add_assoc]
    exact h (c.offset + k) ⟨by omega, by omega⟩
  · intro h k hk
    obtain ⟨j, rfl⟩ := Nat.exists_eq_add_of_le hk.1
    have hj : j < c.width := by
      have := hk.2
      omega
    rw [← Nat.add_assoc, ← Nat.add_assoc]
    exact h j hj

/-- Comparing an allowed range reads it and finds all chunks equal, or not. -/
theorem cmpChunks_eq {psrc : UInt64} {n : Nat} (hdst : acc.CanRead pdst.toNat n)
    (hsrc : acc.CanRead psrc.toNat n) (hcs : ∀ c ∈ cs, 0 < c.width ∧ c.offset + c.width ≤ n) :
    ∃ x, cmpChunks pdst psrc cs acc m = .ok (x, m) ∧
      (x = true ↔ ∀ c ∈ cs, ChunkEq m pdst.toNat psrc.toNat c) := by
  induction cs with
  | nil => exact ⟨true, rfl, by simp⟩
  | cons c cs ih =>
      obtain ⟨x, hrun, hx⟩ := ih fun c' hc' => hcs c' (List.mem_cons_of_mem c hc')
      have hc := hcs c List.mem_cons_self
      obtain ⟨htoNat, hallowed⟩ := chunk_allowed acc.readable_lt hdst hc
      obtain ⟨htoNat', hallowed'⟩ := chunk_allowed acc.readable_lt hsrc hc
      have hword : cmpWord c.width (pdst + UInt64.ofNat c.offset) (psrc + UInt64.ofNat c.offset)
          acc m = .ok (decide (∀ k < c.width, m (pdst.toNat + c.offset + k) =
            m (psrc.toNat + c.offset + k)), m) := by
        rw [cmpWord_eq, cmpAllowed, hallowed, hallowed', htoNat, htoNat']
        rfl
      rw [cmpChunks, Raw.bind_ok hword]
      by_cases heq : ChunkEq m pdst.toNat psrc.toNat c
      · rw [decide_eq_true (chunkEq_iff.mp heq)]
        refine ⟨x, hrun, hx.trans ?_⟩
        simp [heq]
      · rw [decide_eq_false (mt chunkEq_iff.mpr heq)]
        refine ⟨false, rfl, ?_⟩
        simp [heq]

/-- A run of comparisons returns and its first chunk is allowed, or it ends at
one that is not. -/
theorem cmpChunks_cases {psrc : UInt64} :
    (∃ x, cmpChunks pdst psrc cs acc m = .ok (x, m) ∧ ∀ c, cs.head? = some c →
        cmpAllowed acc c.width (pdst + UInt64.ofNat c.offset) (psrc + UInt64.ofNat c.offset) =
          true) ∨
      cmpChunks pdst psrc cs acc m = .error .access := by
  induction cs with
  | nil => exact Or.inl ⟨true, rfl, by simp⟩
  | cons c cs ih =>
      have hword := @cmpWord_eq acc m c.width (pdst + UInt64.ofNat c.offset)
        (psrc + UInt64.ofNat c.offset)
      rw [cmpChunks]
      cases hc : cmpAllowed acc c.width (pdst + UInt64.ofNat c.offset)
          (psrc + UInt64.ofNat c.offset) with
      | false =>
          right
          apply Raw.bind_error
          rw [hword]
          exact if_neg (Bool.eq_false_iff.mp hc)
      | true =>
          have hfirst : ∀ c', (c :: cs).head? = some c' → cmpAllowed acc c'.width
              (pdst + UInt64.ofNat c'.offset) (psrc + UInt64.ofNat c'.offset) = true := by
            intro c' hc'
            obtain rfl : c = c' := by simpa using hc'
            exact hc
          rw [Raw.bind_ok (hword.trans (if_pos hc))]
          split
          · rcases ih with ⟨x, hrun, _⟩ | hfault
            · exact Or.inl ⟨x, hrun, hfirst⟩
            · exact Or.inr hfault
          · exact Or.inl ⟨false, rfl, hfirst⟩

end Runs

end SockLynx.Util
