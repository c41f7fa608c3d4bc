import Mathlib.Data.List.Forall2
import SockLynx.Lib.Arrays
import SockLynx.Lib.Casts
import SockLynx.Model.Managed

/-!
# Buffers that cross the boundary

A caller of `SocketSend` fills an array of `Buffer` and passes its address.  The
library reads `sl_buf_t` there.  Each side has two declarations of the struct:
`buf.h` picks one by the platform of the library, `Native.cs` by a symbol of the
managed build.  Where the picks differ, pointers are read as lengths.

## Main results

* `NewBuffer.seen_iff` — when native code finds the one buffer that was meant.
* `buffers_agree_iff` — when it finds an array of them.
-/

namespace SockLynx

open SockLynx.Lib.Arrays
open SockLynx.Lib.Blocks
open SockLynx.Lib.Layout
open SockLynx.Lib.Words
open SockLynx.Managed

/-- The arguments of `Buffer.New`, which takes the length as `uint` or `int`. -/
inductive NewBuffer
  | uint (buf : UInt64) (len : UInt32)
  | int (buf : UInt64) (len : Int32)

/-- The buffer it builds. -/
def NewBuffer.build (winsock : Bool) : NewBuffer → Buffer
  | .uint buf len => Buffer.new winsock buf len
  | .int buf len => Buffer.newInt winsock buf len

/-- The address that was meant. -/
def NewBuffer.buf : NewBuffer → UInt64
  | .uint buf _ | .int buf _ => buf

/-- The length that was meant. -/
def NewBuffer.length : NewBuffer → Int
  | .uint _ len => len.toNat
  | .int _ len => len.toInt

/-- Native code takes `s` for the buffer that was meant. -/
structure NewBuffer.Seen (arg : NewBuffer) (s : SlBuf) : Prop where
  base : s.base = arg.buf
  len : (s.len.toNat : Int) = arg.length

/-- The length is one, and both sides pick the same struct, or nobody can tell
the two members apart. -/
def NewBuffer.Fits (winsock : Bool) (p : Platform) (arg : NewBuffer) : Prop :=
  0 ≤ arg.length ∧ (winsock = p.winsock ∨ (arg.buf.toNat : Int) = arg.length)

/-- The array native code finds at `addr`. -/
def nativeBufs (p : Platform) (m : Mem) (addr count : Nat) : List SlBuf :=
  (loadArray slBufBytes m addr count).map (SlBuf.load p)

/-! ## One buffer -/

section OneBuffer

variable (buf : UInt64) (len : UInt32)

theorem Buffer.new_buf (winsock : Bool) :
    memberWord (bufferT winsock) (Buffer.new winsock buf len) .buf = buf.toNat := by
  have hne : BufferField.buf ≠ .len := by decide
  have hfits : offset (bufferT winsock) .buf + memberSize .buf (bufferT winsock) ≤ bufferSize := by
    cases winsock <;> decide
  have hlt : buf.toNat < 256 ^ memberSize .buf (bufferT winsock) := by
    cases winsock <;> exact buf.toNat_lt
  calc memberWord (bufferT winsock) (Buffer.new winsock buf len) .buf
      = memberWord (bufferT winsock)
          (setMember (bufferT winsock) Buffer.default .buf buf.toNat) .buf :=
        memberWord_setMember_of_ne hne
    _ = buf.toNat := memberWord_setMember_self hfits hlt

theorem Buffer.new_len (winsock : Bool) :
    memberWord (bufferT winsock) (Buffer.new winsock buf len) .len = len.toNat := by
  have hfits : offset (bufferT winsock) .len + memberSize .len (bufferT winsock) ≤ bufferSize := by
    cases winsock <;> decide
  have hlt : len.toNat < 256 ^ memberSize .len (bufferT winsock) := by
    have hlen := len.toNat_lt
    cases winsock with
    | true => exact hlen
    | false =>
        show len.toNat < 256 ^ 8
        omega
  exact memberWord_setMember_self hfits hlt

/-- The padding of the Winsock struct is zero. -/
theorem Buffer.new_padding : Block.word (Buffer.new true buf len) 4 4 = 0 := by
  have hbuf : ∀ v : Buffer, Block.word (setMember (bufferT true) v .buf buf.toNat) 4 4 =
      Block.word v 4 4 := fun v => Block.word_setWord_of_disjoint (Or.inl (by decide))
  have hlen : ∀ v : Buffer, Block.word (setMember (bufferT true) v .len len.toNat) 4 4 =
      Block.word v 4 4 := fun v => Block.word_setWord_of_disjoint (Or.inr (by decide))
  rw [Buffer.new, hlen, hbuf, Buffer.default, Block.word_zero]

/-- An 8-byte field by its halves. -/
theorem word_eight {n : Nat} (v : Block n) (off : Nat) :
    v.word off 8 = v.word off 4 + 256 ^ 4 * v.word (off + 4) 4 := readLE_add v.mem off 4 4

/-- Native code finds the members of its own struct where managed code put
them. -/
theorem SlBuf.load_new_of_eq (p : Platform) :
    SlBuf.load p (Buffer.new p.winsock buf len) = ⟨buf, len.toUInt64⟩ := by
  have hbuf := Buffer.new_buf buf len p.winsock
  have hlen := Buffer.new_len buf len p.winsock
  have hbase : memberWord (slBufT p) (Buffer.new p.winsock buf len) .base = buf.toNat := by
    cases p <;> exact hbuf
  have hlen' : memberWord (slBufT p) (Buffer.new p.winsock buf len) .len = len.toNat := by
    cases p <;> exact hlen
  rw [SlBuf.load, hbase, hlen', UInt64.ofNat_toNat, UInt64.ofNat_uInt32ToNat]

/-- In the other struct a length is found where the pointer should be, and the
pointer, or the part of it that fits, where the length should be. -/
theorem SlBuf.load_new_of_ne {winsock : Bool} {p : Platform} (h : winsock ≠ p.winsock) :
    SlBuf.load p (Buffer.new winsock buf len) =
      ⟨len.toUInt64, UInt64.ofNat (if p.winsock then buf.toNat % 2 ^ 32 else buf.toNat)⟩ := by
  have hbuf := Buffer.new_buf buf len winsock
  have hlen := Buffer.new_len buf len winsock
  cases hp : p.winsock with
  | true =>
      obtain rfl : winsock = false := by simpa [hp] using h
      have hwhole : Block.word (Buffer.new false buf len) 0 8 = buf.toNat := hbuf
      have hlow := Block.word_lt (Buffer.new false buf len) 0 4
      rw [word_eight] at hwhole
      have hbase : memberWord (slBufT p) (Buffer.new false buf len) .base = len.toNat := by
        rw [slBufT, hp]
        exact hlen
      have hlen' : memberWord (slBufT p) (Buffer.new false buf len) .len =
          buf.toNat % 2 ^ 32 := by
        rw [slBufT, hp]
        show Block.word (Buffer.new false buf len) 0 4 = buf.toNat % 2 ^ 32
        omega
      rw [SlBuf.load, hbase, hlen', UInt64.ofNat_uInt32ToNat]
      rfl
  | false =>
      obtain rfl : winsock = true := by simpa [hp] using h
      have hlow : Block.word (Buffer.new true buf len) 0 4 = len.toNat := hlen
      have hbase : memberWord (slBufT p) (Buffer.new true buf len) .base = len.toNat := by
        rw [slBufT, hp]
        show Block.word (Buffer.new true buf len) 0 8 = len.toNat
        rw [word_eight, hlow, Buffer.new_padding]
        rfl
      have hlen' : memberWord (slBufT p) (Buffer.new true buf len) .len = buf.toNat := by
        rw [slBufT, hp]
        exact hbuf
      rw [SlBuf.load, hbase, hlen', UInt64.ofNat_uInt32ToNat]
      rfl

end OneBuffer

/-- A length is passed on exactly when it is not negative. -/
theorem NewBuffer.build_eq (winsock : Bool) (arg : NewBuffer) :
    ∃ len : UInt32, arg.build winsock = Buffer.new winsock arg.buf len ∧
      ((len.toNat : Int) = arg.length ↔ 0 ≤ arg.length) ∧
      (0 ≤ arg.length → arg.length < 2 ^ 32) := by
  cases arg with
  | uint buf len =>
      have hlt := len.toNat_lt
      refine ⟨len, rfl, ⟨fun _ => ?_, fun _ => rfl⟩, fun _ => ?_⟩ <;>
        simp only [NewBuffer.length] <;> omega
  | int buf len =>
      have hcast := Lib.Casts.toNat_toUInt32 len
      have hlt := len.toInt_lt
      refine ⟨len.toUInt32, rfl, ?_, fun _ => ?_⟩ <;> simp only [NewBuffer.length] <;> omega

/-- Native code finds the buffer that was meant exactly when it fits. -/
theorem NewBuffer.seen_iff (winsock : Bool) (p : Platform) (arg : NewBuffer) :
    arg.Seen (SlBuf.load p (arg.build winsock)) ↔ arg.Fits winsock p := by
  obtain ⟨len, hbuild, hlen, hlt⟩ := arg.build_eq winsock
  rw [hbuild]
  by_cases h : winsock = p.winsock
  · subst h
    rw [SlBuf.load_new_of_eq]
    have hto : (len.toUInt64.toNat : Int) = len.toNat := by rw [UInt32.toNat_toUInt64]
    constructor
    · intro hseen
      exact ⟨hlen.mp (hto.symm.trans hseen.len), Or.inl rfl⟩
    · intro hfits
      exact ⟨rfl, hto.trans (hlen.mpr hfits.1)⟩
  · rw [SlBuf.load_new_of_ne _ _ h]
    have hbase : len.toUInt64 = arg.buf ↔ len.toNat = arg.buf.toNat := by
      rw [← UInt64.toNat_inj, UInt32.toNat_toUInt64]
    have hbuf := arg.buf.toNat_lt
    have hlen32 := len.toNat_lt
    -- the pointer is read back whole, since it is the length
    have hread : len.toNat = arg.buf.toNat →
        (UInt64.ofNat (if p.winsock then arg.buf.toNat % 2 ^ 32 else arg.buf.toNat)).toNat =
          arg.buf.toNat := by
      intro heq
      rw [UInt64.toNat_ofNat']
      split <;> omega
    constructor
    · intro hseen
      have heq := hbase.mp hseen.base
      have hmeant : (arg.buf.toNat : Int) = arg.length := by
        rw [← hread heq]
        exact hseen.len
      exact ⟨by omega, Or.inr hmeant⟩
    · intro hfits
      have hmeant : (arg.buf.toNat : Int) = arg.length := hfits.2.resolve_left h
      have heq : len.toNat = arg.buf.toNat := by
        have hpassed := hlen.mpr hfits.1
        omega
      refine ⟨hbase.mpr heq, ?_⟩
      rw [← hmeant]
      exact congrArg Int.ofNat (hread heq)

/-! ## Arrays -/

/--
**Buffers.**  For every memory, address and array of buffers, whatever its
length: native code finds at the address the buffers that managed code meant,
each in its place, exactly when no length is negative and either both sides picked
the same struct or every pointer equals its length.
-/
theorem buffers_agree_iff (winsock : Bool) (p : Platform) (m : Mem) (addr : Nat)
    (args : List NewBuffer) :
    List.Forall₂ NewBuffer.Seen args
        (nativeBufs p (storeArray m addr (args.map (NewBuffer.build winsock))) addr args.length) ↔
      ∀ arg ∈ args, arg.Fits winsock p := by
  have hread := loadArray_storeArray m addr (args.map (NewBuffer.build winsock))
  rw [List.length_map] at hread
  rw [nativeBufs, hread, List.map_map, List.forall₂_map_right_iff, List.forall₂_same]
  constructor
  · intro hseen arg harg
    exact (NewBuffer.seen_iff winsock p arg).mp (hseen arg harg)
  · intro hfits arg harg
    exact (NewBuffer.seen_iff winsock p arg).mpr (hfits arg harg)

end SockLynx
