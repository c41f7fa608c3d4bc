import SockLynx.Lib.Words

/-!
# The memory routines of `Util.cs`

`MemCpy`, `MemSet` and `MemCmp` walk raw memory eight bytes at a time and
finish with one or two narrower accesses, which may overlap.  A `Raw` is a
computation on the bytes of a process with 64-bit addresses; it stops at the
first access to a byte that may not be read or written, so a routine that
returns has kept to the accessible bytes.

Pointer arithmetic and casts are C#'s unchecked ones: they wrap, and a signed
number is sign-extended.
-/

namespace SockLynx.Util

open SockLynx.Lib.Words

/-! ## Raw memory -/

/-- The addresses that may be read and written.  An address has 64 bits. -/
structure Access where
  readable : Nat → Bool
  writable : Nat → Bool
  readable_lt : ∀ x, readable x = true → x < 2 ^ 64
  writable_lt : ∀ x, writable x = true → x < 2 ^ 64

/-- Why a computation does not return: an access that is not allowed, or a
loop that does not end. -/
inductive Fault
  | access
  | endless
  deriving DecidableEq, Repr

/-- A computation on raw memory. -/
def Raw (α : Type) : Type := Access → Mem → Except Fault (α × Mem)

instance : Monad Raw where
  pure x := fun _ m => .ok (x, m)
  bind c f := fun acc m =>
    match c acc m with
    | .error fault => .error fault
    | .ok (x, m') => f x acc m'

/-- Byte `k` of a number, little-endian. -/
def byteOf (v k : Nat) : UInt8 := UInt8.ofNat (v / 256 ^ k)

/-- A `byte*` that is read through: an address, or `(byte*)&value + k` for a
local variable `value` of type `ulong`. -/
inductive BytePtr
  | mem (addr : UInt64)
  | ofLocal (value k : UInt64)

/-- Pointer arithmetic. -/
def BytePtr.add : BytePtr → UInt64 → BytePtr
  | .mem addr, n => .mem (addr + n)
  | .ofLocal value k, n => .ofLocal value (k + n)

instance : HAdd BytePtr UInt64 BytePtr := ⟨BytePtr.add⟩

/-- The `width` bytes from `p` on are all allowed. -/
def allowed (ok : Nat → Bool) (p width : Nat) : Bool := (List.range width).all fun k => ok (p + k)

/-- Read the word of `width` bytes at `p`. -/
def load (width : Nat) (p : BytePtr) : Raw Nat := fun acc m =>
  match p with
  | .mem addr =>
      if allowed acc.readable addr.toNat width then .ok (readLE m addr.toNat width, m)
      else .error .access
  | .ofLocal value k =>
      if k.toNat + width ≤ 8 then .ok (readLE (byteOf value.toNat) k.toNat width, m)
      else .error .access

/-- Write the word `v` of `width` bytes at `p`. -/
def store (width : Nat) (p : UInt64) (v : Nat) : Raw Unit := fun acc m =>
  if allowed acc.writable p.toNat width then .ok ((), writeLE m p.toNat width v)
  else .error .access

/-- `(ulong)n`, and what pointer arithmetic adds for an `int`. -/
def ulong (n : Int32) : UInt64 := n.toInt64.toUInt64

/-! ## Copy1 .. Copy8 -/

/-- One access of `width` bytes: the word is read and then written. -/
def copyWord (width : Nat) (pdst : UInt64) (psrc : BytePtr) : Raw Unit := do
  store width pdst (← load width psrc)

/-- Two accesses of `width` bytes, the second `offset` bytes further on. -/
def copyPair (width : Nat) (offset pdst : UInt64) (psrc : BytePtr) : Raw Unit := do
  copyWord width (pdst + 0) (psrc + (0 : UInt64))
  copyWord width (pdst + offset) (psrc + offset)

/-- `Copy1` -/
def copy1 : UInt64 → BytePtr → Raw Unit := copyWord 1

/-- `Copy2` -/
def copy2 : UInt64 → BytePtr → Raw Unit := copyWord 2

/-- `Copy3` -/
def copy3 : UInt64 → BytePtr → Raw Unit := copyPair 2 1

/-- `Copy4` -/
def copy4 : UInt64 → BytePtr → Raw Unit := copyWord 4

/-- `Copy5` -/
def copy5 : UInt64 → BytePtr → Raw Unit := copyPair 4 1

/-- `Copy6` -/
def copy6 : UInt64 → BytePtr → Raw Unit := copyPair 4 2

/-- `Copy7` -/
def copy7 : UInt64 → BytePtr → Raw Unit := copyPair 4 3

/-- `Copy8` -/
def copy8 : UInt64 → BytePtr → Raw Unit := copyWord 8

/-- The `switch` on the remaining bytes, the same in `MemCpy` and `MemSet`. -/
def copyTail (rest pdst : UInt64) (psrc : BytePtr) : Raw Unit :=
  match rest with
  | 1 => copy1 pdst psrc
  | 2 => copy2 pdst psrc
  | 3 => copy3 pdst psrc
  | 4 => copy4 pdst psrc
  | 5 => copy5 pdst psrc
  | 6 => copy6 pdst psrc
  | 7 => copy7 pdst psrc
  | _ => return ()

/-! ## The loop -/

/-- `for (; cursor < longWriteLimit; cursor += sizeof(long))`, at most `fuel`
times.  A body that returns false leaves the routine. -/
def forWords (longWriteLimit : UInt64) (body : UInt64 → Raw Bool) : Nat → UInt64 → Raw Bool
  | 0, _ => fun _ _ => .error .endless
  | fuel + 1, cursor =>
      if cursor < longWriteLimit then do
        if ← body cursor then forWords longWriteLimit body fuel (cursor + 8) else return false
      else return true

/-- The loop from `cursor = 0`.  The limit is a multiple of 8, so this fuel is
never used up. -/
def eachWord (longWriteLimit : UInt64) (body : UInt64 → Raw Bool) : Raw Bool :=
  forWords longWriteLimit body (longWriteLimit.toNat / 8 + 1) 0

/-! ## MemCpy and MemSet -/

/-- `MemCpy(byte*, int, byte*, int, int)` -/
def memCpy (dst : UInt64) (dstOffset : Int32) (src : UInt64) (srcOffset byteLength : Int32) :
    Raw Unit := do
  let psrc := src + ulong srcOffset
  let pdst := dst + ulong dstOffset
  let longByteLength := ulong byteLength
  let longWriteLimit := longByteLength &&& ~~~7
  let _ ← eachWord longWriteLimit fun cursor => do
    copy8 (pdst + cursor) (.mem (psrc + cursor))
    return true
  copyTail (longByteLength &&& 7) (pdst + longWriteLimit) (.mem (psrc + longWriteLimit))

/-- `MemSet(byte*, int, ulong, int)` -/
def memSet (dst : UInt64) (dstOffset : Int32) (ulongValue : UInt64) (byteLength : Int32) :
    Raw Unit := do
  let pdst := dst + ulong dstOffset
  let longByteLength := ulong byteLength
  let longWriteLimit := longByteLength &&& ~~~7
  let _ ← eachWord longWriteLimit fun cursor => do
    copy8 (pdst + cursor) (.ofLocal ulongValue 0)
    return true
  copyTail (longByteLength &&& 7) (pdst + longWriteLimit) (.ofLocal ulongValue 0)

/-- The pattern of `MemSet(byte*, int, byte, int)` -/
def bytePattern (byteValue : UInt8) : UInt64 :=
  let ulval := byteValue.toUInt64
  ulval ||| (ulval <<< 8) ||| (ulval <<< 16) ||| (ulval <<< 24) ||| (ulval <<< 32) |||
    (ulval <<< 40) ||| (ulval <<< 48) ||| (ulval <<< 56)

/-- The pattern of `MemSet(byte*, int, short, int)` -/
def shortPattern (shortValue : Int16) : UInt64 :=
  let ulval := shortValue.toInt64.toUInt64
  ulval ||| (ulval <<< 16) ||| (ulval <<< 32) ||| (ulval <<< 48)

/-- The pattern of `MemSet(byte*, int, int, int)` -/
def intPattern (intValue : Int32) : UInt64 :=
  let ulval := ulong intValue
  ulval ||| (ulval <<< 32)

/-- `MemSet(byte*, int, byte, int)` -/
def memSetByte (dst : UInt64) (dstOffset : Int32) (byteValue : UInt8) (byteLength : Int32) :
    Raw Unit :=
  memSet dst dstOffset (bytePattern byteValue) byteLength

/-- `MemSet(byte*, int, short, int)` -/
def memSetShort (dst : UInt64) (dstOffset : Int32) (shortValue : Int16) (byteLength : Int32) :
    Raw Unit :=
  memSet dst dstOffset (shortPattern shortValue) byteLength

/-- `MemSet(byte*, int, int, int)` -/
def memSetInt (dst : UInt64) (dstOffset : Int32) (intValue : Int32) (byteLength : Int32) :
    Raw Unit :=
  memSet dst dstOffset (intPattern intValue) byteLength

/-! ## Cmp1 .. Cmp8 and MemCmp -/

/-- Compare two words of `width` bytes. -/
def cmpWord (width : Nat) (pdst psrc : UInt64) : Raw Bool := do
  let x ← load width (.mem pdst)
  let y ← load width (.mem psrc)
  return x == y

/-- Compare two pairs of words, the second pair `offset` bytes further on and
only if the first are equal. -/
def cmpPair (width : Nat) (offset pdst psrc : UInt64) : Raw Bool := do
  if ← cmpWord width (pdst + 0) (psrc + 0) then
    cmpWord width (pdst + offset) (psrc + offset)
  else return false

/-- `Cmp1` -/
def cmp1 : UInt64 → UInt64 → Raw Bool := cmpWord 1

/-- `Cmp2` -/
def cmp2 : UInt64 → UInt64 → Raw Bool := cmpWord 2

/-- `Cmp3` -/
def cmp3 : UInt64 → UInt64 → Raw Bool := cmpPair 2 1

/-- `Cmp4` -/
def cmp4 : UInt64 → UInt64 → Raw Bool := cmpWord 4

/-- `Cmp5` -/
def cmp5 : UInt64 → UInt64 → Raw Bool := cmpPair 4 1

/-- `Cmp6` -/
def cmp6 : UInt64 → UInt64 → Raw Bool := cmpPair 4 2

/-- `Cmp7` -/
def cmp7 : UInt64 → UInt64 → Raw Bool := cmpPair 4 3

/-- `Cmp8` -/
def cmp8 : UInt64 → UInt64 → Raw Bool := cmpWord 8

/-- The `switch` of `MemCmp` on the remaining bytes. -/
def cmpTail (rest pdst psrc : UInt64) : Raw Bool :=
  match rest with
  | 1 => cmp1 pdst psrc
  | 2 => cmp2 pdst psrc
  | 3 => cmp3 pdst psrc
  | 4 => cmp4 pdst psrc
  | 5 => cmp5 pdst psrc
  | 6 => cmp6 pdst psrc
  | 7 => cmp7 pdst psrc
  | _ => return true

/-- `MemCmp(byte*, int, byte*, int, int)` -/
def memCmp (dst : UInt64) (dstOffset : Int32) (src : UInt64) (srcOffset byteLength : Int32) :
    Raw Bool := do
  let psrc := src + ulong srcOffset
  let pdst := dst + ulong dstOffset
  let longByteLength := ulong byteLength
  let longWriteLimit := longByteLength &&& ~~~7
  if ← eachWord longWriteLimit fun cursor => cmp8 (pdst + cursor) (psrc + cursor) then
    cmpTail (longByteLength &&& 7) (pdst + longWriteLimit) (psrc + longWriteLimit)
  else return false

end SockLynx.Util
