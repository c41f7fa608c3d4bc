/-!
# Endian swapping in `Util.cs`

`HtoN` and `NtoH` for the six integer types.  The methods assume a little
endian machine.  A signed overload casts to unsigned, swaps and casts back; all
arithmetic and all casts are C#'s unchecked ones.
-/

namespace SockLynx.Util

/-! ## 16 bits -/

/-- `HtoN(ushort)`.  The operands of the shifts are promoted to `int`. -/
def htoNUshort (input : UInt16) : UInt16 :=
  let promoted : Int32 := input.toUInt32.toInt32
  ((promoted >>> 8) + (promoted <<< 8)).toUInt32.toUInt16

/-- `HtoN(short)` -/
def htoNShort (input : Int16) : Int16 := (htoNUshort input.toUInt16).toInt16

/-- `NtoH(ushort)` -/
def ntoHUshort (input : UInt16) : UInt16 := htoNUshort input

/-- `NtoH(short)` -/
def ntoHShort (input : Int16) : Int16 := (htoNUshort input.toUInt16).toInt16

/-! ## 32 bits -/

/-- `HtoN(uint)` -/
def htoNUint (input : UInt32) : UInt32 :=
  let num1 := input &&& 0x00FF00FF
  let num2 := input &&& 0xFF00FF00
  (num1 >>> 8 ||| num1 <<< 24) + (num2 <<< 8 ||| num2 >>> 24)

/-- `HtoN(int)` -/
def htoNInt (input : Int32) : Int32 := (htoNUint input.toUInt32).toInt32

/-- `NtoH(uint)` -/
def ntoHUint (input : UInt32) : UInt32 := htoNUint input

/-- `NtoH(int)` -/
def ntoHInt (input : Int32) : Int32 := (htoNUint input.toUInt32).toInt32

/-! ## 64 bits -/

/-- `HtoN(ulong)` -/
def htoNUlong (input : UInt64) : UInt64 :=
  ((htoNUint input.toUInt32).toUInt64 <<< 32) + (htoNUint (input >>> 32).toUInt32).toUInt64

/-- `HtoN(long)` -/
def htoNLong (input : Int64) : Int64 := (htoNUlong input.toUInt64).toInt64

/-- `NtoH(ulong)` -/
def ntoHUlong (input : UInt64) : UInt64 := htoNUlong input

/-- `NtoH(long)` -/
def ntoHLong (input : Int64) : Int64 := (htoNUlong input.toUInt64).toInt64

end SockLynx.Util
