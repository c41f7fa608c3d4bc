import SockLynx.Model.Endian
import SockLynx.Model.Native

/-!
# The structs of `Native.cs`

Managed code declares the shared structs a second time, with explicit offsets
and with the IPv4 and IPv6 members of an endpoint overlaid.  A managed struct
is its bytes; a field is the word or the block at the declared offset.
-/

namespace SockLynx.Managed

open SockLynx.Lib.Blocks
open SockLynx.Lib.Layout

/-! ## Sizes -/

/-- `SL_IP4_SIZE` -/
abbrev slIp4Size : Nat := 4

/-- `SL_IP6_SIZE` -/
abbrev slIp6Size : Nat := 16

/-- `SL_ENDPOINT_SIZE`, with `SL_IPV6_ENABLED`. -/
abbrev slEndpointSize : Nat := 28

/-- `SL_SOCK_SIZE_UNALIGNED` -/
abbrev slSockSizeUnaligned : Nat := 32 + slEndpointSize

/-- `SL_SOCK_SIZE`: `(SL_SOCK_SIZE_UNALIGNED & ~(sizeof(ulong) - 1)) + sizeof(ulong)` -/
abbrev slSockSize : Nat := slSockSizeUnaligned / 8 * 8 + 8

/-! ## `Context` -/

/-- `Context` -/
abbrev Context := Block 8

/-- `[FieldOffset(0)] state` -/
def Context.state (ctx : Context) : Int32 := (UInt32.ofNat (ctx.word 0 4)).toInt32

/-- `ContextState.Started` -/
def contextStateStarted : Int32 := 1

/-- `Context.Initialized` -/
def Context.initialized (ctx : Context) : Bool := ctx.state == contextStateStarted

/-- `[FieldOffset(4)] af_inet` -/
def Context.afInet (ctx : Context) : UInt16 := UInt16.ofNat (ctx.word 4 2)

/-- `[FieldOffset(6)] af_inet6` -/
def Context.afInet6 (ctx : Context) : UInt16 := UInt16.ofNat (ctx.word 6 2)

/-! ## `IPv4` and `IPv6` -/

/-- `IPv4` -/
abbrev IPv4 := Block slIp4Size

/-- `IPv6` -/
abbrev IPv6 := Block slIp6Size

/-- `default(IPv4)` -/
def IPv4.default : IPv4 := Block.zero slIp4Size

/-- `[FieldOffset(0)] byte_addr[k]` -/
def IPv4.byteAddr (ip : IPv4) (k : Nat) : UInt8 := UInt8.ofNat (ip.word k 1)

def IPv4.setByteAddr (ip : IPv4) (k : Nat) (byte : UInt8) : IPv4 := ip.setWord k 1 byte.toNat

/-- `IPv4.New` -/
def IPv4.new (b0 b1 b2 b3 : UInt8) : IPv4 :=
  let ip := IPv4.default
  let ip := ip.setByteAddr 0 b0
  let ip := ip.setByteAddr 1 b1
  let ip := ip.setByteAddr 2 b2
  ip.setByteAddr 3 b3

/-- `default(IPv6)` -/
def IPv6.default : IPv6 := Block.zero slIp6Size

/-- `[FieldOffset(0)] byte_addr[k]` -/
def IPv6.byteAddr (ip : IPv6) (k : Nat) : UInt8 := UInt8.ofNat (ip.word k 1)

/-- `[FieldOffset(0)] short_addr[k]` -/
def IPv6.shortAddr (ip : IPv6) (k : Nat) : UInt16 := UInt16.ofNat (ip.word (2 * k) 2)

def IPv6.setShortAddr (ip : IPv6) (k : Nat) (short : UInt16) : IPv6 :=
  ip.setWord (2 * k) 2 short.toNat

/-- `IPv6.New` of eight `ushort` -/
def IPv6.new (s0 s1 s2 s3 s4 s5 s6 s7 : UInt16) : IPv6 :=
  let ip := IPv6.default
  let ip := ip.setShortAddr 0 (Util.htoNUshort s0)
  let ip := ip.setShortAddr 1 (Util.htoNUshort s1)
  let ip := ip.setShortAddr 2 (Util.htoNUshort s2)
  let ip := ip.setShortAddr 3 (Util.htoNUshort s3)
  let ip := ip.setShortAddr 4 (Util.htoNUshort s4)
  let ip := ip.setShortAddr 5 (Util.htoNUshort s5)
  let ip := ip.setShortAddr 6 (Util.htoNUshort s6)
  ip.setShortAddr 7 (Util.htoNUshort s7)

/-- `(ushort)n` -/
def ushort (n : Int32) : UInt16 := n.toUInt32.toUInt16

/-- `IPv6.New` of eight `int` -/
def IPv6.newInt (s0 s1 s2 s3 s4 s5 s6 s7 : Int32) : IPv6 :=
  IPv6.new (ushort s0) (ushort s1) (ushort s2) (ushort s3) (ushort s4) (ushort s5) (ushort s6)
    (ushort s7)

/-! ## `Endpoint` -/

/-- `Endpoint` -/
abbrev Endpoint := Block slEndpointSize

/-- `default(Endpoint)` -/
def Endpoint.default : Endpoint := Block.zero slEndpointSize

/-- `[FieldOffset(0)] af` -/
def Endpoint.af (endpoint : Endpoint) : UInt16 := UInt16.ofNat (endpoint.word 0 2)

def Endpoint.setAf (endpoint : Endpoint) (af : UInt16) : Endpoint := endpoint.setWord 0 2 af.toNat

/-- `[FieldOffset(2)] port` -/
def Endpoint.port (endpoint : Endpoint) : UInt16 := UInt16.ofNat (endpoint.word 2 2)

def Endpoint.setPort (endpoint : Endpoint) (port : UInt16) : Endpoint :=
  endpoint.setWord 2 2 port.toNat

/-- `[FieldOffset(4)] addr4` -/
def Endpoint.addr4 (endpoint : Endpoint) : IPv4 := endpoint.sub 4 slIp4Size

def Endpoint.setAddr4 (endpoint : Endpoint) (addr4 : IPv4) : Endpoint :=
  endpoint.store 4 addr4.toList

/-- `[FieldOffset(4)] flowinfo` -/
def Endpoint.flowinfo (endpoint : Endpoint) : UInt32 := UInt32.ofNat (endpoint.word 4 4)

def Endpoint.setFlowinfo (endpoint : Endpoint) (flowinfo : UInt32) : Endpoint :=
  endpoint.setWord 4 4 flowinfo.toNat

/-- `[FieldOffset(8)] addr6` -/
def Endpoint.addr6 (endpoint : Endpoint) : IPv6 := endpoint.sub 8 slIp6Size

def Endpoint.setAddr6 (endpoint : Endpoint) (addr6 : IPv6) : Endpoint :=
  endpoint.store 8 addr6.toList

/-- `[FieldOffset(24)] scope_id` -/
def Endpoint.scopeId (endpoint : Endpoint) : UInt32 := UInt32.ofNat (endpoint.word 24 4)

def Endpoint.setScopeId (endpoint : Endpoint) (scopeId : UInt32) : Endpoint :=
  endpoint.setWord 24 4 scopeId.toNat

/-- `Endpoint.NewV4` -/
def Endpoint.newV4 (ctx : Context) (port : UInt16) (addr4 : IPv4) : Endpoint :=
  let endpoint := Endpoint.default
  let endpoint := endpoint.setAf ctx.afInet
  let endpoint := endpoint.setPort port
  endpoint.setAddr4 addr4

/-- `Endpoint.NewV4` with an `int` port -/
def Endpoint.newV4Int (ctx : Context) (port : Int32) (addr4 : IPv4) : Endpoint :=
  Endpoint.newV4 ctx (ushort port) addr4

/-- `Endpoint.NewV6` -/
def Endpoint.newV6 (ctx : Context) (port : UInt16) (addr6 : IPv6) (flowinfo scopeId : UInt32) :
    Endpoint :=
  let endpoint := Endpoint.default
  let endpoint := endpoint.setAf ctx.afInet6
  let endpoint := endpoint.setPort port
  let endpoint := endpoint.setFlowinfo flowinfo
  let endpoint := endpoint.setScopeId scopeId
  endpoint.setAddr6 addr6

/-- `Endpoint.NewV6` with an `int` port -/
def Endpoint.newV6Int (ctx : Context) (port : Int32) (addr6 : IPv6) (flowinfo scopeId : UInt32) :
    Endpoint :=
  Endpoint.newV6 ctx (ushort port) addr6 flowinfo scopeId

/-! ## `Socket` -/

/-- `Socket` -/
abbrev Socket := Block slSockSize

/-- `default(Socket)` -/
def Socket.default : Socket := Block.zero slSockSize

/-- `[FieldOffset(0)] fd` -/
def Socket.fd (sock : Socket) : Int64 := (UInt64.ofNat (sock.word 0 8)).toInt64

/-- `[FieldOffset(8)] dir` -/
def Socket.dir (sock : Socket) : UInt32 := UInt32.ofNat (sock.word 8 4)

/-- `[FieldOffset(12)] state` -/
def Socket.state (sock : Socket) : UInt32 := UInt32.ofNat (sock.word 12 4)

/-- `[FieldOffset(16)] type` -/
def Socket.type (sock : Socket) : UInt32 := UInt32.ofNat (sock.word 16 4)

def Socket.setType (sock : Socket) (type : UInt32) : Socket := sock.setWord 16 4 type.toNat

/-- `[FieldOffset(20)] proto` -/
def Socket.proto (sock : Socket) : UInt32 := UInt32.ofNat (sock.word 20 4)

def Socket.setProto (sock : Socket) (proto : UInt32) : Socket := sock.setWord 20 4 proto.toNat

/-- `[FieldOffset(24)] error` -/
def Socket.error (sock : Socket) : UInt32 := UInt32.ofNat (sock.word 24 4)

/-- `[FieldOffset(28)] flags` -/
def Socket.flags (sock : Socket) : UInt32 := UInt32.ofNat (sock.word 28 4)

/-- `SocketState.Bound` -/
def socketStateBound : UInt32 := 2

/-- `SocketFlags.NonBlocking` -/
def socketFlagsNonBlocking : UInt32 := 1

/-- `Socket.HasFlag`: every bit of `flags` is set. -/
def Socket.hasFlag (sock : Socket) (flags : UInt32) : Bool := sock.flags &&& flags == flags

/-- `[FieldOffset(32)] endpoint` -/
def Socket.endpoint (sock : Socket) : Endpoint := sock.sub 32 slEndpointSize

def Socket.setEndpoint (sock : Socket) (endpoint : Endpoint) : Socket :=
  sock.store 32 endpoint.toList

/-- `SockType.Dgram` -/
def sockTypeDgram : UInt32 := 2

/-- `SockProto.UDP` -/
def sockProtoUdp : UInt32 := 17

/-- `Socket.NewUDP`, which ignores its context. -/
def Socket.newUDP (_ctx : Context) (endpoint : Endpoint) : Socket :=
  let sock := Socket.default
  let sock := sock.setProto sockProtoUdp
  let sock := sock.setType sockTypeDgram
  sock.setEndpoint endpoint

/-! ## `Buffer`

The one struct with `LayoutKind.Sequential`.  It is declared twice, and
`SL_SOCK_API_WINSOCK` picks the declaration: a symbol of the managed build, which
nothing ties to the platform of the library. -/

/-- The members of `Buffer`. -/
inductive BufferField
  | buf
  | len
  deriving DecidableEq, Repr

/-- `Buffer`, in a build that defines `SL_SOCK_API_WINSOCK` or does not. -/
def bufferT (winsock : Bool) : List (Member BufferField) :=
  if winsock then [⟨.len, 4, 4⟩, ⟨.buf, 8, 8⟩] else [⟨.buf, 8, 8⟩, ⟨.len, 8, 8⟩]

/-- `sizeof(Buffer)`, in a 64-bit process. -/
abbrev bufferSize : Nat := 16

/-- `Buffer` -/
abbrev Buffer := Block bufferSize

/-- `default(Buffer)` -/
def Buffer.default : Buffer := Block.zero bufferSize

/-- `Buffer.New`; the cast `(void*)len` keeps the number. -/
def Buffer.new (winsock : Bool) (buf : UInt64) (len : UInt32) : Buffer :=
  let buffer := Buffer.default
  let buffer := setMember (bufferT winsock) buffer .buf buf.toNat
  setMember (bufferT winsock) buffer .len len.toNat

/-- `Buffer.New` with an `int` length -/
def Buffer.newInt (winsock : Bool) (buf : UInt64) (len : Int32) : Buffer :=
  Buffer.new winsock buf len.toUInt32

end SockLynx.Managed
