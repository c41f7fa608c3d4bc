import SockLynx.Lib.Blocks
import SockLynx.Lib.Layout
import SockLynx.Model.Platform

/-!
# The data types of the headers

`sl_endpoint_t` is a union of two address structs, so it is kept as what it
is in memory, 28 bytes; its fields are read through the struct layouts of
`endpoint.h`, which differ on OSX by a leading length byte.  `sl_sock_t`,
`sl_sys_t` and `sl_buf_t` are records with the field types of the headers;
how the first two lie in memory is the business of `SockLynx.Model.Native`.
-/

namespace SockLynx

open SockLynx.Lib.Blocks
open SockLynx.Lib.Layout

/-! ## Endpoints (`endpoint.h`) -/

/-- `SL_PLATFORM_OSX`: the address structs start with a length byte and
`SL_AF_TYPE` is `uint8_t`. -/
def Platform.hasLen : Platform → Bool
  | osx => true
  | _ => false

/-- The members of `sl_sockaddr4_t` and `sl_sockaddr6_t`. -/
inductive AddrField
  | len
  | af
  | port
  | flowinfo
  | addr
  | scopeId
  | pad
  deriving DecidableEq, Repr

/-- The members that open both structs; `sizeof(SL_AF_TYPE)` is the size of
`af`. -/
def addrHead (p : Platform) : List (Member AddrField) :=
  if p.hasLen then [⟨.len, 1, 1⟩, ⟨.af, 1, 1⟩] else [⟨.af, 2, 2⟩]

/-- `sl_sockaddr4_t` -/
def slSockaddr4 (p : Platform) : List (Member AddrField) :=
  addrHead p ++ [⟨.port, 2, 2⟩, ⟨.addr, 4, 4⟩, ⟨.pad, 8, 1⟩]

/-- `sl_sockaddr6_t` -/
def slSockaddr6 (p : Platform) : List (Member AddrField) :=
  addrHead p ++ [⟨.port, 2, 2⟩, ⟨.flowinfo, 4, 4⟩, ⟨.addr, 16, 1⟩, ⟨.scopeId, 4, 4⟩]

/-- `sizeof(sl_endpoint_t)` -/
abbrev slEndpointBytes : Nat := 28

theorem structSize_slSockaddr4 (p : Platform) : structSize (slSockaddr4 p) = 16 := by
  cases p <;> rfl

theorem structSize_slSockaddr6 (p : Platform) :
    structSize (slSockaddr6 p) = slEndpointBytes := by
  cases p <;> rfl

/-- `sl_endpoint_t`, the bytes of the union. -/
abbrev SlEndpoint := Block slEndpointBytes

/-- The member `k` of a struct that overlays the union, as a number. -/
def SlEndpoint.field (e : SlEndpoint) (ms : List (Member AddrField)) (k : AddrField) : Nat :=
  e.word (offset ms k) (memberSize k ms)

/-- The member `k` of a struct that overlays the union, as bytes. -/
def SlEndpoint.fieldBytes (e : SlEndpoint) (ms : List (Member AddrField)) (k : AddrField) :
    Block (memberSize k ms) :=
  e.sub (offset ms k) (memberSize k ms)

/-- `(uint16_t)endpoint->addr4.af` -/
def SlEndpoint.af (p : Platform) (e : SlEndpoint) : UInt16 :=
  UInt16.ofNat (e.field (slSockaddr4 p) .af)

/-- Where the family lies, by layout. -/
theorem SlEndpoint.af_eq (p : Platform) (e : SlEndpoint) :
    e.af p = UInt16.ofNat (if p.hasLen then e.word 1 1 else e.word 0 2) := by
  cases p <;> rfl

/-- The union after `bs` was written at its start. -/
def SlEndpoint.put (e : SlEndpoint) (bs : List UInt8) : SlEndpoint := e.store 0 bs

/-! ## Buffers (`buf.h`) -/

/-- `sl_buf_t` -/
structure SlBuf where
  base : UInt64
  len : UInt64
  deriving DecidableEq, Repr

/-! ## Sockets (`sock.h`) -/

/-- `sl_sock_state_t` -/
inductive SlSockState
  | new
  | created
  | bound
  | opened
  | closed
  | error
  deriving DecidableEq, Repr

/-- The enumerator's value; `SL_SOCK_STATE_OPEN` is `opened`. -/
def SlSockState.val : SlSockState → UInt32
  | new => 0
  | created => 1
  | bound => 2
  | opened => 3
  | closed => 4
  | error => 5

/-- `sl_sock_dir_t` has no setter call in the library; a zeroed socket has
`SL_SOCK_DIR_NONE`. -/
def slSockDirNone : UInt32 := 0

/-- `SL_SOCK_TYPE_DGRAM` -/
def slSockTypeDgram : UInt32 := 2

/-- `SL_SOCK_PROTO_UDP` -/
def slSockProtoUdp : UInt32 := 17

/-- `sl_sock_flag_t` -/
inductive SlSockFlag
  | nonblocking
  | wouldblockRead
  | wouldblockWrite
  | ipv4Disabled
  | ipv6Disabled
  deriving DecidableEq, Repr

/-- The enumerator's value, `1 << 0` to `1 << 4`. -/
def SlSockFlag.val : SlSockFlag → UInt32
  | nonblocking => 1
  | wouldblockRead => 2
  | wouldblockWrite => 4
  | ipv4Disabled => 8
  | ipv6Disabled => 16

/-- `sl_sock_t` -/
structure SlSock where
  fd : Int64
  dir : UInt32
  state : UInt32
  type : UInt32
  proto : UInt32
  error : UInt32
  flags : UInt32
  endpoint : SlEndpoint
  deriving DecidableEq, Repr

/-- A zeroed `sl_sock_t` with the given type, protocol and endpoint. -/
def SlSock.zeroed (type proto : UInt32) (endpoint : SlEndpoint) : SlSock where
  fd := 0
  dir := slSockDirNone
  state := SlSockState.new.val
  type := type
  proto := proto
  error := 0
  flags := 0
  endpoint := endpoint

/-- The bit `f` of `sock->flags` is set. -/
def SlSock.hasFlag (s : SlSock) (f : SlSockFlag) : Bool := s.flags &&& f.val != 0

/-! ## The network context (`sys.h`) -/

/-- `sl_sys_t` -/
structure SlSys where
  state : UInt32
  afInet : UInt16
  afInet6 : UInt16
  deriving DecidableEq, Repr

/-- `SL_SYS_STATE_STOPPED` -/
def slSysStateStopped : UInt32 := 0

/-- `SL_SYS_STATE_STARTED` -/
def slSysStateStarted : UInt32 := 1

end SockLynx
