import SockLynx.Model.Endpoint
import SockLynx.Model.Sys

/-!
# `sock.h`

The socket functions, statement by statement.  `#if SL_SOCK_API_WINSOCK` is
the conditional on `b.platform.winsock`; `SL_GUARD(expr)` is
`if expr ≠ 0 then return slErr`.
-/

namespace SockLynx

variable {ι : Type} [DecidableEq ι]

/-! ## Field access -/

/-- `sl_sock_error_set` -/
def slSockErrorSet (b : Build) (sock : Option ι) (error : UInt32) : Sl ι Unit := do
  slAssert b sock.isSome
  assign sock fun s => { s with error := error }

/-- `sl_sock_fd_get` -/
def slSockFdGet (b : Build) (sock : Option ι) : Sl ι Int64 := do
  slAssert b sock.isSome
  return b.platform.sockType (← deref sock).fd

/-- `sl_sock_fd_set` -/
def slSockFdSet (b : Build) (sock : Option ι) (sockfd : Int64) : Sl ι Int32 := do
  slAssert b sock.isSome
  if b.platform.winsock then
    -- INVALID_SOCKET is ~0
    if sockfd == -1 then
      slSockErrorSet b sock (← slSysErrno).toUInt32
      return slErr
  else
    if sockfd < 0 then
      slSockErrorSet b sock (← slSysErrno).toUInt32
      return slErr
  assign sock fun s => { s with fd := sockfd }
  return slOk

/-- `sl_sock_dir_set` -/
def slSockDirSet (b : Build) (sock : Option ι) (dir : UInt32) : Sl ι Unit := do
  slAssert b sock.isSome
  assign sock fun s => { s with dir := dir }

/-- `sl_sock_state_set` -/
def slSockStateSet (b : Build) (sock : Option ι) (state : SlSockState) : Sl ι Unit := do
  slAssert b sock.isSome
  assign sock fun s => { s with state := state.val }

/-- `sl_sock_flags_set` -/
def slSockFlagsSet (b : Build) (sock : Option ι) (flags : SlSockFlag) : Sl ι Unit := do
  slAssert b sock.isSome
  assign sock fun s => { s with flags := s.flags ||| flags.val }

/-- `sl_sock_flags_unset` -/
def slSockFlagsUnset (b : Build) (sock : Option ι) (flags : SlSockFlag) : Sl ι Unit := do
  slAssert b sock.isSome
  assign sock fun s => { s with flags := s.flags &&& ~~~flags.val }

/-- `sl_sock_flags_clear` -/
def slSockFlagsClear (b : Build) (sock : Option ι) : Sl ι Unit := do
  slAssert b sock.isSome
  assign sock fun s => { s with flags := 0 }

/-- `sl_sock_type_set` -/
def slSockTypeSet (b : Build) (sock : Option ι) (type : UInt32) : Sl ι Unit := do
  slAssert b sock.isSome
  assign sock fun s => { s with type := type }

/-- `sl_sock_proto_set` -/
def slSockProtoSet (b : Build) (sock : Option ι) (proto : UInt32) : Sl ι Unit := do
  slAssert b sock.isSome
  assign sock fun s => { s with proto := proto }

/-! What the setters do to a socket that exists. -/

section Setters

variable (b : Build) (w : World ι) (i : ι)

@[simp] theorem slSockErrorSet_eq (error : UInt32) :
    slSockErrorSet b (some i) error w =
      .ok ((), w.setSock i { w.socks i with error := error }) := by
  simp [slSockErrorSet, Sl.bind_apply]

omit [DecidableEq ι] in
@[simp] theorem slSockFdGet_eq :
    slSockFdGet b (some i) w = .ok (b.platform.sockType (w.socks i).fd, w) := by
  simp [slSockFdGet, Sl.bind_apply]

@[simp] theorem slSockStateSet_eq (state : SlSockState) :
    slSockStateSet b (some i) state w =
      .ok ((), w.setSock i { w.socks i with state := state.val }) := by
  simp [slSockStateSet, Sl.bind_apply]

@[simp] theorem slSockFlagsSet_eq (flags : SlSockFlag) :
    slSockFlagsSet b (some i) flags w =
      .ok ((), w.setSock i { w.socks i with flags := (w.socks i).flags ||| flags.val }) := by
  simp [slSockFlagsSet, Sl.bind_apply]

@[simp] theorem slSockFlagsUnset_eq (flags : SlSockFlag) :
    slSockFlagsUnset b (some i) flags w =
      .ok ((), w.setSock i { w.socks i with flags := (w.socks i).flags &&& ~~~flags.val }) := by
  simp [slSockFlagsUnset, Sl.bind_apply]

@[simp] theorem slSockFlagsClear_eq :
    slSockFlagsClear b (some i) w = .ok ((), w.setSock i { w.socks i with flags := 0 }) := by
  simp [slSockFlagsClear, Sl.bind_apply]

@[simp] theorem slSockTypeSet_eq (type : UInt32) :
    slSockTypeSet b (some i) type w = .ok ((), w.setSock i { w.socks i with type := type }) := by
  simp [slSockTypeSet, Sl.bind_apply]

@[simp] theorem slSockProtoSet_eq (proto : UInt32) :
    slSockProtoSet b (some i) proto w =
      .ok ((), w.setSock i { w.socks i with proto := proto }) := by
  simp [slSockProtoSet, Sl.bind_apply]

variable {b w i}

/-- A descriptor is stored. -/
theorem slSockFdSet_descriptor {d : Int64} (h : b.platform.isDescriptor d = true) :
    slSockFdSet b (some i) d w = .ok (slOk, w.setSock i { w.socks i with fd := d }) := by
  unfold Platform.isDescriptor at h
  cases hw : b.platform.winsock with
  | true =>
      have hd : d ≠ -1 := by simpa [hw] using h
      simp [slSockFdSet, Sl.bind_apply, hw, hd]
  | false =>
      have hd : ¬d < 0 := by
        have h0 : 0 ≤ d := by
          simp only [hw, Bool.false_eq_true, if_false, Bool.and_eq_true,
            decide_eq_true_eq] at h
          exact h.1
        exact Int64.not_lt.mpr h0
      simp [slSockFdSet, Sl.bind_apply, hw, hd]

/-- The result `-1` of a failed `socket()` is not stored; `errno` is. -/
theorem slSockFdSet_failed :
    slSockFdSet b (some i) (-1) w =
      .ok (slErr, w.setSock i { w.socks i with error := w.os.errno.toUInt32 }) := by
  have hneg : (-1 : Int64) < 0 := by decide
  cases hw : b.platform.winsock <;>
    simp [slSockFdSet, Sl.bind_apply, hw, hneg, slSysErrno]

end Setters

/-! ## Opening and closing -/

/-- `socket()` for a socket pointer; the owner it records is `sock` itself. -/
def socketFor (b : Build) (a : Answers) (sock : Option ι) (domain : UInt16)
    (type proto : UInt32) : Sl ι Int64 :=
  match sock with
  | none => fun _ => .error .nullPointer
  | some i => sysSocket b a i domain type proto

/-- `sl_sock_create` -/
def slSockCreate (b : Build) (a : Answers) (sock : Option ι) (type proto : UInt32) :
    Sl ι Int32 := do
  slAssert b sock.isSome
  slAssertState b sock fun state =>
    state == SlSockState.new.val || state == SlSockState.closed.val
  slSockTypeSet b sock type
  slSockProtoSet b sock proto
  let sockfd ← socketFor b a sock (← slEndpointAfGet b (endpointOf sock)) type proto
  if (← slSockFdSet b sock sockfd) ≠ 0 then return slErr
  if ← slEndpointIsIpv6 b (endpointOf sock) then
    let optval : Int32 := 0
    if (← sysSetsockopt a (← slSockFdGet b sock) optval) ≠ 0 then return slErr
    slSockFlagsSet b sock .ipv4Disabled
  slSockStateSet b sock .created
  return slOk

/-- `sl_sock_close` -/
def slSockClose (b : Build) (a : Answers) (sock : Option ι) : Sl ι Int32 := do
  slAssert b sock.isSome
  -- closesocket on Winsock, close elsewhere
  if (← sysClose a (← slSockFdGet b sock)) ≠ 0 then
    slSockErrorSet b sock (← slSysErrno).toUInt32
    return slErr
  if (← slSockFdSet b sock 0) ≠ 0 then return slErr
  slSockStateSet b sock .closed
  slSockFlagsClear b sock
  return slOk

/-- `sl_sock_bind` -/
def slSockBind (b : Build) (a : Answers) (sock : Option ι) : Sl ι Int32 := do
  slAssert b sock.isSome
  slAssertState b sock fun state => state == SlSockState.created.val
  let fd ← slSockFdGet b sock
  let addr ← slEndpointAddrGet b (endpointOf sock)
  let len ← slEndpointSize b (endpointOf sock)
  if (← sysBind a fd addr len.toUInt32) ≠ 0 then
    slSockErrorSet b sock (← slSysErrno).toUInt32
    return slErr
  slSockStateSet b sock .bound
  return slOk

/-! ## Blocking mode -/

/-- `sl_sock_blocking_set` -/
def slSockBlockingSet (b : Build) (a : Answers) (sock : Option ι) : Sl ι Int32 := do
  slAssert b sock.isSome
  let rv ←
    if b.platform.winsock then do
      let argp : UInt32 := 0
      sysIoctl a (← slSockFdGet b sock) argp
    else do
      let fl ← sysGetfl a (← slSockFdGet b sock)
      sysSetfl a (← slSockFdGet b sock) (~~~b.platform.oNonblock &&& fl)
  if rv ≠ 0 then
    slSockErrorSet b sock (← slSysErrno).toUInt32
    return slErr
  slSockFlagsUnset b sock .nonblocking
  return slOk

/-- `sl_sock_nonblocking_set` -/
def slSockNonblockingSet (b : Build) (a : Answers) (sock : Option ι) : Sl ι Int32 := do
  slAssert b sock.isSome
  let rv ←
    if b.platform.winsock then do
      let argp : UInt32 := 1
      sysIoctl a (← slSockFdGet b sock) argp
    else do
      let fl ← sysGetfl a (← slSockFdGet b sock)
      sysSetfl a (← slSockFdGet b sock) (b.platform.oNonblock ||| fl)
  if rv ≠ 0 then
    slSockErrorSet b sock (← slSysErrno).toUInt32
    return slErr
  slSockFlagsSet b sock .nonblocking
  return slOk

/-! ## Transfer -/

/-- `(size_t)bufcount` -/
def sizeT (bufcount : Int32) : UInt64 := bufcount.toInt64.toUInt64

/-- `sl_sock_send` -/
def slSockSend (b : Build) (a : Answers) (sock : Option ι) (buf : Option (List SlBuf))
    (bufcount : Int32) (endpoint : EndpointPtr ι) : Sl ι Int32 := do
  slAssert b sock.isSome
  slAssert b (buf.isSome && decide (0 < bufcount))
  slAssert b endpoint.nonNull
  slAssertState b sock fun state => state == SlSockState.bound.val
  let sa ← slEndpointAddrGet b endpoint
  let saLen ← slEndpointSize b endpoint
  let fd ← slSockFdGet b sock
  let (failed, bytesSent) ←
    if b.platform.winsock then do
      let (rv, bytes) ← sysWsaSendTo a fd sa saLen.toUInt32 buf bufcount.toUInt32
      pure (decide (rv ≠ 0), bytes)
    else do
      let bytes ← sysSendmsg a fd sa saLen.toUInt32 buf (sizeT bufcount)
      pure (decide (bytes < 0), bytes)
  if failed then
    slSockErrorSet b sock (← slSysErrno).toUInt32
    return slErr
  return bytesSent.toInt32

/-- `sl_sock_recv` -/
def slSockRecv (b : Build) (a : Answers) (sock : Option ι) (buf : Option (List SlBuf))
    (bufcount : Int32) (endpoint : EndpointPtr ι) : Sl ι Int32 := do
  slAssert b sock.isSome
  slAssert b (buf.isSome && decide (bufcount ≠ 0))
  slAssert b endpoint.nonNull
  slAssertState b sock fun state => state == SlSockState.bound.val
  let epsize : Int32 := Int32.ofNat slEndpointBytes
  let fd ← slSockFdGet b sock
  let (failed, bytesRecv) ←
    if b.platform.winsock then do
      let sa ← slEndpointAddrGet b endpoint
      let (rv, bytes) ← sysWsaRecvFrom b a fd sa epsize.toUInt32 buf bufcount.toUInt32
      pure (decide (rv ≠ 0), bytes)
    else do
      let (bytes, _) ← sysRecvmsg b a fd endpoint epsize.toUInt32 buf (sizeT bufcount)
      pure (decide (bytes < 0), bytes)
  if failed then
    slSockErrorSet b sock (← slSysErrno).toUInt32
    return slErr
  return bytesRecv.toInt32

end SockLynx
