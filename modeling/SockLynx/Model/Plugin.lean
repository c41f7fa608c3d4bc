import SockLynx.Lib.Runs
import SockLynx.Model.Sock

/-!
# `socklynx_plugin.c`

The exported entry points, and a session of them: a list of calls on any
number of sockets, each with the answers the system gives during it.  One
step of a session returns the value of the call together with the system
calls it made, so two sessions can be compared by what they did as well as
by where they end.
-/

namespace SockLynx

open SockLynx.Lib.Runs

variable {ι : Type} [DecidableEq ι]

/-! ## Entry points -/

/-- `socklynx_setup` -/
def socklynxSetup (b : Build) (a : Answers) (sys : Option ι) : Sl ι Int32 :=
  slSysSetup b a sys

/-- `socklynx_cleanup` -/
def socklynxCleanup (b : Build) (a : Answers) (sys : Option ι) : Sl ι Int32 :=
  slSysCleanup b a sys

/-- `socklynx_socket_nonblocking`, the one entry point that does not guard
against a null socket. -/
def socklynxSocketNonblocking (b : Build) (a : Answers) (sock : Option ι) (enabled : UInt32) :
    Sl ι Int32 := do
  if enabled ≠ 0 then return ← slSockNonblockingSet b a sock
  slSockBlockingSet b a sock

/-- `socklynx_socket_open` -/
def socklynxSocketOpen (b : Build) (a : Answers) (sock : Option ι) : Sl ι Int32 := do
  if sock.isNone then return slErr
  if (← slSockCreate b a sock slSockTypeDgram slSockProtoUdp) ≠ 0 then return slErr
  if (← slSockBind b a sock) ≠ 0 then return slErr
  return slOk

/-- `socklynx_socket_close` -/
def socklynxSocketClose (b : Build) (a : Answers) (sock : Option ι) : Sl ι Int32 := do
  if sock.isNone then return slErr
  slSockClose b a sock

/-- `socklynx_socket_send` -/
def socklynxSocketSend (b : Build) (a : Answers) (sock : Option ι) (buf : Option (List SlBuf))
    (bufcount : Int32) (endpoint : EndpointPtr ι) : Sl ι Int32 := do
  if sock.isNone then return slErr
  if buf.isNone then return slErr
  if !endpoint.nonNull then return slErr
  slSockSend b a sock buf bufcount endpoint

/-- `socklynx_socket_recv` -/
def socklynxSocketRecv (b : Build) (a : Answers) (sock : Option ι) (buf : Option (List SlBuf))
    (bufcount : Int32) (endpoint : EndpointPtr ι) : Sl ι Int32 := do
  if sock.isNone then return slErr
  if buf.isNone then return slErr
  if !endpoint.nonNull then return slErr
  slSockRecv b a sock buf bufcount endpoint

/-! ## Sessions -/

/-- A call of one of the five socket entry points, without its socket. -/
inductive Call (ι : Type)
  | socketOpen
  | socketClose
  | socketNonblocking (enabled : UInt32)
  | socketSend (buf : Option (List SlBuf)) (bufcount : Int32) (endpoint : EndpointPtr ι)
  | socketRecv (buf : Option (List SlBuf)) (bufcount : Int32) (endpoint : EndpointPtr ι)

/-- Run a call on socket `i`. -/
def Call.run (b : Build) (a : Answers) (i : ι) : Call ι → Sl ι Int32
  | .socketOpen => socklynxSocketOpen b a (some i)
  | .socketClose => socklynxSocketClose b a (some i)
  | .socketNonblocking enabled => socklynxSocketNonblocking b a (some i) enabled
  | .socketSend buf bufcount endpoint => socklynxSocketSend b a (some i) buf bufcount endpoint
  | .socketRecv buf bufcount endpoint => socklynxSocketRecv b a (some i) buf bufcount endpoint

/-- One step of a session: a call, its socket, and the system's answers. -/
structure Step (ι α : Type) where
  sock : ι
  call : α
  answers : Answers

/-- What a call did: the value it returned and the system calls it made. -/
structure Outcome where
  ret : Int32
  events : List Event

/-- Forget the system calls of earlier library calls. -/
def World.clearLog (w : World ι) : World ι := { w with os := { w.os with log := [] } }

/-- Run one library call as a step: `none` when the process stops. -/
def callStep (m : Sl ι Int32) (w : World ι) : Option (Outcome × World ι) :=
  match m w.clearLog with
  | .error _ => none
  | .ok (r, w') => some (⟨r, w'.os.log⟩, w')

/-- One step of a session of plugin calls. -/
def pluginStep (b : Build) (w : World ι) (e : Step ι (Call ι)) : Option (Outcome × World ι) :=
  callStep (e.call.run b e.answers e.sock) w

omit [DecidableEq ι] in
/-- A step is a call that returns, together with the log it leaves. -/
theorem callStep_eq_some_iff {m : Sl ι Int32} {w w' : World ι} {o : Outcome} :
    callStep m w = some (o, w') ↔ m w.clearLog = .ok (o.ret, w') ∧ o.events = w'.os.log := by
  unfold callStep
  cases hm : m w.clearLog with
  | error stop => simp
  | ok p =>
      obtain ⟨r, v⟩ := p
      obtain ⟨ret, events⟩ := o
      simp only [Option.some.injEq, Prod.mk.injEq, Outcome.mk.injEq, Except.ok.injEq]
      constructor
      · rintro ⟨⟨rfl, rfl⟩, rfl⟩
        exact ⟨⟨rfl, rfl⟩, rfl⟩
      · rintro ⟨⟨rfl, rfl⟩, rfl⟩
        exact ⟨⟨rfl, rfl⟩, rfl⟩

/-! ### All seven entry points

The calls above name an existing socket.  A caller of the plugin may also pass
null, to these and to the two entry points that take a context. -/

/-- Run a call on a socket pointer. -/
def Call.runAt (b : Build) (a : Answers) (sock : Option ι) : Call ι → Sl ι Int32
  | .socketOpen => socklynxSocketOpen b a sock
  | .socketClose => socklynxSocketClose b a sock
  | .socketNonblocking enabled => socklynxSocketNonblocking b a sock enabled
  | .socketSend buf bufcount endpoint => socklynxSocketSend b a sock buf bufcount endpoint
  | .socketRecv buf bufcount endpoint => socklynxSocketRecv b a sock buf bufcount endpoint

theorem Call.runAt_some (b : Build) (a : Answers) (i : ι) (call : Call ι) :
    call.runAt b a (some i) = call.run b a i := by
  cases call <;> rfl

/-- A call of one of the seven entry points, with all its pointers. -/
inductive PluginCall (ι : Type)
  | setup (sys : Option ι)
  | cleanup (sys : Option ι)
  | socket (sock : Option ι) (call : Call ι)

/-- Run a call. -/
def PluginCall.run (b : Build) (a : Answers) : PluginCall ι → Sl ι Int32
  | .setup sys => socklynxSetup b a sys
  | .cleanup sys => socklynxCleanup b a sys
  | .socket sock call => call.runAt b a sock

/-- A step of a session of all entry points: a call and the system's answers. -/
structure Entry (ι : Type) where
  call : PluginCall ι
  answers : Answers

/-- One step of a session of all entry points. -/
def entryStep (b : Build) (w : World ι) (e : Entry ι) : Option (Outcome × World ι) :=
  callStep (e.call.run b e.answers) w

/-- A call of `sys.h`, without its context. -/
inductive SysCall
  | setup
  | cleanup

/-- Run a call of `sys.h` on context `i`. -/
def SysCall.run (b : Build) (a : Answers) (i : ι) : SysCall → Sl ι Int32
  | .setup => slSysSetup b a (some i)
  | .cleanup => slSysCleanup b a (some i)

/-- One step of a session of `sys.h` calls; `Step.sock` names the context. -/
def sysStep (b : Build) (w : World ι) (e : Step ι SysCall) : Option (Outcome × World ι) :=
  callStep (e.call.run b e.answers e.sock) w

/-! ## Where a session starts -/

/-- A descriptor that no socket of the library opened. -/
def Desc.disown (d : Desc ι) : Desc ι := { d with owner := none }

/-- The process of `w` before its first library call: every socket is zeroed,
as `Socket.NewUDP` leaves it, with an endpoint of its own; descriptors of the
process may be open, but none of them is the library's. -/
def World.start (w : World ι) (endpoint : ι → SlEndpoint) : World ι where
  socks i := SlSock.zeroed slSockTypeDgram slSockProtoUdp (endpoint i)
  ctxs := w.ctxs
  os := { w.os with fds := fun d => (w.os.fds d).map Desc.disown, latest := none, log := [] }
  mem := w.mem
  received := w.received

/-- The process of `w` before its first library call, with zeroed contexts; the
calls of `WSAStartup` and `WSACleanup` are counted from here. -/
def World.startNetwork (w : World ι) : World ι where
  socks := w.socks
  ctxs _ := { state := slSysStateStopped, afInet := 0, afInet6 := 0 }
  os := { w.os with wsaStartups := 0, wsaCleanups := 0 }
  mem := w.mem
  received := w.received

/-! ### A small process

One socket, standard input open as descriptor 0, and a system that grants
what is possible. -/

/-- Standard input. -/
def Desc.stdin : Desc Unit where
  owner := none
  domain := 0
  type := 0
  proto := 0
  status := 0
  fionbio := false
  v6only := false
  binds := []

/-- The process. -/
def World.small : World Unit where
  socks _ := SlSock.zeroed slSockTypeDgram slSockProtoUdp (Vector.replicate 28 0)
  ctxs _ := { state := slSysStateStopped, afInet := 0, afInet6 := 0 }
  os :=
    { fds := fun d => if d = 0 then some Desc.stdin else none
      latest := none
      errno := 0
      log := []
      wsaStartups := 0
      wsaCleanups := 0 }
  mem _ := 0
  received := []

/-- The same process with two sockets. -/
def World.pair : World Bool where
  socks _ := SlSock.zeroed slSockTypeDgram slSockProtoUdp (Vector.replicate 28 0)
  ctxs _ := { state := slSysStateStopped, afInet := 0, afInet6 := 0 }
  os :=
    { fds := fun d => if d = 0 then some { Desc.stdin with owner := none } else none
      latest := none
      errno := 0
      log := []
      wsaStartups := 0
      wsaCleanups := 0 }
  mem _ := 0
  received := []

/-- The answers of a system that hands out descriptor `d` and grants every
other call. -/
def Answers.granting (d : Int64) : Answers where
  socket := .ok d
  status := 0
  v6only := false
  setsockopt := .ok ()
  bind := .ok ()
  close := .ok ()
  getfl := .ok ()
  setfl := .ok ()
  ioctl := .ok ()
  sendmsg := .ok 0
  recvmsg := .ok { source := [], payload := [], payload_lt := by decide }
  wsaStartup := 0
  wsaCleanup := 0

/-- The same answers, and `n` bytes taken by a send. -/
def Answers.taking (d : Int64) (n : Nat) : Answers :=
  { Answers.granting d with sendmsg := .ok (Fin.ofNat _ n) }

/-- The unspecified address of family `af`, port 0. -/
def anyEndpoint (af : UInt8) : SlEndpoint := Vector.ofFn fun k => if k.val = 0 then af else 0

end SockLynx
