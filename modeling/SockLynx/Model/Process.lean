import Mathlib.Data.PNat.Defs
import Mathlib.Logic.Function.Basic
import SockLynx.Lib.Spans
import SockLynx.Model.Types

/-!
# The process the library runs in

A `World` is everything a call can read or write: the sockets and contexts
the caller owns, named by an arbitrary index type `ι`; the kernel's view of
the process (`Os`); the caller's byte memory, where the buffers and the
endpoints other than a socket's own live; and what the last receive stored in
its buffers, buffer by buffer.

**The operating system** is an adversary.  Every library call is accompanied
by `Answers`, one choice per kind of system call, and the kernel grants a
call only if that is possible at all: `socket()` hands out a number that is a
descriptor and not open, every other call needs an open descriptor (`EBADF`
otherwise), and a refused call changes nothing but `errno`.  Quantifying over
`Answers` therefore quantifies over every behaviour of the system that the
library may meet.

**Running code.**  `Sl ι α` is a computation over the world that may stop: by
a failed assertion, or by reading through a null pointer where assertions are
compiled out.

`Desc.owner`, `Os.latest` and `Os.log` are ghost state.  No code reads them.
-/

namespace SockLynx

open SockLynx.Lib.Blocks
open SockLynx.Lib.Spans
open SockLynx.Lib.Words

/-! ## The kernel -/

/-- An open descriptor.  `owner` is the socket whose `socket()` call returned
it, `none` for the descriptors the library did not open; `binds` lists the
address and length of its successful `bind` calls. -/
structure Desc (ι : Type) where
  owner : Option ι
  domain : UInt16
  type : UInt32
  proto : UInt32
  status : Int32
  fionbio : Bool
  v6only : Bool
  binds : List (List UInt8 × UInt32)

/-- A system call with its arguments.  `close` and `sendmsg`/`recvmsg` stand
for `closesocket` and `WSASendTo`/`WSARecvFrom` on Winsock; an address is
recorded as the bytes the kernel is given. -/
inductive Syscall
  | socket (domain : UInt16) (type proto : UInt32)
  | setsockoptV6only (fd : Int64) (optval : Int32)
  | bind (fd : Int64) (addr : List UInt8) (len : UInt32)
  | close (fd : Int64)
  | getfl (fd : Int64)
  | setfl (fd : Int64) (flags : Int32)
  | ioctlFionbio (fd : Int64) (argp : UInt32)
  | sendmsg (fd : Int64) (name : List UInt8) (namelen : UInt32)
      (iov : Option (List SlBuf)) (iovlen : UInt64)
  | recvmsg (fd : Int64) (namelen : UInt32)
      (iov : Option (List SlBuf)) (iovlen : UInt64)
  | wsaStartup
  | wsaCleanup

/-- A system call and its outcome: an `errno`, or the value returned. -/
structure Event where
  call : Syscall
  result : Except Int32 Int64

/-- The kernel's view of the process.  `latest` is what the latest successful
`socket()` returned, `log` the system calls of the current library call. -/
structure Os (ι : Type) where
  fds : Int64 → Option (Desc ι)
  latest : Option Int64
  errno : Int32
  log : List Event
  wsaStartups : Nat
  wsaCleanups : Nat

/-- A datagram in flight.  One transfer moves less than 2 GiB on every
platform. -/
structure Datagram where
  source : List UInt8
  payload : List UInt8
  payload_lt : payload.length < 2 ^ 31

/-- What the system will answer during one library call, by kind of system
call.  `status` and `v6only` are the status flags and the `IPV6_V6ONLY`
option a new descriptor starts with. -/
structure Answers where
  socket : Except Int32 Int64
  status : Int32
  v6only : Bool
  setsockopt : Except Int32 Unit
  bind : Except Int32 Unit
  close : Except Int32 Unit
  getfl : Except Int32 Unit
  setfl : Except Int32 Unit
  ioctl : Except Int32 Unit
  sendmsg : Except Int32 (Fin (2 ^ 31))
  recvmsg : Except Int32 Datagram
  wsaStartup : Int32
  wsaCleanup : Int32

/-- `EBADF` -/
def ebadf : Int32 := 9

/-- `EMFILE` -/
def emfile : Int32 := 24

/-- `WSAEMSGSIZE` -/
def wsaemsgsize : Int32 := 10040

/-- `MSG_TRUNC` -/
def msgTrunc : Int32 := 0x20

section Kernel

variable {ι : Type}

/-- The answer to a call on descriptor `fd`: it needs `fd` to be open. -/
def Os.onDesc {β : Type} (os : Os ι) (fd : Int64) (answer : Except Int32 β) :
    Except Int32 (Desc ι × β) :=
  match os.fds fd with
  | none => .error ebadf
  | some d => answer.map fun x => (d, x)

/-- The answer to `socket()`: only a descriptor that is not open is handed
out. -/
def Os.onSocket (os : Os ι) (p : Platform) (a : Answers) : Except Int32 Int64 :=
  match a.socket with
  | .error e => .error e
  | .ok d => if p.isDescriptor d && (os.fds d).isNone then .ok d else .error emfile

/-- A granted call was made on an open descriptor. -/
theorem Os.onDesc_ok_iff {β : Type} {os : Os ι} {fd : Int64}
    {answer : Except Int32 β} {d : Desc ι} {x : β} :
    os.onDesc fd answer = .ok (d, x) ↔ os.fds fd = some d ∧ answer = .ok x := by
  unfold Os.onDesc
  cases os.fds fd with
  | none => simp
  | some d' =>
      cases answer with
      | error e => simp [Except.map]
      | ok y => simp [Except.map]

/-- A new descriptor is a descriptor and was not open. -/
theorem Os.onSocket_ok {os : Os ι} {p : Platform} {a : Answers} {d : Int64}
    (h : os.onSocket p a = .ok d) : p.isDescriptor d = true ∧ os.fds d = none := by
  unfold Os.onSocket at h
  cases hs : a.socket with
  | error e => simp [hs] at h
  | ok d' =>
      simp only [hs] at h
      split at h
      · rename_i hd
        obtain rfl : d' = d := by simpa using h
        simpa using hd
      · simp at h

/-- The descriptor `socket()` creates for socket `owner`: blocking, not
bound. -/
def Desc.fresh (p : Platform) (a : Answers) (owner : ι) (domain : UInt16)
    (type proto : UInt32) : Desc ι where
  owner := some owner
  domain := domain
  type := type
  proto := proto
  status := a.status &&& ~~~p.oNonblock
  fionbio := false
  v6only := a.v6only
  binds := []

/-- Socket `i` obtained descriptor `d` from `socket()` and has not closed it
since. -/
def Os.Owns (os : Os ι) (i : ι) (d : Int64) : Prop :=
  ∃ desc, os.fds d = some desc ∧ desc.owner = some i

end Kernel

/-! ## The world and its computations -/

/-- A pointer to an endpoint: null, the endpoint inside a socket, or an
address of the caller's memory, which is not 0. -/
inductive EndpointPtr (ι : Type)
  | null
  | ofSock (i : ι)
  | addr (p : ℕ+)
  deriving DecidableEq

/-- Everything a library call can read or write. -/
structure World (ι : Type) where
  socks : ι → SlSock
  ctxs : ι → SlSys
  os : Os ι
  mem : Mem
  received : List (List UInt8)

/-- Why a computation stops. -/
inductive Stop
  | assertion
  | nullPointer
  deriving DecidableEq, Repr

/-- A computation of the library. -/
def Sl (ι α : Type) : Type := World ι → Except Stop (α × World ι)

section Computations

variable {ι α β : Type}

instance : Monad (Sl ι) where
  pure x := fun w => .ok (x, w)
  bind m f := fun w =>
    match m w with
    | .error stop => .error stop
    | .ok (x, w') => f x w'

@[simp] theorem Sl.pure_apply (x : α) (w : World ι) : (pure x : Sl ι α) w = .ok (x, w) := rfl

theorem Sl.bind_apply (m : Sl ι α) (f : α → Sl ι β) (w : World ι) :
    (m >>= f) w =
      match m w with
      | .error stop => .error stop
      | .ok (x, w') => f x w' := rfl

theorem Sl.ite_apply (c : Prop) [Decidable c] (m m' : Sl ι α) (w : World ι) :
    (if c then m else m') w = if c then m w else m' w := by
  split <;> rfl

/-- `SL_ASSERT` -/
def slAssert (b : Build) (cond : Bool) : Sl ι Unit := fun w =>
  if b.asserts && !cond then .error .assertion else .ok ((), w)

@[simp] theorem slAssert_true {b : Build} {w : World ι} :
    slAssert b true w = .ok ((), w) := by
  simp [slAssert]

/-- `*sock` -/
def deref (sock : Option ι) : Sl ι SlSock := fun w =>
  match sock with
  | none => .error .nullPointer
  | some i => .ok (w.socks i, w)

/-- An assertion that holds, or is compiled out, does nothing. -/
theorem slAssert_ok {b : Build} {cond : Bool} {w : World ι}
    (h : b.asserts = true → cond = true) : slAssert b cond w = .ok ((), w) := by
  cases hb : b.asserts with
  | true => simp [slAssert, h hb]
  | false => simp [slAssert, hb]

/-- A computation that gets past an assertion: the assertion holds, or is
compiled out, and the rest starts from the same world. -/
theorem of_slAssert_bind_ok {b : Build} {cond : Bool} {f : Unit → Sl ι β} {w : World ι}
    {q : β × World ι} (h : (slAssert b cond >>= f) w = .ok q) :
    (b.asserts = true → cond = true) ∧ f () w = .ok q := by
  rw [Sl.bind_apply] at h
  cases hb : b.asserts with
  | true =>
      cases hc : cond with
      | true => exact ⟨fun _ => rfl, by simpa [slAssert, hc] using h⟩
      | false => simp [slAssert, hb, hc] at h
  | false => exact ⟨fun h => absurd h (by simp), by simpa [slAssert, hb] using h⟩

variable [DecidableEq ι]

/-- Replace socket `i`. -/
def World.setSock (w : World ι) (i : ι) (s : SlSock) : World ι :=
  { w with socks := Function.update w.socks i s }

/-- Assign through `sock`. -/
def assign (sock : Option ι) (f : SlSock → SlSock) : Sl ι Unit := fun w =>
  match sock with
  | none => .error .nullPointer
  | some i => .ok ((), w.setSock i (f (w.socks i)))

/-- `SL_ASSERT` of a condition on `sock->state`, which is only read where
assertions are compiled in. -/
def slAssertState (b : Build) (sock : Option ι) (cond : UInt32 → Bool) : Sl ι Unit :=
  if b.asserts then do
    let s ← deref sock
    slAssert b (cond s.state)
  else pure ()

omit [DecidableEq ι] in
theorem slAssertState_ok {b : Build} {w : World ι} {i : ι} {cond : UInt32 → Bool}
    (h : b.asserts = true → cond (w.socks i).state = true) :
    slAssertState b (some i) cond w = .ok ((), w) := by
  cases hb : b.asserts with
  | true => simp [slAssertState, hb, Sl.bind_apply, deref, h hb]
  | false => simp [slAssertState, hb]

omit [DecidableEq ι] in
theorem of_slAssertState_bind_ok {b : Build} {w : World ι} {i : ι} {cond : UInt32 → Bool}
    {f : Unit → Sl ι β} {q : β × World ι}
    (h : (slAssertState b (some i) cond >>= f) w = .ok q) :
    (b.asserts = true → cond (w.socks i).state = true) ∧ f () w = .ok q := by
  cases hb : b.asserts with
  | true =>
      have hstep : (slAssertState b (some i) cond >>= f) w =
          (slAssert b (cond (w.socks i).state) >>= f) w := by
        simp [slAssertState, hb, Sl.bind_apply, deref]
      obtain ⟨hc, hrest⟩ := of_slAssert_bind_ok (hstep ▸ h)
      exact ⟨fun _ => hc hb, hrest⟩
  | false =>
      refine ⟨fun h => absurd h (by simp), ?_⟩
      simpa [slAssertState, hb, Sl.bind_apply] using h

/-! ### Endpoints behind pointers -/

/-- `&sock->endpoint` -/
def endpointOf : Option ι → EndpointPtr ι
  | none => .null
  | some i => .ofSock i

/-- The endpoint a pointer leads to. -/
def World.endpointAt (w : World ι) : EndpointPtr ι → Option SlEndpoint
  | .null => none
  | .ofSock i => some (w.socks i).endpoint
  | .addr p => some (.load slEndpointBytes w.mem p)

/-- `*endpoint` -/
def derefEndpoint (endpoint : EndpointPtr ι) : Sl ι SlEndpoint := fun w =>
  match w.endpointAt endpoint with
  | none => .error .nullPointer
  | some e => .ok (e, w)

/-- The first `len` bytes at an endpoint pointer, as the kernel reads them. -/
def World.nameAt (w : World ι) (endpoint : EndpointPtr ι) (len : UInt32) : List UInt8 :=
  match w.endpointAt endpoint with
  | none => []
  | some e => e.toList.take len.toNat

/-- The kernel reads an address argument. -/
def readName (endpoint : EndpointPtr ι) (len : UInt32) : Sl ι (List UInt8) := fun w =>
  .ok (w.nameAt endpoint len, w)

/-- The kernel stores `bs` at an endpoint pointer. -/
def World.putName (w : World ι) (endpoint : EndpointPtr ι) (bs : List UInt8) : World ι :=
  match endpoint with
  | .null => w
  | .ofSock i =>
      w.setSock i { w.socks i with endpoint := (w.socks i).endpoint.put bs }
  | .addr p => { w with mem := blit w.mem p bs }

/-! Storing an address changes no kernel table, and of a socket only the
endpoint. -/

section PutName

variable (w : World ι) (endpoint : EndpointPtr ι) (bs : List UInt8) (j : ι)

@[simp] theorem World.putName_os : (w.putName endpoint bs).os = w.os := by
  cases endpoint <;> rfl

@[simp] theorem World.putName_received : (w.putName endpoint bs).received = w.received := by
  cases endpoint <;> rfl

theorem World.putName_socks :
    (w.putName endpoint bs).socks j =
      { w.socks j with endpoint := ((w.putName endpoint bs).socks j).endpoint } := by
  cases endpoint with
  | null => rfl
  | addr p => rfl
  | ofSock k =>
      by_cases h : j = k
      · subst h
        simp [World.putName, World.setSock]
      · simp [World.putName, World.setSock, h]

@[simp] theorem World.putName_fd :
    ((w.putName endpoint bs).socks j).fd = (w.socks j).fd := by
  rw [World.putName_socks]

@[simp] theorem World.putName_state :
    ((w.putName endpoint bs).socks j).state = (w.socks j).state := by
  rw [World.putName_socks]

@[simp] theorem World.putName_flags :
    ((w.putName endpoint bs).socks j).flags = (w.socks j).flags := by
  rw [World.putName_socks]

@[simp] theorem World.putName_error :
    ((w.putName endpoint bs).socks j).error = (w.socks j).error := by
  rw [World.putName_socks]

end PutName

/-! ### System calls -/

/-- Record a system call; a failing one sets `errno`. -/
def World.note (w : World ι) (ev : Event) : World ι :=
  { w with os := { w.os with
      errno := match ev.result with
        | .error e => e
        | .ok _ => w.os.errno
      log := w.os.log ++ [ev] } }

/-- Replace an entry of the descriptor table. -/
def World.setDesc (w : World ι) (fd : Int64) (d : Option (Desc ι)) : World ι :=
  { w with os := { w.os with fds := Function.update w.os.fds fd d } }

/-- Enter the new descriptor `d` in the table. -/
def World.openDesc (w : World ι) (d : Int64) (desc : Desc ι) : World ι :=
  let opened := w.setDesc d (some desc)
  { opened with os := { opened.os with latest := some d } }

/-! The sockets and the kernel's tables are updated independently of each other;
the socket update is moved outermost. -/

@[simp] theorem World.setSock_os (w : World ι) (i : ι) (s : SlSock) :
    (w.setSock i s).os = w.os := rfl

@[simp] theorem World.setSock_self (w : World ι) (i : ι) (s : SlSock) :
    (w.setSock i s).socks i = s := by
  simp [World.setSock]

theorem World.setSock_of_ne (w : World ι) {i j : ι} (s : SlSock) (h : j ≠ i) :
    (w.setSock i s).socks j = w.socks j := by
  simp [World.setSock, h]

@[simp] theorem World.setSock_setSock (w : World ι) (i : ι) (s t : SlSock) :
    (w.setSock i s).setSock i t = w.setSock i t := by
  simp [World.setSock]

@[simp] theorem World.note_setSock (w : World ι) (i : ι) (s : SlSock) (ev : Event) :
    (w.setSock i s).note ev = (w.note ev).setSock i s := rfl

@[simp] theorem World.setDesc_setSock (w : World ι) (i : ι) (s : SlSock) (fd : Int64)
    (d : Option (Desc ι)) :
    (w.setSock i s).setDesc fd d = (w.setDesc fd d).setSock i s := rfl

@[simp] theorem World.openDesc_setSock (w : World ι) (i : ι) (s : SlSock) (d : Int64)
    (desc : Desc ι) :
    (w.setSock i s).openDesc d desc = (w.openDesc d desc).setSock i s := rfl

@[simp] theorem assign_some (w : World ι) (i : ι) (f : SlSock → SlSock) :
    assign (some i) f w = .ok ((), w.setSock i (f (w.socks i))) := rfl

section Updates

omit [DecidableEq ι]

@[simp] theorem deref_some (w : World ι) (i : ι) :
    deref (some i) w = .ok (w.socks i, w) := rfl

@[simp] theorem World.note_socks (w : World ι) (ev : Event) :
    (w.note ev).socks = w.socks := rfl

@[simp] theorem World.note_mem (w : World ι) (ev : Event) : (w.note ev).mem = w.mem := rfl

@[simp] theorem World.note_received (w : World ι) (ev : Event) :
    (w.note ev).received = w.received := rfl

@[simp] theorem World.note_fds (w : World ι) (ev : Event) :
    (w.note ev).os.fds = w.os.fds := rfl

@[simp] theorem World.note_latest (w : World ι) (ev : Event) :
    (w.note ev).os.latest = w.os.latest := rfl

@[simp] theorem World.note_log (w : World ι) (ev : Event) :
    (w.note ev).os.log = w.os.log ++ [ev] := rfl

@[simp] theorem World.note_errno (w : World ι) (call : Syscall) (e : Int32) :
    (w.note ⟨call, .error e⟩).os.errno = e := rfl

@[simp] theorem World.setDesc_socks (w : World ι) (fd : Int64) (d : Option (Desc ι)) :
    (w.setDesc fd d).socks = w.socks := rfl

@[simp] theorem World.setDesc_latest (w : World ι) (fd : Int64) (d : Option (Desc ι)) :
    (w.setDesc fd d).os.latest = w.os.latest := rfl

@[simp] theorem World.setDesc_log (w : World ι) (fd : Int64) (d : Option (Desc ι)) :
    (w.setDesc fd d).os.log = w.os.log := rfl

@[simp] theorem World.openDesc_socks (w : World ι) (d : Int64) (desc : Desc ι) :
    (w.openDesc d desc).socks = w.socks := rfl

@[simp] theorem World.openDesc_latest (w : World ι) (d : Int64) (desc : Desc ι) :
    (w.openDesc d desc).os.latest = some d := rfl

@[simp] theorem World.openDesc_log (w : World ι) (d : Int64) (desc : Desc ι) :
    (w.openDesc d desc).os.log = w.os.log := rfl

theorem World.openDesc_fds (w : World ι) (d : Int64) (desc : Desc ι) :
    (w.openDesc d desc).os.fds = (w.setDesc d (some desc)).os.fds := rfl

@[simp] theorem World.setDesc_self (w : World ι) (fd : Int64) (d : Option (Desc ι)) :
    (w.setDesc fd d).os.fds fd = d := by
  simp [World.setDesc]

theorem World.setDesc_of_ne (w : World ι) {fd x : Int64} (d : Option (Desc ι)) (h : x ≠ fd) :
    (w.setDesc fd d).os.fds x = w.os.fds x := by
  simp [World.setDesc, h]

end Updates

/-- A system call on descriptor `fd`: refused, or granted with a value and an
effect that may depend on the descriptor. -/
def syscall (call : Syscall) (fd : Int64) (answer : Except Int32 β)
    (value : Desc ι → β → Int64) (effect : Desc ι → β → World ι → World ι) :
    Sl ι (Except Int32 Int64) := fun w =>
  match w.os.onDesc fd answer with
  | .error e => .ok (.error e, w.note ⟨call, .error e⟩)
  | .ok (d, x) => .ok (.ok (value d x), (effect d x w).note ⟨call, .ok (value d x)⟩)

/-- The C convention: `-1` for a refused call. -/
def cReturn : Except Int32 Int64 → Int64
  | .error _ => -1
  | .ok v => v

/-- The Winsock convention: 0, or `SOCKET_ERROR` for a refused call. -/
def wsaReturn : Except Int32 Int64 → Int64
  | .error _ => -1
  | .ok _ => 0

/-- `socket(domain, type, proto)`, called on behalf of `owner`. -/
def sysSocket (b : Build) (a : Answers) (owner : ι) (domain : UInt16) (type proto : UInt32) :
    Sl ι Int64 := fun w =>
  match w.os.onSocket b.platform a with
  | .error e => .ok (-1, w.note ⟨.socket domain type proto, .error e⟩)
  | .ok d =>
      .ok (d, (w.openDesc d (Desc.fresh b.platform a owner domain type proto)).note
        ⟨.socket domain type proto, .ok d⟩)

/-- `setsockopt(fd, IPPROTO_IPV6, IPV6_V6ONLY, &optval, sizeof(optval))` -/
def sysSetsockopt (a : Answers) (fd : Int64) (optval : Int32) : Sl ι Int64 := do
  return cReturn (← syscall (.setsockoptV6only fd optval) fd a.setsockopt (fun _ _ => 0)
    fun d _ w => w.setDesc fd (some { d with v6only := optval != 0 }))

/-- `bind(fd, endpoint, len)` -/
def sysBind (a : Answers) (fd : Int64) (endpoint : EndpointPtr ι) (len : UInt32) :
    Sl ι Int64 := do
  let name ← readName endpoint len
  return cReturn (← syscall (.bind fd name len) fd a.bind (fun _ _ => 0)
    fun d _ w => w.setDesc fd (some { d with binds := d.binds ++ [(name, len)] }))

/-- `close(fd)`, `closesocket(fd)` on Winsock -/
def sysClose (a : Answers) (fd : Int64) : Sl ι Int64 := do
  return cReturn (← syscall (.close fd) fd a.close (fun _ _ => 0) fun _ _ w => w.setDesc fd none)

/-- `fcntl(fd, F_GETFL, 0)` -/
def sysGetfl (a : Answers) (fd : Int64) : Sl ι Int32 := do
  return (cReturn (← syscall (.getfl fd) fd a.getfl (fun d _ => d.status.toInt64)
    fun _ _ w => w)).toInt32

/-- `fcntl(fd, F_SETFL, flags)` -/
def sysSetfl (a : Answers) (fd : Int64) (flags : Int32) : Sl ι Int64 := do
  return cReturn (← syscall (.setfl fd flags) fd a.setfl (fun _ _ => 0)
    fun d _ w => w.setDesc fd (some { d with status := flags }))

/-- `ioctlsocket(fd, FIONBIO, &argp)` -/
def sysIoctl (a : Answers) (fd : Int64) (argp : UInt32) : Sl ι Int64 := do
  return cReturn (← syscall (.ioctlFionbio fd argp) fd a.ioctl (fun _ _ => 0)
    fun d _ w => w.setDesc fd (some { d with fionbio := argp != 0 }))

/-- The kernel's side of `sendmsg` and `WSASendTo`: the number of bytes
sent. -/
def sendCall (a : Answers) (fd : Int64) (name : EndpointPtr ι) (namelen : UInt32)
    (iov : Option (List SlBuf)) (iovlen : UInt64) : Sl ι (Except Int32 Int64) := do
  let name ← readName name namelen
  syscall (.sendmsg fd name namelen iov iovlen) fd a.sendmsg (fun _ n => Int64.ofNat n)
    fun _ _ w => w

/-- `sendmsg(fd, &mhdr, 0)` -/
def sysSendmsg (a : Answers) (fd : Int64) (name : EndpointPtr ι) (namelen : UInt32)
    (iov : Option (List SlBuf)) (iovlen : UInt64) : Sl ι Int64 := do
  return cReturn (← sendCall a fd name namelen iov iovlen)

/-- `WSASendTo(fd, buf, bufcount, &bytes, 0, name, namelen, NULL, NULL)`: the
result and `bytes`. -/
def sysWsaSendTo (a : Answers) (fd : Int64) (name : EndpointPtr ι) (namelen : UInt32)
    (buf : Option (List SlBuf)) (bufcount : UInt32) : Sl ι (Int64 × Int64) := do
  let r ← sendCall a fd name namelen buf bufcount.toUInt64
  return (wsaReturn r, cReturn r)

/-- The buffers an `iovec` array of length `iovlen` consists of. -/
def iovBufs (iov : Option (List SlBuf)) (iovlen : UInt64) : List SlBuf :=
  (iov.getD []).take iovlen.toNat

/-- The number of bytes that fit in the buffers. -/
def capacity (bufs : List SlBuf) : Nat := (bufs.map fun buf => buf.len.toNat).sum

/-- What the buffers receive, each for itself, if they are filled in order. -/
def scatter : List SlBuf → List UInt8 → List (List UInt8)
  | [], _ => []
  | buf :: bufs, bs => bs.take buf.len.toNat :: scatter bufs (bs.drop buf.len.toNat)

/-- Where a buffer lies in memory. -/
def SlBuf.span (buf : SlBuf) : Span := ⟨buf.base.toNat, buf.len.toNat⟩

/-- The kernel stores a payload in the buffers. -/
def World.putPayload (w : World ι) (bufs : List SlBuf) (payload : List UInt8) : World ι :=
  { w with
    mem := fill w.mem (bufs.map SlBuf.span) payload
    received := scatter bufs payload }

section PutPayload

omit [DecidableEq ι]

variable (w : World ι) (bufs : List SlBuf) (payload : List UInt8)

@[simp] theorem World.putPayload_socks : (w.putPayload bufs payload).socks = w.socks := rfl

@[simp] theorem World.putPayload_mem :
    (w.putPayload bufs payload).mem = fill w.mem (bufs.map SlBuf.span) payload := rfl

@[simp] theorem World.putPayload_received :
    (w.putPayload bufs payload).received = scatter bufs payload := rfl

@[simp] theorem World.putPayload_os : (w.putPayload bufs payload).os = w.os := rfl

end PutPayload

/-- A datagram that does not fit is cut by `recvmsg` and refused by
`WSARecvFrom`. -/
def recvAnswer (p : Platform) (a : Answers) (bufs : List SlBuf) : Except Int32 Datagram :=
  match a.recvmsg with
  | .error e => .error e
  | .ok dg =>
      if p.winsock && decide (capacity bufs < dg.payload.length) then .error wsaemsgsize
      else .ok dg

/-- `recvmsg` marks a datagram it has cut. -/
def recvFlags (a : Answers) (bufs : List SlBuf) : Int32 :=
  match a.recvmsg with
  | .error _ => 0
  | .ok dg => if capacity bufs < dg.payload.length then msgTrunc else 0

/-- The kernel's side of `recvmsg` and `WSARecvFrom`: the number of bytes
stored.  The payload is stored in the buffers, and then the source address at
`name`, cut to `namelen` bytes. -/
def recvCall (b : Build) (a : Answers) (fd : Int64) (name : EndpointPtr ι) (namelen : UInt32)
    (iov : Option (List SlBuf)) (iovlen : UInt64) : Sl ι (Except Int32 Int64) :=
  syscall (.recvmsg fd namelen iov iovlen) fd
    (recvAnswer b.platform a (iovBufs iov iovlen))
    (fun _ dg => Int64.ofNat (min dg.payload.length (capacity (iovBufs iov iovlen))))
    fun _ dg w =>
      (w.putPayload (iovBufs iov iovlen) dg.payload).putName name (dg.source.take namelen.toNat)

/-- `recvmsg(fd, &mhdr, 0)`: the result and `mhdr.msg_flags`. -/
def sysRecvmsg (b : Build) (a : Answers) (fd : Int64) (name : EndpointPtr ι) (namelen : UInt32)
    (iov : Option (List SlBuf)) (iovlen : UInt64) : Sl ι (Int64 × Int32) := do
  let r ← recvCall b a fd name namelen iov iovlen
  return (cReturn r, recvFlags a (iovBufs iov iovlen))

/-- `WSARecvFrom(fd, buf, bufcount, &bytes, &flags, name, &namelen, NULL, NULL)`:
the result and `bytes`. -/
def sysWsaRecvFrom (b : Build) (a : Answers) (fd : Int64) (name : EndpointPtr ι)
    (namelen : UInt32) (buf : Option (List SlBuf)) (bufcount : UInt32) :
    Sl ι (Int64 × Int64) := do
  let r ← recvCall b a fd name namelen buf bufcount.toUInt64
  return (wsaReturn r, cReturn r)

end Computations

end SockLynx
