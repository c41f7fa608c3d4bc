import SockLynx.Model.Plugin

/-!
# What one call can do

`SockEffect b a i w op r w'` lists, as named cases, every way in which an
operation of `sock.h` on socket `i` can end: the value `r` it returns and the
world `w'` it leaves.  Each operation on the descriptor depends on one
decisive system call; when that is refused the operation stores `errno` and
nothing else, so the five refusals are one case.  Creation is two system
calls and has four cases of its own.

## Main results

* `slSockCreate_of_effect` and its siblings — each function of `sock.h` does
  what its effects say.
* `SockOp.exists_effect` — whatever the system answers, some effect applies.
* `SockOp.run_iff` — an operation ends in `(r, w')` exactly when its
  assertions hold and `SockEffect` says so.

Everything proved about runs goes by cases on the last one.
-/

namespace SockLynx

variable {ι : Type} [DecidableEq ι]

/-! ## Operations -/

/-- An operation of `sock.h` on a socket. -/
inductive SockOp (ι : Type)
  | create (type proto : UInt32)
  | bind
  | close
  | mode (nonblocking : Bool)
  | send (buf : Option (List SlBuf)) (bufcount : Int32) (endpoint : EndpointPtr ι)
  | recv (buf : Option (List SlBuf)) (bufcount : Int32) (endpoint : EndpointPtr ι)

omit [DecidableEq ι] in
theorem SockOp.bind_ne_create (type proto : UInt32) :
    (.bind : SockOp ι) ≠ .create type proto :=
  fun h => nomatch h

/-- Run an operation on socket `i`. -/
def SockOp.run (b : Build) (a : Answers) (i : ι) : SockOp ι → Sl ι Int32
  | .create type proto => slSockCreate b a (some i) type proto
  | .bind => slSockBind b a (some i)
  | .close => slSockClose b a (some i)
  | .mode true => slSockNonblockingSet b a (some i)
  | .mode false => slSockBlockingSet b a (some i)
  | .send buf bufcount endpoint => slSockSend b a (some i) buf bufcount endpoint
  | .recv buf bufcount endpoint => slSockRecv b a (some i) buf bufcount endpoint

/-- The conditions an operation asserts.  Sending also reads the endpoint. -/
def SockOp.Ready (b : Build) (s : SlSock) : SockOp ι → Prop
  | .create _ _ =>
      b.asserts = true → s.state = SlSockState.new.val ∨ s.state = SlSockState.closed.val
  | .bind => b.asserts = true → s.state = SlSockState.created.val
  | .close => True
  | .mode _ => True
  | .send buf bufcount endpoint =>
      endpoint.nonNull = true ∧
        (b.asserts = true →
          buf.isSome = true ∧ 0 < bufcount ∧ s.state = SlSockState.bound.val)
  | .recv buf bufcount endpoint =>
      b.asserts = true →
        buf.isSome = true ∧ bufcount ≠ 0 ∧ endpoint.nonNull = true ∧
          s.state = SlSockState.bound.val

omit [DecidableEq ι] in
/-- What a build with assertions may run, every build may run. -/
theorem SockOp.Ready.of_asserting {b : Build} {p : Platform} {op : SockOp ι} {s : SlSock}
    (h : op.Ready ⟨true, p⟩ s) : op.Ready b s := by
  cases op with
  | create | bind | recv => exact fun _ => h rfl
  | close | mode => trivial
  | send => exact ⟨h.1, fun _ => h.2 rfl⟩

/-- The descriptor an operation on socket `i` uses. -/
def World.fd (w : World ι) (b : Build) (i : ι) : Int64 := b.platform.sockType (w.socks i).fd

/-! ## The mode switch -/

/-- The flags `F_GETFL` reports, `-1` where it fails. -/
def World.getflValue (w : World ι) (b : Build) (a : Answers) (i : ι) : Int32 :=
  match w.os.onDesc (w.fd b i) a.getfl with
  | .error _ => -1
  | .ok (d, _) => d.status

/-- The argument of `F_SETFL`. -/
def World.setflArg (w : World ι) (b : Build) (a : Answers) (i : ι) (nonblocking : Bool) : Int32 :=
  if nonblocking then b.platform.oNonblock ||| w.getflValue b a i
  else ~~~b.platform.oNonblock &&& w.getflValue b a i

/-- The descriptor after a mode switch. -/
def World.modeDesc (w : World ι) (b : Build) (a : Answers) (i : ι) (nonblocking : Bool)
    (d : Desc ι) : Desc ι :=
  if b.platform.winsock then { d with fionbio := nonblocking }
  else { d with status := w.setflArg b a i nonblocking }

/-- The flags word after a mode switch. -/
def modeFlags (nonblocking : Bool) (flags : UInt32) : UInt32 :=
  if nonblocking then flags ||| SlSockFlag.nonblocking.val
  else flags &&& ~~~SlSockFlag.nonblocking.val

/-- The system's choice about the call that switches the mode. -/
def modeAnswer (b : Build) (a : Answers) : Except Int32 Unit :=
  if b.platform.winsock then a.ioctl else a.setfl

/-- What an operation does before its decisive system call: on POSIX a mode
switch asks for the flags first. -/
def SockOp.prelude (b : Build) (a : Answers) (i : ι) (w : World ι) : SockOp ι → World ι
  | .mode _ =>
      if b.platform.winsock then w
      else w.note ⟨.getfl (w.fd b i),
        (w.os.onDesc (w.fd b i) a.getfl).map fun p => p.1.status.toInt64⟩
  | _ => w

/-! ## The decisive system call -/

/-- The number of buffers the kernel is told about. -/
def iovCount (b : Build) (bufcount : Int32) : UInt64 :=
  if b.platform.winsock then bufcount.toUInt32.toUInt64 else sizeT bufcount

/-- The address length computed for an endpoint pointer. -/
def World.nameLen (w : World ι) (b : Build) (endpoint : EndpointPtr ι) : UInt32 :=
  match w.endpointAt endpoint with
  | none => 0
  | some e => (e.size b.platform).toUInt32

/-- The address a bind of socket `i` passes to the kernel, and its length. -/
def World.ownName (w : World ι) (b : Build) (i : ι) : List UInt8 × UInt32 :=
  (w.nameAt (.ofSock i) (w.nameLen b (.ofSock i)), w.nameLen b (.ofSock i))

/-- The system call on the descriptor that an operation depends on. -/
def SockOp.decisive (b : Build) (a : Answers) (i : ι) (w : World ι) : SockOp ι → Option Syscall
  | .create _ _ => none
  | .bind => some (.bind (w.fd b i) (w.ownName b i).1 (w.ownName b i).2)
  | .close => some (.close (w.fd b i))
  | .mode nonblocking => some <|
      if b.platform.winsock then .ioctlFionbio (w.fd b i) (if nonblocking then 1 else 0)
      else .setfl (w.fd b i) (w.setflArg b a i nonblocking)
  | .send buf bufcount endpoint =>
      let len := w.nameLen b endpoint
      some (.sendmsg (w.fd b i) (w.nameAt endpoint len) len buf (iovCount b bufcount))
  | .recv buf bufcount _ =>
      some (.recvmsg (w.fd b i) (UInt32.ofNat slEndpointBytes) buf (iovCount b bufcount))

/-- The `errno` of a refused call. -/
def refusedWith {β : Type} : Except Int32 β → Option Int32
  | .error e => some e
  | .ok _ => none

/-- The `errno` with which the decisive system call is refused, if it is. -/
def SockOp.refusal (b : Build) (a : Answers) (i : ι) (w : World ι) : SockOp ι → Option Int32
  | .create _ _ => none
  | .bind => refusedWith (w.os.onDesc (w.fd b i) a.bind)
  | .close => refusedWith (w.os.onDesc (w.fd b i) a.close)
  | .mode _ => refusedWith (w.os.onDesc (w.fd b i) (modeAnswer b a))
  | .send _ _ _ => refusedWith (w.os.onDesc (w.fd b i) a.sendmsg)
  | .recv buf bufcount _ =>
      refusedWith (w.os.onDesc (w.fd b i)
        (recvAnswer b.platform a (iovBufs buf (iovCount b bufcount))))

/-! ## Effects -/

/-- The descriptor `socket()` creates for socket `i`. -/
def World.freshDesc (w : World ι) (b : Build) (a : Answers) (i : ι) (type proto : UInt32) :
    Desc ι :=
  Desc.fresh b.platform a i ((w.socks i).endpoint.af b.platform) type proto

/-- The world after `socket()` returned `d` to socket `i`. -/
def World.openFor (w : World ι) (b : Build) (a : Answers) (i : ι) (type proto : UInt32)
    (d : Int64) : World ι :=
  (w.openDesc d (w.freshDesc b a i type proto)).note
    ⟨.socket ((w.socks i).endpoint.af b.platform) type proto, .ok d⟩

/-- The endpoint of socket `i` is an IPv6 endpoint. -/
def World.isV6 (w : World ι) (b : Build) (i : ι) : Bool :=
  (w.socks i).endpoint.isIpv6 b.platform

/-- The system grants what a creation of socket `i` asks for. -/
def World.Creates (w : World ι) (b : Build) (a : Answers) (i : ι) : Prop :=
  (∃ d, w.os.onSocket b.platform a = .ok d) ∧ (w.isV6 b i = true → a.setsockopt = .ok ())

/-- The system hands out a descriptor but refuses `IPV6_V6ONLY` on it. -/
def World.OptionRefused (w : World ι) (b : Build) (a : Answers) (i : ι) : Prop :=
  w.isV6 b i = true ∧ (∃ d, w.os.onSocket b.platform a = .ok d) ∧ ∃ e, a.setsockopt = .error e

/-- How an operation on socket `i` can end. -/
inductive SockEffect (b : Build) (a : Answers) (i : ι) (w : World ι) :
    SockOp ι → Int32 → World ι → Prop
  | createRefused {type proto : UInt32} {e : Int32}
      (hs : w.os.onSocket b.platform a = .error e) :
      SockEffect b a i w (.create type proto) slErr
        ((w.note ⟨.socket ((w.socks i).endpoint.af b.platform) type proto, .error e⟩).setSock i
          { w.socks i with type := type, proto := proto, error := e.toUInt32 })
  | createHalf {type proto : UInt32} {d : Int64} {e : Int32}
      (hs : w.os.onSocket b.platform a = .ok d) (h6 : w.isV6 b i = true)
      (ho : a.setsockopt = .error e) :
      SockEffect b a i w (.create type proto) slErr
        (((w.openFor b a i type proto d).note ⟨.setsockoptV6only d 0, .error e⟩).setSock i
          { w.socks i with type := type, proto := proto, fd := d })
  | createV6 {type proto : UInt32} {d : Int64}
      (hs : w.os.onSocket b.platform a = .ok d) (h6 : w.isV6 b i = true)
      (ho : a.setsockopt = .ok ()) :
      SockEffect b a i w (.create type proto) slOk
        ((((w.openFor b a i type proto d).setDesc d
            (some { w.freshDesc b a i type proto with v6only := false })).note
              ⟨.setsockoptV6only d 0, .ok 0⟩).setSock i
          { w.socks i with
            type := type, proto := proto, fd := d, state := SlSockState.created.val
            flags := (w.socks i).flags ||| SlSockFlag.ipv4Disabled.val })
  | createOther {type proto : UInt32} {d : Int64}
      (hs : w.os.onSocket b.platform a = .ok d) (h6 : w.isV6 b i = false) :
      SockEffect b a i w (.create type proto) slOk
        ((w.openFor b a i type proto d).setSock i
          { w.socks i with
            type := type, proto := proto, fd := d, state := SlSockState.created.val })
  | refused {op : SockOp ι} {call : Syscall} {e : Int32}
      (hc : op.decisive b a i w = some call) (hr : op.refusal b a i w = some e) :
      SockEffect b a i w op slErr
        (((op.prelude b a i w).note ⟨call, .error e⟩).setSock i
          { w.socks i with error := e.toUInt32 })
  | bindDone {call : Syscall} {d : Desc ι}
      (hc : (.bind : SockOp ι).decisive b a i w = some call)
      (hd : w.os.fds (w.fd b i) = some d) (ha : a.bind = .ok ()) :
      SockEffect b a i w .bind slOk
        (((w.setDesc (w.fd b i) (some { d with
            binds := d.binds ++ [w.ownName b i] })).note
              ⟨call, .ok 0⟩).setSock i
          { w.socks i with state := SlSockState.bound.val })
  | closeDone {call : Syscall} {d : Desc ι}
      (hc : (.close : SockOp ι).decisive b a i w = some call)
      (hd : w.os.fds (w.fd b i) = some d) (ha : a.close = .ok ()) :
      SockEffect b a i w .close slOk
        (((w.setDesc (w.fd b i) none).note ⟨call, .ok 0⟩).setSock i
          { w.socks i with fd := 0, state := SlSockState.closed.val, flags := 0 })
  | modeDone {nonblocking : Bool} {call : Syscall} {d : Desc ι}
      (hc : (.mode nonblocking : SockOp ι).decisive b a i w = some call)
      (hd : w.os.fds (w.fd b i) = some d) (ha : modeAnswer b a = .ok ()) :
      SockEffect b a i w (.mode nonblocking) slOk
        (((((.mode nonblocking : SockOp ι).prelude b a i w).setDesc (w.fd b i)
            (some (w.modeDesc b a i nonblocking d))).note ⟨call, .ok 0⟩).setSock i
          { w.socks i with flags := modeFlags nonblocking (w.socks i).flags })
  | sendDone {buf : Option (List SlBuf)} {bufcount : Int32} {endpoint : EndpointPtr ι}
      {call : Syscall} {d : Desc ι} {n : Fin (2 ^ 31)}
      (hc : (.send buf bufcount endpoint : SockOp ι).decisive b a i w = some call)
      (hd : w.os.fds (w.fd b i) = some d) (ha : a.sendmsg = .ok n) :
      SockEffect b a i w (.send buf bufcount endpoint) (Int64.ofNat n).toInt32
        (w.note ⟨call, .ok (Int64.ofNat n)⟩)
  | recvDone {buf : Option (List SlBuf)} {bufcount : Int32} {endpoint : EndpointPtr ι}
      {call : Syscall} {d : Desc ι} {dg : Datagram}
      (hc : (.recv buf bufcount endpoint : SockOp ι).decisive b a i w = some call)
      (hd : w.os.fds (w.fd b i) = some d)
      (ha : recvAnswer b.platform a (iovBufs buf (iovCount b bufcount)) = .ok dg) :
      SockEffect b a i w (.recv buf bufcount endpoint)
        (Int64.ofNat (min dg.payload.length
          (capacity (iovBufs buf (iovCount b bufcount))))).toInt32
        (((w.putPayload (iovBufs buf (iovCount b bufcount)) dg.payload).putName endpoint
            (dg.source.take slEndpointBytes)).note
          ⟨call, .ok (Int64.ofNat (min dg.payload.length
            (capacity (iovBufs buf (iovCount b bufcount)))))⟩)

/-! ## Each function does what its effects say -/

section Specs

variable {b : Build} {a : Answers} {i : ι} {w w' : World ι} {r : Int32}

omit [DecidableEq ι] in
theorem refusedWith_eq_some {β : Type} {x : Except Int32 β} {e : Int32} :
    refusedWith x = some e ↔ x = .error e := by
  cases x <;> simp [refusedWith]

omit [DecidableEq ι] in
/-- A call on a descriptor is refused, or the descriptor is open and the
system agrees. -/
theorem refusedWith_onDesc {β : Type} (os : Os ι) (fd : Int64) (answer : Except Int32 β) :
    (∃ e, refusedWith (os.onDesc fd answer) = some e) ∨
      ∃ d x, os.fds fd = some d ∧ answer = .ok x := by
  cases h : os.onDesc fd answer with
  | error e => exact Or.inl ⟨e, rfl⟩
  | ok p =>
      obtain ⟨d, x⟩ := p
      exact Or.inr ⟨d, x, Os.onDesc_ok_iff.mp h⟩

omit [DecidableEq ι] in
@[simp] theorem World.fd_eq : b.platform.sockType (w.socks i).fd = w.fd b i := rfl

omit [DecidableEq ι] in
@[simp] theorem World.nameLen_ofSock :
    w.nameLen b (.ofSock i) = ((w.socks i).endpoint.size b.platform).toUInt32 := rfl

section OpenFor

variable {type proto : UInt32} {d x : Int64}

omit [DecidableEq ι]

@[simp] theorem World.openFor_socks : (w.openFor b a i type proto d).socks = w.socks := rfl

@[simp] theorem World.openFor_log :
    (w.openFor b a i type proto d).os.log = w.os.log ++
      [⟨.socket ((w.socks i).endpoint.af b.platform) type proto, .ok d⟩] := rfl

@[simp] theorem World.openFor_fds_self :
    (w.openFor b a i type proto d).os.fds d = some (w.freshDesc b a i type proto) := by
  simp [World.openFor, World.openDesc_fds]

theorem World.openFor_fds_of_ne (hx : x ≠ d) :
    (w.openFor b a i type proto d).os.fds x = w.os.fds x :=
  World.setDesc_of_ne w _ hx

end OpenFor

/-- `sl_sock_close` -/
theorem slSockClose_of_effect (h : SockEffect b a i w .close r w') :
    slSockClose b a (some i) w = .ok (r, w') := by
  cases h with
  | refused hc hr =>
      obtain rfl := Option.some.inj hc
      have hd := refusedWith_eq_some.mp hr
      simp [slSockClose, Sl.bind_apply, sysClose, syscall, hd, cReturn, slSysErrno,
        SockOp.prelude]
  | closeDone hc hd ha =>
      obtain rfl := Option.some.inj hc
      have hd := Os.onDesc_ok_iff.mpr ⟨hd, ha⟩
      simp [slSockClose, Sl.bind_apply, sysClose, syscall, hd, cReturn, slOk,
        slSockFdSet_descriptor b.platform.isDescriptor_zero]

/-- `sl_sock_bind` -/
theorem slSockBind_of_effect (hready : (.bind : SockOp ι).Ready b (w.socks i))
    (h : SockEffect b a i w .bind r w') : slSockBind b a (some i) w = .ok (r, w') := by
  have hst : slAssertState b (some i) (fun state => state == SlSockState.created.val) w =
      .ok ((), w) := slAssertState_ok fun hb => by simpa using hready hb
  cases h with
  | refused hc hr =>
      obtain rfl := Option.some.inj hc
      have hd := refusedWith_eq_some.mp hr
      simp [slSockBind, Sl.bind_apply, hst, endpointOf, sysBind, readName, syscall, hd,
        cReturn, slSysErrno, SockOp.prelude, World.ownName]
  | bindDone hc hd ha =>
      obtain rfl := Option.some.inj hc
      have hd := Os.onDesc_ok_iff.mpr ⟨hd, ha⟩
      simp [slSockBind, Sl.bind_apply, hst, endpointOf, sysBind, readName, syscall, hd,
        cReturn, World.ownName]

omit [DecidableEq ι] in
@[simp] theorem World.onDesc_note {β : Type} (ev : Event) (fd : Int64)
    (answer : Except Int32 β) :
    (w.note ev).os.onDesc fd answer = w.os.onDesc fd answer := rfl

omit [DecidableEq ι] in
theorem sysGetfl_eq :
    sysGetfl a (w.fd b i) w = .ok (w.getflValue b a i, w.note ⟨.getfl (w.fd b i),
      (w.os.onDesc (w.fd b i) a.getfl).map fun p => p.1.status.toInt64⟩) := by
  cases h : w.os.onDesc (w.fd b i) a.getfl with
  | error e =>
      simp only [sysGetfl, Sl.bind_apply, syscall, h, World.getflValue, Except.map, cReturn]
      rfl
  | ok p =>
      obtain ⟨d, x⟩ := p
      simp only [sysGetfl, Sl.bind_apply, syscall, h, World.getflValue, Except.map, cReturn,
        Int32.toInt32_toInt64]
      rfl

/-- `sl_sock_blocking_set` and `sl_sock_nonblocking_set` -/
theorem slSockMode_of_effect {nonblocking : Bool}
    (h : SockEffect b a i w (.mode nonblocking) r w') :
    (.mode nonblocking : SockOp ι).run b a i w = .ok (r, w') := by
  cases h with
  | refused hc hr =>
      have hd := refusedWith_eq_some.mp hr
      obtain rfl := Option.some.inj hc
      cases hw : b.platform.winsock with
      | true =>
          simp only [modeAnswer, hw, if_true] at hd
          cases nonblocking <;>
            simp [SockOp.run, slSockNonblockingSet, slSockBlockingSet, Sl.bind_apply, hw,
              sysIoctl, syscall, hd, cReturn, slSysErrno, SockOp.prelude]
      | false =>
          simp only [modeAnswer, hw, Bool.false_eq_true, if_false] at hd
          cases nonblocking <;>
            simp [SockOp.run, slSockNonblockingSet, slSockBlockingSet, Sl.bind_apply, hw,
              sysGetfl_eq, sysSetfl, syscall, hd, cReturn, slSysErrno, SockOp.prelude,
              World.setflArg]
  | modeDone hc hd ha =>
      have hd := Os.onDesc_ok_iff.mpr ⟨hd, ha⟩
      obtain rfl := Option.some.inj hc
      cases hw : b.platform.winsock with
      | true =>
          simp only [modeAnswer, hw, if_true] at hd
          cases nonblocking <;>
            simp [SockOp.run, slSockNonblockingSet, slSockBlockingSet, Sl.bind_apply, hw,
              sysIoctl, syscall, hd, cReturn, SockOp.prelude, World.modeDesc, modeFlags]
      | false =>
          simp only [modeAnswer, hw, Bool.false_eq_true, if_false] at hd
          cases nonblocking <;>
            simp [SockOp.run, slSockNonblockingSet, slSockBlockingSet, Sl.bind_apply, hw,
              sysGetfl_eq, sysSetfl, syscall, hd, cReturn, SockOp.prelude, World.modeDesc,
              modeFlags, World.setflArg]

/-! ### Transfer counts -/

omit [DecidableEq ι] in
theorem transferred_not_neg {n : Nat} (h : n < 2 ^ 31) : ¬Int64.ofNat n < 0 := by
  rw [Int64.lt_iff_toInt_lt, Int64.toInt_ofNat_of_lt (by omega)]
  simp

omit [DecidableEq ι] in
/-- The number of bytes transferred is not `SL_ERR`. -/
theorem transferred_ne_slErr {n : Nat} (h : n < 2 ^ 31) : (Int64.ofNat n).toInt32 ≠ slErr := by
  intro heq
  have hn : (Int64.ofNat n).toInt32.toInt = n := by
    rw [Int64.toInt32_ofNat', Int32.toInt_ofNat_of_lt h]
  rw [heq] at hn
  have : slErr.toInt = -1 := by decide
  omega

omit [DecidableEq ι] in
theorem World.nameLen_eq {endpoint : EndpointPtr ι} {e : SlEndpoint}
    (h : w.endpointAt endpoint = some e) :
    w.nameLen b endpoint = (e.size b.platform).toUInt32 := by
  simp [World.nameLen, h]

/-- `sl_sock_send` -/
theorem slSockSend_of_effect {buf : Option (List SlBuf)} {bufcount : Int32}
    {endpoint : EndpointPtr ι}
    (hready : (.send buf bufcount endpoint : SockOp ι).Ready b (w.socks i))
    (h : SockEffect b a i w (.send buf bufcount endpoint) r w') :
    slSockSend b a (some i) buf bufcount endpoint w = .ok (r, w') := by
  obtain ⟨hne, hassert⟩ := hready
  obtain ⟨e, he⟩ := endpointAt_of_nonNull (w := w) hne
  have hbuf : slAssert b (buf.isSome && decide (0 < bufcount)) w = .ok ((), w) :=
    slAssert_ok fun hb => by simpa using ⟨(hassert hb).1, (hassert hb).2.1⟩
  have hst : slAssertState b (some i) (fun state => state == SlSockState.bound.val) w =
      .ok ((), w) := slAssertState_ok fun hb => by simpa using (hassert hb).2.2
  have had := slEndpointAddrGet_eq (b := b) (w := w) hne
  have hsz := slEndpointSize_eq (b := b) he
  have hlen := World.nameLen_eq (b := b) he
  cases h with
  | refused hc hr =>
      have hd := refusedWith_eq_some.mp hr
      obtain rfl := Option.some.inj hc
      cases hw : b.platform.winsock <;>
        simp [slSockSend, Sl.bind_apply, hbuf, hne, hst, had, hsz, hlen, hw,
          sysWsaSendTo, sysSendmsg, sendCall, readName, syscall, hd, wsaReturn, cReturn,
          slSysErrno, SockOp.prelude, iovCount]
  | @sendDone _ _ _ _ d n hc hd ha =>
      have hd := Os.onDesc_ok_iff.mpr ⟨hd, ha⟩
      have hn := transferred_not_neg n.isLt
      obtain rfl := Option.some.inj hc
      cases hw : b.platform.winsock <;>
        simp [slSockSend, Sl.bind_apply, hbuf, hne, hst, had, hsz, hlen, hw,
          sysWsaSendTo, sysSendmsg, sendCall, readName, syscall, hd, wsaReturn, cReturn,
          iovCount, hn]

/-- `sl_sock_recv` -/
theorem slSockRecv_of_effect {buf : Option (List SlBuf)} {bufcount : Int32}
    {endpoint : EndpointPtr ι}
    (hready : (.recv buf bufcount endpoint : SockOp ι).Ready b (w.socks i))
    (h : SockEffect b a i w (.recv buf bufcount endpoint) r w') :
    slSockRecv b a (some i) buf bufcount endpoint w = .ok (r, w') := by
  have hbuf : slAssert b (buf.isSome && !decide (bufcount = 0)) w = .ok ((), w) :=
    slAssert_ok fun hb => by simpa using ⟨(hready hb).1, (hready hb).2.1⟩
  have hne : slAssert b endpoint.nonNull w = .ok ((), w) :=
    slAssert_ok fun hb => (hready hb).2.2.1
  have hst : slAssertState b (some i) (fun state => state == SlSockState.bound.val) w =
      .ok ((), w) := slAssertState_ok fun hb => by simpa using (hready hb).2.2.2
  have hto : slEndpointBytes % 4294967296 = slEndpointBytes := rfl
  cases h with
  | refused hc hr =>
      have hd := refusedWith_eq_some.mp hr
      obtain rfl := Option.some.inj hc
      cases hw : b.platform.winsock <;>
        simp only [iovCount, hw, if_true, if_false, Bool.false_eq_true] at hd <;>
        simp [slSockRecv, Sl.bind_apply, hbuf, hne, hst, hw, sysWsaRecvFrom,
          sysRecvmsg, recvCall, slEndpointAddrGet, syscall, hd, wsaReturn, cReturn, slSysErrno,
          SockOp.prelude, iovCount]
  | @recvDone _ _ _ _ d dg hc hd ha =>
      have hd := Os.onDesc_ok_iff.mpr ⟨hd, ha⟩
      have hn : ∀ m : Nat, ¬Int64.ofNat (min dg.payload.length m) < 0 := fun m =>
        transferred_not_neg (by have := dg.payload_lt; omega)
      obtain rfl := Option.some.inj hc
      cases hw : b.platform.winsock <;>
        simp only [iovCount, hw, if_true, if_false, Bool.false_eq_true] at hd <;>
        simp [slSockRecv, Sl.bind_apply, hbuf, hne, hst, hw, sysWsaRecvFrom,
          sysRecvmsg, recvCall, slEndpointAddrGet, syscall, hd, wsaReturn, cReturn, iovCount,
          hn, hto]

omit [DecidableEq ι] in
theorem World.onDesc_openDesc {β : Type} (desc : Desc ι) (d : Int64) (answer : Except Int32 β) :
    (w.openDesc d desc).os.onDesc d answer = answer.map fun x => (desc, x) := by
  simp [Os.onDesc, World.openDesc_fds]

@[simp] theorem World.fd_setSock (s : SlSock) :
    (w.setSock i s).fd b i = b.platform.sockType s.fd := by
  simp [World.fd]

/-- `sl_sock_create` -/
theorem slSockCreate_of_effect {type proto : UInt32}
    (hready : (.create type proto : SockOp ι).Ready b (w.socks i))
    (h : SockEffect b a i w (.create type proto) r w') :
    slSockCreate b a (some i) type proto w = .ok (r, w') := by
  have hst : slAssertState b (some i) (fun state =>
      state == SlSockState.new.val || state == SlSockState.closed.val) w = .ok ((), w) :=
    slAssertState_ok fun hb => by simpa using hready hb
  cases h with
  | createRefused hs =>
      simp [slSockCreate, Sl.bind_apply, hst, endpointOf, socketFor, sysSocket, hs,
        slSockFdSet_failed, slErr]
  | createHalf hs h6 ho =>
      have hdesc := (Os.onSocket_ok hs).1
      have hraw := b.platform.sockType_of_isDescriptor hdesc
      have h6 : (w.socks i).endpoint.isIpv6 b.platform = true := h6
      simp [slSockCreate, Sl.bind_apply, hst, endpointOf, socketFor, sysSocket, hs,
        slSockFdSet_descriptor hdesc, slOk, h6, hraw, sysSetsockopt, syscall,
        World.onDesc_openDesc, ho, Except.map, cReturn, World.openFor, World.freshDesc]
  | createV6 hs h6 ho =>
      have hdesc := (Os.onSocket_ok hs).1
      have hraw := b.platform.sockType_of_isDescriptor hdesc
      have h6 : (w.socks i).endpoint.isIpv6 b.platform = true := h6
      simp [slSockCreate, Sl.bind_apply, hst, endpointOf, socketFor, sysSocket, hs,
        slSockFdSet_descriptor hdesc, slOk, h6, hraw, sysSetsockopt, syscall,
        World.onDesc_openDesc, ho, Except.map, cReturn, World.openFor, World.freshDesc]
  | createOther hs h6 =>
      have hdesc := (Os.onSocket_ok hs).1
      have h6 : (w.socks i).endpoint.isIpv6 b.platform = false := h6
      simp [slSockCreate, Sl.bind_apply, hst, endpointOf, socketFor, sysSocket, hs,
        slSockFdSet_descriptor hdesc, slOk, h6, World.openFor, World.freshDesc]
  | refused hc _ => simp [SockOp.decisive] at hc

/-! ## Every operation is one of its effects -/

theorem SockOp.run_of_effect {op : SockOp ι} (hready : op.Ready b (w.socks i))
    (h : SockEffect b a i w op r w') : op.run b a i w = .ok (r, w') := by
  cases op with
  | create type proto => exact slSockCreate_of_effect hready h
  | bind => exact slSockBind_of_effect hready h
  | close => exact slSockClose_of_effect h
  | mode nonblocking => exact slSockMode_of_effect h
  | send buf bufcount endpoint => exact slSockSend_of_effect hready h
  | recv buf bufcount endpoint => exact slSockRecv_of_effect hready h

private theorem exists_effect_of_decisive {op : SockOp ι} {call : Syscall}
    (hc : op.decisive b a i w = some call)
    (h : (∃ e, op.refusal b a i w = some e) ∨ ∃ r w', SockEffect b a i w op r w') :
    ∃ r w', SockEffect b a i w op r w' := by
  rcases h with ⟨e, he⟩ | h
  · exact ⟨_, _, .refused hc he⟩
  · exact h

/-- Whatever the system answers, an operation has an effect. -/
theorem SockOp.exists_effect (b : Build) (a : Answers) (i : ι) (w : World ι) (op : SockOp ι) :
    ∃ r w', SockEffect b a i w op r w' := by
  cases op with
  | create type proto =>
      cases hs : w.os.onSocket b.platform a with
      | error e => exact ⟨_, _, .createRefused hs⟩
      | ok d =>
          cases h6 : w.isV6 b i with
          | false => exact ⟨_, _, .createOther hs h6⟩
          | true =>
              cases ho : a.setsockopt with
              | error e => exact ⟨_, _, .createHalf hs h6 ho⟩
              | ok u => exact ⟨_, _, .createV6 hs h6 ho⟩
  | bind =>
      exact exists_effect_of_decisive rfl <|
        (refusedWith_onDesc w.os (w.fd b i) a.bind).imp_right fun ⟨_, _, hd, ha⟩ =>
          ⟨_, _, .bindDone rfl hd ha⟩
  | close =>
      exact exists_effect_of_decisive rfl <|
        (refusedWith_onDesc w.os (w.fd b i) a.close).imp_right fun ⟨_, _, hd, ha⟩ =>
          ⟨_, _, .closeDone rfl hd ha⟩
  | mode nonblocking =>
      exact exists_effect_of_decisive rfl <|
        (refusedWith_onDesc w.os (w.fd b i) (modeAnswer b a)).imp_right fun ⟨_, _, hd, ha⟩ =>
          ⟨_, _, .modeDone rfl hd ha⟩
  | send buf bufcount endpoint =>
      exact exists_effect_of_decisive rfl <|
        (refusedWith_onDesc w.os (w.fd b i) a.sendmsg).imp_right fun ⟨_, _, hd, ha⟩ =>
          ⟨_, _, .sendDone rfl hd ha⟩
  | recv buf bufcount endpoint =>
      exact exists_effect_of_decisive rfl <|
        (refusedWith_onDesc w.os (w.fd b i) _).imp_right fun ⟨_, _, hd, ha⟩ =>
          ⟨_, _, .recvDone rfl hd ha⟩

/-- An operation that returns has passed its assertions. -/
theorem SockOp.ready_of_run {op : SockOp ι} (h : op.run b a i w = .ok (r, w')) :
    op.Ready b (w.socks i) := by
  cases op with
  | create type proto =>
      obtain ⟨_, h⟩ := of_slAssert_bind_ok h
      obtain ⟨hstate, _⟩ := of_slAssertState_bind_ok h
      exact fun hb => by simpa using hstate hb
  | bind =>
      obtain ⟨_, h⟩ := of_slAssert_bind_ok h
      obtain ⟨hstate, _⟩ := of_slAssertState_bind_ok h
      exact fun hb => by simpa using hstate hb
  | close => trivial
  | mode nonblocking => trivial
  | send buf bufcount endpoint =>
      obtain ⟨_, h⟩ := of_slAssert_bind_ok h
      obtain ⟨hbuf, h⟩ := of_slAssert_bind_ok h
      obtain ⟨hne, h⟩ := of_slAssert_bind_ok h
      obtain ⟨hstate, h⟩ := of_slAssertState_bind_ok h
      refine ⟨?_, fun hb => ?_⟩
      · cases endpoint with
        | null =>
            -- without assertions the family is read through the null pointer
            cases hb : b.asserts with
            | true => exact hne hb
            | false =>
                simp [Sl.bind_apply, slEndpointAddrGet, slEndpointSize, slEndpointIsIpv4,
                  slEndpointAfGet, derefEndpoint, World.endpointAt, slAssert, hb] at h
        | ofSock j => rfl
        | addr p => rfl
      · have hbuf := hbuf hb
        simp only [Bool.and_eq_true, decide_eq_true_eq] at hbuf
        exact ⟨hbuf.1, hbuf.2, by simpa using hstate hb⟩
  | recv buf bufcount endpoint =>
      obtain ⟨_, h⟩ := of_slAssert_bind_ok h
      obtain ⟨hbuf, h⟩ := of_slAssert_bind_ok h
      obtain ⟨hne, h⟩ := of_slAssert_bind_ok h
      obtain ⟨hstate, _⟩ := of_slAssertState_bind_ok h
      intro hb
      have hbuf := hbuf hb
      simp only [Bool.and_eq_true, decide_eq_true_eq] at hbuf
      exact ⟨hbuf.1, hbuf.2, hne hb, by simpa using hstate hb⟩

/-- **Inversion.**  An operation returns `r` and leaves `w'` exactly when its
assertions hold and `SockEffect` says so. -/
theorem SockOp.run_iff {op : SockOp ι} :
    op.run b a i w = .ok (r, w') ↔ op.Ready b (w.socks i) ∧ SockEffect b a i w op r w' := by
  constructor
  · intro h
    have hready := SockOp.ready_of_run h
    obtain ⟨r', v, he⟩ := SockOp.exists_effect b a i w op
    have hrun := SockOp.run_of_effect hready he
    rw [h, Except.ok.injEq, Prod.mk.injEq] at hrun
    obtain ⟨rfl, rfl⟩ := hrun
    exact ⟨hready, he⟩
  · rintro ⟨hready, he⟩
    exact SockOp.run_of_effect hready he

end Specs

end SockLynx
