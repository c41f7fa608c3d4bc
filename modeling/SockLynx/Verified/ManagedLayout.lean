import SockLynx.Model.Managed
import SockLynx.Model.Native
import SockLynx.Model.Plugin

/-!
# Managed and native code share their structs

A socket is built by `Native.cs` and read by the C headers.  The two
declarations of `sl_sock_t` put every member at the same offset, so whatever
native code stores there managed code reads back.  The two declarations of an
endpoint agree where the address structs start with a 16-bit family; where
they start with a length byte, the family that managed code stores in two
bytes is taken for a length, and native code finds family 0.

## Main results

* `sizes_agree` — the structs have the same sizes.
* `load_eq` — native code reads the managed fields.
* `load_newUDP` — the bytes of `Socket.NewUDP` are a zeroed UDP `sl_sock_t`.
* `slSysSetup_initialized` — after `sl_sys_setup` the context holds the
  platform's families.
* `managed_agrees_iff` — native code sees the endpoint managed code built, and
  managed code what native code stored, exactly where the address structs have
  no length byte.
-/

namespace SockLynx

open SockLynx.Lib.Blocks
open SockLynx.Lib.Layout
open SockLynx.Managed

/-- Both sides give the shared structs the same sizes. -/
theorem sizes_agree (p : Platform) :
    structSize slSysT = 8 ∧ structSize (slSockaddr6 p) = Managed.slEndpointSize ∧
      structSize slSockT = Managed.slSockSize :=
  ⟨structSize_slSysT, structSize_slSockaddr6 p, structSize_slSockT⟩

/-! ## The context -/

/-- The context holds the families of the platform. -/
structure SlSys.Initialized (p : Platform) (sys : SlSys) : Prop where
  afInet : sys.afInet = p.afInet
  afInet6 : sys.afInet6 = p.afInet6

/-- `sl_sys_setup` stores the families in a context that is not started,
whether or not `WSAStartup` succeeds. -/
theorem slSysSetup_initialized {ι : Type} [DecidableEq ι] (b : Build) (a : Answers)
    (w : World ι) (i : ι)
    (h : (w.ctxs i).state = slSysStateStarted → (w.ctxs i).Initialized b.platform) :
    ∃ r w', slSysSetup b a (some i) w = .ok (r, w') ∧
      (w'.ctxs i).Initialized b.platform := by
  by_cases hstate : (w.ctxs i).state = slSysStateStarted
  · refine ⟨slOk, w, ?_, h hstate⟩
    simp [slSysSetup, Sl.bind_apply, derefSys, hstate]
  · have hrun : ∃ r w', slSysSetup b a (some i) w = .ok (r, w') ∧
        (w'.ctxs i).afInet = b.platform.afInet ∧ (w'.ctxs i).afInet6 = b.platform.afInet6 := by
      cases hw : b.platform.winsock with
      | false => simp [slSysSetup, Sl.bind_apply, derefSys, hstate, assignSys, hw]
      | true =>
          by_cases hrv : a.wsaStartup = slOk <;>
            simp [slSysSetup, Sl.bind_apply, derefSys, hstate, assignSys, hw, sysWsaStartup, hrv]
    obtain ⟨r, w', hrun, hinet, hinet6⟩ := hrun
    exact ⟨r, w', hrun, hinet, hinet6⟩

/-- Managed code reads the families where native code stores them. -/
theorem context_save (s : SlSys) (v : Context) :
    Context.afInet (s.save v) = s.afInet ∧ Context.afInet6 (s.save v) = s.afInet6 := by
  have hne : SysField.afInet ≠ .afInet6 := by decide
  have hinet : memberWord slSysT (s.save v) .afInet = s.afInet.toNat :=
    (memberWord_setMember_of_ne hne).trans
      (memberWord_setMember_self (by decide) s.afInet.toNat_lt)
  have hinet6 : memberWord slSysT (s.save v) .afInet6 = s.afInet6.toNat :=
    memberWord_setMember_self (by decide) s.afInet6.toNat_lt
  constructor
  · calc
      Context.afInet (s.save v) = UInt16.ofNat (memberWord slSysT (s.save v) .afInet) := rfl
      _ = s.afInet := by rw [hinet, UInt16.ofNat_toNat]
  · calc
      Context.afInet6 (s.save v) = UInt16.ofNat (memberWord slSysT (s.save v) .afInet6) := rfl
      _ = s.afInet6 := by rw [hinet6, UInt16.ofNat_toNat]

/-! ## The socket -/

/-- Native code reads every member where managed code declares it. -/
theorem load_eq (sock : Socket) :
    SlSock.load sock =
      { fd := sock.fd
        dir := sock.dir
        state := sock.state
        type := sock.type
        proto := sock.proto
        error := sock.error
        flags := sock.flags
        endpoint := sock.endpoint } := rfl

/-- `Socket.NewUDP` leaves a zeroed UDP socket with the given endpoint. -/
theorem load_newUDP (ctx : Context) (endpoint : Endpoint) :
    SlSock.load (Socket.newUDP ctx endpoint) =
      SlSock.zeroed slSockTypeDgram slSockProtoUdp endpoint := by
  have hsize : slSockSize = 64 := rfl
  have hword : ∀ {off size : Nat}, off + size ≤ 32 →
      Block.word (Socket.newUDP ctx endpoint) off size =
        Block.word ((Socket.default.setProto sockProtoUdp).setType sockTypeDgram) off size :=
    fun h => Block.word_store_of_disjoint (Or.inl h)
  have hzero : ∀ {off size : Nat}, off + size ≤ 16 ∨ 24 ≤ off → off + size ≤ 32 →
      Block.word (Socket.newUDP ctx endpoint) off size = 0 := by
    intro off size h hle
    rw [hword hle, Socket.setType, Block.word_setWord_of_disjoint (by omega), Socket.setProto,
      Block.word_setWord_of_disjoint (by omega), Socket.default, Block.word_zero]
  have htype : Block.word (Socket.newUDP ctx endpoint) 16 4 = sockTypeDgram.toNat := by
    rw [hword (by omega), Socket.setType, Block.word_setWord_self _ (by omega)]
    rfl
  have hproto : Block.word (Socket.newUDP ctx endpoint) 20 4 = sockProtoUdp.toNat := by
    rw [hword (by omega), Socket.setType, Block.word_setWord_of_disjoint (by omega),
      Socket.setProto, Block.word_setWord_self _ (by omega)]
    rfl
  have hendpoint : Socket.endpoint (Socket.newUDP ctx endpoint) = endpoint :=
    Block.sub_store_self endpoint (by decide)
  rw [load_eq, hendpoint, Socket.fd, hzero (by omega) (by omega), Socket.dir,
    hzero (by omega) (by omega), Socket.state, hzero (by omega) (by omega), Socket.type, htype,
    Socket.proto, hproto, Socket.error, hzero (by omega) (by omega), Socket.flags,
    hzero (by omega) (by omega)]
  rfl

/-- What native code stored in a socket is what managed code reads. -/
structure ReadsBack (s : SlSock) (sock : Socket) : Prop where
  fd : Socket.fd (s.save sock) = s.fd
  state : Socket.state (s.save sock) = s.state
  error : Socket.error (s.save sock) = s.error
  flags : Socket.flags (s.save sock) = s.flags

theorem reads_back (s : SlSock) (sock : Socket) : ReadsBack s sock := by
  have h := (load_eq (s.save sock)).symm.trans (s.load_save sock)
  have hfd := congrArg SlSock.fd h
  have hstate := congrArg SlSock.state h
  have herror := congrArg SlSock.error h
  have hflags := congrArg SlSock.flags h
  exact ⟨hfd, hstate, herror, hflags⟩

/-! ## The endpoint -/

/-- Native code takes `e` for the IPv4 endpoint with this port and address. -/
structure SeesV4 (p : Platform) (e : SlEndpoint) (port : UInt16) (addr4 : IPv4) : Prop where
  isIpv4 : e.isIpv4 p = true
  isIpv6 : e.isIpv6 p = false
  size : e.size p = 16
  port : e.field (slSockaddr4 p) .port = port.toNat
  addr : (e.fieldBytes (slSockaddr4 p) .addr).toList = addr4.toList

/-- Native code takes `e` for the IPv6 endpoint with these members. -/
structure SeesV6 (p : Platform) (e : SlEndpoint) (port : UInt16) (addr6 : IPv6)
    (flowinfo scopeId : UInt32) : Prop where
  isIpv6 : e.isIpv6 p = true
  isIpv4 : e.isIpv4 p = false
  size : e.size p = 28
  port : e.field (slSockaddr6 p) .port = port.toNat
  addr : (e.fieldBytes (slSockaddr6 p) .addr).toList = addr6.toList
  flowinfo : e.field (slSockaddr6 p) .flowinfo = flowinfo.toNat
  scopeId : e.field (slSockaddr6 p) .scopeId = scopeId.toNat

section Endpoints

variable {p : Platform} (ctx : Context) (port : UInt16) (addr4 : IPv4) (addr6 : IPv6)
  (flowinfo scopeId : UInt32)

/-- The fields of an IPv4 endpoint, at their managed offsets. -/
theorem newV4_fields :
    Block.word (Endpoint.newV4 ctx port addr4) 0 2 = ctx.afInet.toNat ∧
      Block.word (Endpoint.newV4 ctx port addr4) 2 2 = port.toNat ∧
      Block.sub (Endpoint.newV4 ctx port addr4) 4 slIp4Size = addr4 := by
  have hsize : Managed.slEndpointSize = 28 := rfl
  have haf : ctx.afInet.toNat < 256 ^ 2 := ctx.afInet.toNat_lt
  have hport : port.toNat < 256 ^ 2 := port.toNat_lt
  refine ⟨?_, ?_, Block.sub_store_self addr4 (by decide)⟩
  · simp (disch := omega) only [Endpoint.newV4, Endpoint.setAddr4, Endpoint.setPort,
      Endpoint.setAf, Block.word_store_of_disjoint, Block.word_setWord_of_disjoint,
      Block.word_setWord_self, Nat.mod_eq_of_lt]
  · simp (disch := omega) only [Endpoint.newV4, Endpoint.setAddr4, Endpoint.setPort,
      Block.word_store_of_disjoint, Block.word_setWord_self, Nat.mod_eq_of_lt]

/-- The fields of an IPv6 endpoint, at their managed offsets. -/
theorem newV6_fields :
    Block.word (Endpoint.newV6 ctx port addr6 flowinfo scopeId) 0 2 = ctx.afInet6.toNat ∧
      Block.word (Endpoint.newV6 ctx port addr6 flowinfo scopeId) 2 2 = port.toNat ∧
      Block.word (Endpoint.newV6 ctx port addr6 flowinfo scopeId) 4 4 = flowinfo.toNat ∧
      Block.word (Endpoint.newV6 ctx port addr6 flowinfo scopeId) 24 4 = scopeId.toNat ∧
      Block.sub (Endpoint.newV6 ctx port addr6 flowinfo scopeId) 8 slIp6Size = addr6 := by
  have hsize : Managed.slEndpointSize = 28 := rfl
  have haf : ctx.afInet6.toNat < 256 ^ 2 := ctx.afInet6.toNat_lt
  have hport : port.toNat < 256 ^ 2 := port.toNat_lt
  have hflow : flowinfo.toNat < 256 ^ 4 := flowinfo.toNat_lt
  have hscope : scopeId.toNat < 256 ^ 4 := scopeId.toNat_lt
  have hlen : addr6.toList.length = 16 := by simp [slIp6Size]
  refine ⟨?_, ?_, ?_, ?_, Block.sub_store_self addr6 (by decide)⟩ <;>
    simp (disch := omega) only [Endpoint.newV6, Endpoint.setAddr6, Endpoint.setScopeId,
      Endpoint.setFlowinfo, Endpoint.setPort, Endpoint.setAf, Block.word_store_of_disjoint,
      Block.word_setWord_of_disjoint, Block.word_setWord_self, Nat.mod_eq_of_lt]

/-- With a 16-bit family native code sees the endpoint as it was built. -/
theorem seesV4 (hp : p.hasLen = false) (hctx : ctx.afInet = p.afInet) :
    SeesV4 p (Endpoint.newV4 ctx port addr4) port addr4 := by
  obtain ⟨haf, hport, haddr⟩ := newV4_fields ctx port addr4
  have h4 : SlEndpoint.isIpv4 p (Endpoint.newV4 ctx port addr4) = true := by
    rw [SlEndpoint.isIpv4, SlEndpoint.af_eq, hp, haf, hctx]
    simp
  refine ⟨h4, SlEndpoint.not_isIpv6_of_isIpv4 h4, if_pos h4, ?_, ?_⟩
  · cases p <;> exact hport
  · cases p <;> exact congrArg Vector.toList haddr

theorem seesV6 (hp : p.hasLen = false) (hctx : ctx.afInet6 = p.afInet6) :
    SeesV6 p (Endpoint.newV6 ctx port addr6 flowinfo scopeId) port addr6 flowinfo scopeId := by
  obtain ⟨haf, hport, hflow, hscope, haddr⟩ :=
    newV6_fields ctx port addr6 flowinfo scopeId
  have h6 : SlEndpoint.isIpv6 p (Endpoint.newV6 ctx port addr6 flowinfo scopeId) = true := by
    rw [SlEndpoint.isIpv6, SlEndpoint.af_eq, hp, haf, hctx]
    simp
  have h4 : SlEndpoint.isIpv4 p (Endpoint.newV6 ctx port addr6 flowinfo scopeId) = false := by
    by_contra h
    have h := SlEndpoint.not_isIpv6_of_isIpv4 (Bool.not_eq_false _ ▸ h)
    simp [h6] at h
  refine ⟨h6, h4, ?_, ?_, ?_, ?_, ?_⟩
  · simp [SlEndpoint.size, h4, h6]
  · cases p <;> exact hport
  · cases p <;> exact congrArg Vector.toList haddr
  · cases p <;> exact hflow
  · cases p <;> exact hscope

/-- With a length byte native code finds the high byte of the family. -/
theorem af_of_hasLen {e : SlEndpoint} {af : UInt16} (hp : p.hasLen = true)
    (haf : Block.word e 0 2 = af.toNat) : e.af p = UInt16.ofNat (af.toNat / 256) := by
  rw [SlEndpoint.af_eq, hp, if_pos rfl, ← haf]
  exact congrArg UInt16.ofNat (Block.word_high e 0)

theorem not_isIpv4_of_hasLen (hp : p.hasLen = true) (hctx : ctx.afInet = p.afInet) :
    SlEndpoint.isIpv4 p (Endpoint.newV4 ctx port addr4) = false := by
  have haf := af_of_hasLen hp (newV4_fields ctx port addr4).1
  rw [SlEndpoint.isIpv4, haf, hctx]
  cases p <;> simp [Platform.hasLen] at hp
  decide

theorem not_isIpv6_of_hasLen (hp : p.hasLen = true) (hctx : ctx.afInet6 = p.afInet6) :
    SlEndpoint.isIpv6 p (Endpoint.newV6 ctx port addr6 flowinfo scopeId) = false := by
  have haf := af_of_hasLen hp (newV6_fields ctx port addr6 flowinfo scopeId).1
  rw [SlEndpoint.isIpv6, haf, hctx]
  cases p <;> simp [Platform.hasLen] at hp
  decide

end Endpoints

/-! ## Agreement -/

/-- The arguments of `Endpoint.NewV4` or `Endpoint.NewV6`. -/
inductive NewEndpoint
  | v4 (port : UInt16) (addr4 : IPv4)
  | v6 (port : UInt16) (addr6 : IPv6) (flowinfo scopeId : UInt32)

/-- The endpoint they build. -/
def NewEndpoint.build (ctx : Context) : NewEndpoint → Endpoint
  | .v4 port addr4 => Endpoint.newV4 ctx port addr4
  | .v6 port addr6 flowinfo scopeId => Endpoint.newV6 ctx port addr6 flowinfo scopeId

/-- Native code takes `e` for the endpoint that was asked for. -/
def NewEndpoint.Seen (p : Platform) (e : SlEndpoint) : NewEndpoint → Prop
  | .v4 port addr4 => SeesV4 p e port addr4
  | .v6 port addr6 flowinfo scopeId => SeesV6 p e port addr6 flowinfo scopeId

/-- Native code sees a new socket with the endpoint that was asked for. -/
structure SeesNew (p : Platform) (s : SlSock) (arg : NewEndpoint) : Prop where
  fd : s.fd = 0
  state : s.state = SlSockState.new.val
  error : s.error = 0
  flags : s.flags = 0
  endpoint : arg.Seen p s.endpoint

theorem seesNew_iff {p : Platform} {ctx : Context} (hinet : ctx.afInet = p.afInet)
    (hinet6 : ctx.afInet6 = p.afInet6) (arg : NewEndpoint) :
    SeesNew p (SlSock.load (Socket.newUDP ctx (arg.build ctx))) arg ↔ p.hasLen = false := by
  rw [load_newUDP]
  constructor
  · intro h
    by_contra hlen
    have hp : p.hasLen = true := by simpa using hlen
    have hseen := h.endpoint
    cases arg with
    | v4 port addr4 =>
        have h4 := not_isIpv4_of_hasLen ctx port addr4 hp hinet
        exact absurd (h4.symm.trans hseen.isIpv4) (by simp)
    | v6 port addr6 flowinfo scopeId =>
        have h6 := not_isIpv6_of_hasLen ctx port addr6 flowinfo scopeId hp hinet6
        exact absurd (h6.symm.trans hseen.isIpv6) (by simp)
  · intro hp
    refine ⟨rfl, rfl, rfl, rfl, ?_⟩
    cases arg with
    | v4 port addr4 => exact seesV4 ctx port addr4 hp hinet
    | v6 port addr6 flowinfo scopeId => exact seesV6 ctx port addr6 flowinfo scopeId hp hinet6

/-- Managed and native code agree on a socket: `sl_sys_setup` fills a context,
managed code builds the socket from it, native code reads the socket, and
later stores `s` in it. -/
def Agree {ι : Type} [DecidableEq ι] (b : Build) (a : Answers) (w : World ι) (i : ι)
    (ctx : Context) (arg : NewEndpoint) (s : SlSock) (sock : Socket) : Prop :=
  ∃ r w', slSysSetup b a (some i) w = .ok (r, w') ∧
    SeesNew b.platform
      (SlSock.load (Socket.newUDP ((w'.ctxs i).save ctx) (arg.build ((w'.ctxs i).save ctx)))) arg ∧
    ReadsBack s sock

/--
**Shared memory.**  For every context that `sl_sys_setup` fills, every port,
address, flow label and scope, and every socket native code stores: managed
and native code agree exactly where the address structs have no length byte,
that is, not on OSX.
-/
theorem managed_agrees_iff {ι : Type} [DecidableEq ι] (b : Build) (a : Answers) (w : World ι)
    (i : ι) (ctx : Context) (arg : NewEndpoint) (s : SlSock) (sock : Socket)
    (h : (w.ctxs i).state = slSysStateStarted → (w.ctxs i).Initialized b.platform) :
    Agree b a w i ctx arg s sock ↔ b.platform ≠ .osx := by
  obtain ⟨r, w', hrun, hinit⟩ := slSysSetup_initialized b a w i h
  obtain ⟨hinet, hinet6⟩ := context_save (w'.ctxs i) ctx
  have hiff := seesNew_iff (hinet.trans hinit.afInet) (hinet6.trans hinit.afInet6) arg
  have hlen : b.platform.hasLen = false ↔ b.platform ≠ .osx := by
    cases b.platform <;> simp [Platform.hasLen]
  rw [← hlen, ← hiff]
  constructor
  · rintro ⟨r', w'', hrun', hsees, _⟩
    obtain ⟨rfl, rfl⟩ := Prod.mk.inj (Except.ok.inj (hrun'.symm.trans hrun))
    exact hsees
  · exact fun hsees => ⟨r, w', hrun, hsees, reads_back s sock⟩

/-- `IPv4.New(127, 0, 0, 1)` -/
def loopback : IPv4 := #v[127, 0, 0, 1]

/-- The theorem on Linux, for a socket on 127.0.0.1, port 51337. -/
theorem managed_agrees_iff_loopback :
    Agree ⟨true, .posix⟩ (Answers.granting 3) World.small () (Block.zero 8)
      (.v4 51337 loopback) (World.small.socks ()) Socket.default :=
  (managed_agrees_iff ⟨true, .posix⟩ (Answers.granting 3) World.small () (Block.zero 8)
    (.v4 51337 loopback) (World.small.socks ()) Socket.default
    (fun h => absurd h (by decide))).mpr (by decide)

/-- The failing platform: on OSX the same socket has no IPv4 endpoint. -/
theorem managed_disagrees_osx :
    ¬Agree ⟨true, .osx⟩ (Answers.granting 3) World.small () (Block.zero 8)
      (.v4 51337 loopback) (World.small.socks ()) Socket.default := by
  rintro ⟨r, w', hrun, hsees, _⟩
  obtain ⟨r₀, w₀, hrun₀, hinit⟩ := slSysSetup_initialized ⟨true, .osx⟩ (Answers.granting 3)
    World.small () (fun h => absurd h (by decide))
  obtain ⟨rfl, rfl⟩ := Prod.mk.inj (Except.ok.inj (hrun.symm.trans hrun₀))
  obtain ⟨hinet, hinet6⟩ := context_save (w'.ctxs ()) (Block.zero 8)
  have hlen := (seesNew_iff (hinet.trans hinit.afInet) (hinet6.trans hinit.afInet6) _).mp hsees
  exact absurd hlen (by decide)

end SockLynx
