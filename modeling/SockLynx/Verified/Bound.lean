import SockLynx.Verified.Frame

/-!
# A BOUND socket is open and bound

One socket, driven by the functions of `sock.h` themselves, in any order, in a
build with assertions.  The state field is the only thing that connects the
struct to the kernel's table: CREATED promises a fresh descriptor of the
endpoint's family, BOUND one that has been bound once.  NEW and CLOSED promise
nothing; a half-finished creation leaves a descriptor behind in them, which
the next creation forgets.

## Main results

* `Backed` — the descriptor behind a socket that is CREATED or BOUND.
* `BoundInv` — the invariant over all four states.
* `bound_along` — at every point of a session a BOUND socket is backed by a
  descriptor bound to its endpoint, transfers go through such a descriptor
  only, and the state is never OPEN or ERROR.
-/

namespace SockLynx

open SockLynx.Lib.Runs

/-- One step of a session of `sock.h` calls. -/
def sockStep {ι : Type} [DecidableEq ι] (b : Build) (w : World ι) (e : Step ι (SockOp ι)) :
    Option (Outcome × World ι) :=
  callStep (e.call.run b e.answers e.sock) w

theorem sockStep_iff {ι : Type} [DecidableEq ι] {b : Build} {w w' : World ι}
    {e : Step ι (SockOp ι)} {o : Outcome} :
    sockStep b w e = some (o, w') ↔
      (e.call.Ready b (w.socks e.sock) ∧
        SockEffect b e.answers e.sock w.clearLog e.call o.ret w') ∧ o.events = w'.os.log := by
  rw [sockStep, callStep_eq_some_iff, SockOp.run_iff]
  exact Iff.rfl

/-- `sock->fd` is what the latest `socket()` returned, is open, and has the
family, type and protocol of the socket. -/
structure Backed (b : Build) (w : World Unit) (desc : Desc Unit) : Prop where
  latest : w.os.latest = some (w.socks ()).fd
  opened : w.os.fds (w.socks ()).fd = some desc
  domain : desc.domain = (w.socks ()).endpoint.af b.platform
  type : desc.type = (w.socks ()).type
  proto : desc.proto = (w.socks ()).proto

/-- A BOUND socket is backed by a descriptor that has been bound once, to its
endpoint. -/
def BoundTruth (b : Build) (w : World Unit) : Prop :=
  (w.socks ()).state = SlSockState.bound.val →
    ∃ desc, Backed b w desc ∧ desc.binds = [(w.socks ()).endpoint.sockaddr b.platform]

/-- The state is one of the four the library uses. -/
def KnownState (state : UInt32) : Prop :=
  state = SlSockState.new.val ∨ state = SlSockState.created.val ∨
    state = SlSockState.bound.val ∨ state = SlSockState.closed.val

/-- The binds the descriptor of an open socket has seen. -/
def World.expectedBinds (w : World Unit) (b : Build) : List (List UInt8 × UInt32) :=
  if (w.socks ()).state = SlSockState.bound.val then
    [(w.socks ()).endpoint.sockaddr b.platform]
  else []

/-- The invariant: an open socket is backed by a descriptor that has been bound
as often as its state says. -/
structure BoundInv (b : Build) (w : World Unit) : Prop where
  valid : w.Valid b
  state : KnownState (w.socks ()).state
  backed : w.IsOpen () → ∃ desc, Backed b w desc ∧ desc.binds = w.expectedBinds b

/-- The descriptor a system call transfers data through. -/
def Syscall.transfer : Syscall → Option Int64
  | .sendmsg fd _ _ _ _ => some fd
  | .recvmsg fd _ _ _ => some fd
  | _ => none

/-- The endpoint argument of an operation is not the socket's own. -/
def SockOp.NoAlias : SockOp Unit → Prop
  | .send _ _ endpoint => endpoint ≠ .ofSock ()
  | .recv _ _ endpoint => endpoint ≠ .ofSock ()
  | _ => True

section Steps

variable {b : Build} {a : Answers} {w w' : World Unit} {op : SockOp Unit} {r : Int32}

theorem BoundInv.truth (hI : BoundInv b w) : BoundTruth b w := by
  intro hbound
  obtain ⟨desc, hbacked, hbinds⟩ := hI.backed (Or.inr hbound)
  exact ⟨desc, hbacked, by rw [hbinds, World.expectedBinds, if_pos hbound]⟩

/-- At most the error and flags of the socket changed, and its descriptor only
in what the invariant does not mention. -/
theorem BoundInv.of_frame (hI : BoundInv b w) {error flags : UInt32}
    (hsock : w'.socks () = { w.socks () with error := error, flags := flags })
    (hlatest : w'.os.latest = w.os.latest)
    (hdesc : ∀ desc, w.os.fds (w.socks ()).fd = some desc →
      ∃ desc', w'.os.fds (w.socks ()).fd = some desc' ∧ desc'.domain = desc.domain ∧
        desc'.type = desc.type ∧ desc'.proto = desc.proto ∧ desc'.binds = desc.binds) :
    BoundInv b w' := by
  refine ⟨fun _ => by rw [hsock]; exact hI.valid (), by rw [hsock]; exact hI.state,
    fun hopen => ?_⟩
  have hopen' : w.IsOpen () := by simpa [World.IsOpen, hsock] using hopen
  obtain ⟨desc, hbacked, hbinds⟩ := hI.backed hopen'
  obtain ⟨desc', hopened, hdomain, htype, hproto, hbinds'⟩ := hdesc desc hbacked.opened
  refine ⟨desc', ⟨?_, ?_, ?_, ?_, ?_⟩, ?_⟩
  · rw [hlatest, hsock]
    exact hbacked.latest
  · rw [hsock]
    exact hopened
  · rw [hdomain, hsock]
    exact hbacked.domain
  · rw [htype, hsock]
    exact hbacked.type
  · rw [hproto, hsock]
    exact hbacked.proto
  · simp [World.expectedBinds, hsock, hbinds', hbinds]

/-- The special case of an untouched table. -/
theorem BoundInv.of_same (hI : BoundInv b w) {error : UInt32}
    (hsock : w'.socks () = { w.socks () with error := error })
    (hlatest : w'.os.latest = w.os.latest) (hfds : w'.os.fds = w.os.fds) : BoundInv b w' :=
  hI.of_frame hsock hlatest fun desc hd => ⟨desc, by rw [hfds]; exact hd, rfl, rfl, rfl, rfl⟩

/-- Creation establishes the invariant anew, or fails outside the open
states. -/
theorem BoundInv.create {type proto : UInt32} (hb : b.asserts = true)
    (hready : (.create type proto : SockOp Unit).Ready b (w.socks ())) (hI : BoundInv b w)
    (he : SockEffect b a () w (.create type proto) r w') : BoundInv b w' := by
  have hclosed := World.not_isOpen_of_ready hb hready
  rcases he.create_cases with hr | ⟨hr, _⟩
  · have hstate : (w'.socks ()).state = (w.socks ()).state := by
      cases he with
      | createRefused _ => simp
      | createHalf _ _ _ => simp
      | createV6 _ _ _ => exact absurd hr slOk_ne_slErr
      | createOther _ _ => exact absurd hr slOk_ne_slErr
      | refused hc _ => simp [SockOp.decisive] at hc
    refine ⟨he.valid hI.valid, hstate ▸ hI.state, fun hopen => absurd ?_ hclosed⟩
    simpa [World.IsOpen, hstate] using hopen
  · obtain ⟨d, desc, hnew⟩ := he.created hr
    obtain ⟨flags, hsock⟩ := hnew.sock
    refine ⟨he.valid hI.valid, by rw [hsock]; exact Or.inr (Or.inl rfl), fun _ => ?_⟩
    refine ⟨desc, ⟨?_, ?_, ?_, ?_, ?_⟩, ?_⟩
    · rw [hnew.latest, hsock]
    · rw [hsock]
      exact hnew.opened
    · rw [hnew.domain, hsock]
    · rw [hnew.type, hsock]
    · rw [hnew.proto, hsock]
    · have hne : SlSockState.created.val ≠ SlSockState.bound.val := by decide
      simp [hnew.binds, World.expectedBinds, hsock, hne]

/-- A created socket has no name yet, so that a granted `bind()` leaves it
with its own. -/
theorem BoundInv.bind (hstate : (w.socks ()).state = SlSockState.created.val)
    (hI : BoundInv b w) (he : SockEffect b a () w .bind r w') : BoundInv b w' := by
  have hvalid := he.valid hI.valid
  cases he with
  | refused _ _ => exact hI.of_same (World.setSock_self _ _ _) (by simp) (by simp)
  | @bindDone _ d _ hd _ =>
      rw [hI.valid.fd_eq] at hd hvalid ⊢
      obtain ⟨desc, hbacked, hbinds⟩ := hI.backed (Or.inl hstate)
      obtain rfl := Option.some.inj (hd.symm.trans hbacked.opened)
      have hempty : w.expectedBinds b = [] := by
        have hne : SlSockState.created.val ≠ SlSockState.bound.val := by decide
        simp [World.expectedBinds, hstate, hne]
      refine ⟨hvalid, by simp [KnownState], fun _ =>
        ⟨{ d with binds := d.binds ++ [w.ownName b ()] }, ⟨?_, ?_, ?_, ?_, ?_⟩, ?_⟩⟩
      · simpa using hbacked.latest
      · simp
      · simpa using hbacked.domain
      · simpa using hbacked.type
      · simpa using hbacked.proto
      · rw [hbinds, hempty, World.expectedBinds, if_pos (by simp), World.setSock_self]
        rfl

/-- Every operation whose endpoint argument is not the socket's own keeps the
invariant. -/
theorem BoundInv.step (hb : b.asserts = true) (hready : op.Ready b (w.socks ()))
    (halias : op.NoAlias) (hI : BoundInv b w) (he : SockEffect b a () w op r w') :
    BoundInv b w' := by
  have hvalid := he.valid hI.valid
  cases he with
  | createRefused hs => exact hI.create hb hready (.createRefused hs)
  | createHalf hs h6 ho => exact hI.create hb hready (.createHalf hs h6 ho)
  | createV6 hs h6 ho => exact hI.create hb hready (.createV6 hs h6 ho)
  | createOther hs h6 => exact hI.create hb hready (.createOther hs h6)
  | refused _ _ => exact hI.of_same (World.setSock_self _ _ _) (by simp) (by simp)
  | bindDone hc hd ha => exact hI.bind (hready hb) (.bindDone hc hd ha)
  | closeDone _ _ _ =>
      refine ⟨hvalid, by simp [KnownState], fun hopen => ?_⟩
      simp only [World.IsOpen, World.setSock_self] at hopen
      exact absurd hopen (by decide)
  | modeDone _ hd _ =>
      rw [hI.valid.fd_eq] at hd ⊢
      refine hI.of_frame (World.setSock_self _ _ _) (by simp) fun desc hdesc => ?_
      obtain rfl := Option.some.inj (hd.symm.trans hdesc)
      refine ⟨_, World.setDesc_self _ _ _, ?_⟩
      unfold World.modeDesc
      split <;> exact ⟨rfl, rfl, rfl, rfl⟩
  | sendDone _ _ _ => exact hI.of_same rfl rfl rfl
  | @recvDone buf bufcount _ _ _ dg _ _ _ =>
      have hsock := World.putName_socks_of_ne
        (w := w.putPayload (iovBufs buf (iovCount b bufcount)) dg.payload) halias
      exact hI.of_same (show _ = { w.socks () with error := (w.socks ()).error } from hsock _)
        (by simp) (by simp)

/-- Data is transferred by a send or a receive, through the socket's
descriptor. -/
theorem SockOp.decisive_transfer {call : Syscall} {d : Int64}
    (hc : op.decisive b a () w = some call) (hd : call.transfer = some d) :
    d = w.fd b () ∧ ((∃ buf n endpoint, op = .send buf n endpoint) ∨
      ∃ buf n endpoint, op = .recv buf n endpoint) := by
  cases op with
  | create type proto => simp [SockOp.decisive] at hc
  | bind | close =>
      obtain rfl := Option.some.inj hc
      simp [Syscall.transfer] at hd
  | mode nonblocking =>
      obtain rfl := Option.some.inj hc
      split at hd <;> simp [Syscall.transfer] at hd
  | send buf n endpoint =>
      obtain rfl := Option.some.inj hc
      exact ⟨(Option.some.inj hd).symm, Or.inl ⟨_, _, _, rfl⟩⟩
  | recv buf n endpoint =>
      obtain rfl := Option.some.inj hc
      exact ⟨(Option.some.inj hd).symm, Or.inr ⟨_, _, _, rfl⟩⟩

/-- In a build with assertions every transfer of an operation is issued on a
BOUND socket's descriptor. -/
theorem SockEffect.transfers (hb : b.asserts = true) (hlog : w.os.log = [])
    (hready : op.Ready b (w.socks ())) (he : SockEffect b a () w op r w') {ev : Event}
    (hev : ev ∈ w'.os.log) {d : Int64} (hd : ev.call.transfer = some d) :
    d = w.fd b () ∧ (w.socks ()).state = SlSockState.bound.val := by
  rcases he.log_cases hlog with ⟨_, hcalls⟩ | ⟨call, result, hc, hlog'⟩
  · rcases hcalls ev hev with ⟨_, _, _, h⟩ | ⟨_, _, h⟩ <;> simp [h, Syscall.transfer] at hd
  · rw [hlog', List.mem_append, List.mem_singleton] at hev
    rcases hev with hev | rfl
    · obtain ⟨_, h⟩ := SockOp.mem_prelude_log hlog hev
      simp [h, Syscall.transfer] at hd
    · rcases SockOp.decisive_transfer hc hd with ⟨hfd, ⟨_, _, _, rfl⟩ | ⟨_, _, _, rfl⟩⟩
      · exact ⟨hfd, (hready.2 hb).2.2⟩
      · exact ⟨hfd, (hready hb).2.2.2⟩

/-- What holds of a step: afterwards a BOUND socket is backed and the state is
not OPEN or ERROR, and every transfer was issued on the descriptor of a
socket that was BOUND and backed. -/
def BoundStep (b : Build) (w : World Unit) (o : Outcome) (w' : World Unit) : Prop :=
  BoundTruth b w' ∧ (w'.socks ()).state ≠ SlSockState.opened.val ∧
    (w'.socks ()).state ≠ SlSockState.error.val ∧
    ∀ ev ∈ o.events, ∀ d, ev.call.transfer = some d →
      d = (w.socks ()).fd ∧ (w.socks ()).state = SlSockState.bound.val ∧ BoundTruth b w

theorem BoundInv.clearLog (h : BoundInv b w) :
    BoundInv b w.clearLog :=
  ⟨h.valid, h.state, fun hopen => by
    obtain ⟨desc, hbacked, hbinds⟩ := h.backed hopen
    exact ⟨desc, ⟨hbacked.latest, hbacked.opened, hbacked.domain, hbacked.type, hbacked.proto⟩,
      hbinds⟩⟩

/-- A known state is neither OPEN nor ERROR. -/
theorem KnownState.ne {state : UInt32} (h : KnownState state) :
    state ≠ SlSockState.opened.val ∧ state ≠ SlSockState.error.val := by
  rcases h with rfl | rfl | rfl | rfl <;> decide

/-- One operation, from the invariant. -/
theorem BoundInv.sockStep (hb : b.asserts = true) (hI : BoundInv b w) {e : Step Unit (SockOp Unit)}
    {o : Outcome} (h : sockStep b w e = some (o, w')) (halias : e.call.NoAlias) :
    BoundStep b w o w' ∧ BoundInv b w' := by
  obtain ⟨⟨hready, he⟩, hlog⟩ := sockStep_iff.mp h
  have hready : e.call.Ready b (w.clearLog.socks ()) := hready
  have hI' := BoundInv.step hb hready halias hI.clearLog he
  obtain ⟨hopened, herror⟩ := hI'.state.ne
  refine ⟨⟨hI'.truth, hopened, herror, fun ev hev d hd => ?_⟩, hI'⟩
  rw [hlog] at hev
  obtain ⟨hfd, hstate⟩ := he.transfers hb rfl hready hev hd
  exact ⟨hfd.trans (hI.valid.fd_eq ()), hstate, hI.truth⟩

end Steps

/-- The process of `w` before its first call, with a zeroed socket of any type
and protocol. -/
def World.startZeroed (w : World Unit) (type proto : UInt32) (endpoint : SlEndpoint) :
    World Unit :=
  (w.start fun _ => endpoint).setSock () (SlSock.zeroed type proto endpoint)

theorem BoundInv.start (b : Build) (w : World Unit) (type proto : UInt32)
    (endpoint : SlEndpoint) : BoundInv b (w.startZeroed type proto endpoint) := by
  have hsock : (w.startZeroed type proto endpoint).socks () =
      SlSock.zeroed type proto endpoint := World.setSock_self _ _ _
  refine ⟨fun _ => ?_, ?_, fun hopen => ?_⟩
  · rw [hsock]
    exact b.platform.isDescriptor_zero
  · rw [hsock]
    exact Or.inl rfl
  · rw [World.IsOpen, hsock] at hopen
    exact absurd (w.start_not_isOpen (fun _ => endpoint) ()) (not_not_intro hopen)

/--
**BOUND means bound.**  One zeroed socket of any type and protocol, any
sequence of `sock.h` calls whose endpoint arguments are not the socket's own,
any answers, a build with assertions: `BoundStep` holds of every step.
-/
theorem bound_along (p : Platform) (w : World Unit) (type proto : UInt32)
    (endpoint : SlEndpoint) (steps : List (Step Unit (SockOp Unit)))
    (halias : ∀ e ∈ steps, e.call.NoAlias) :
    Along (sockStep ⟨true, p⟩) (fun w _ o w' => BoundStep ⟨true, p⟩ w o w')
      (w.startZeroed type proto endpoint) steps :=
  along_of_invariant (fun _ _ _ _ hI h hC => hI.sockStep rfl h hC)
    (BoundInv.start ⟨true, p⟩ w type proto endpoint) (along_of_forall_mem halias)

/-- A socket is created, bound and receives into the caller's memory. -/
def bindAndReceive : List (Step Unit (SockOp Unit)) :=
  [⟨(), .create slSockTypeDgram slSockProtoUdp, Answers.granting 3⟩,
    ⟨(), .bind, Answers.granting 3⟩,
    ⟨(), .recv (some [⟨64, 16⟩]) 1 (.addr 128), Answers.granting 3⟩]

/-- The theorem at that session, which runs and leaves the socket BOUND. -/
theorem bound_along_received :
    (∃ outcomes v, exec (sockStep ⟨true, .posix⟩) (World.small.startZeroed 0 0 (anyEndpoint 2))
        bindAndReceive = some (outcomes, v) ∧
      (v.socks ()).state = SlSockState.bound.val) ∧
      Along (sockStep ⟨true, .posix⟩) (fun w _ o w' => BoundStep ⟨true, .posix⟩ w o w')
        (World.small.startZeroed 0 0 (anyEndpoint 2)) bindAndReceive := by
  have halias : ∀ e ∈ bindAndReceive, e.call.NoAlias := by
    simp [bindAndReceive, SockOp.NoAlias]
  exact ⟨⟨_, _, rfl, rfl⟩, bound_along .posix World.small 0 0 (anyEndpoint 2) _ halias⟩

end SockLynx
