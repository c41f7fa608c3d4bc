import SockLynx.Verified.Calls

/-!
# What an operation leaves alone

An operation on one socket touches that socket, the descriptor it uses and,
if it creates, the new descriptor.  Of the other sockets at most an endpoint
changes, where a receive was told to store the sender there.

`World.Valid` holds in every run: `sock->fd` is always a number the system
hands out, so that the cast of `sl_sock_fd_get` loses nothing.

## Main results

* `SockEffect.sock_of_ne` — other sockets keep all but their endpoint.
* `SockEffect.valid`, `CallEffect.valid` — `World.Valid` is kept.
* `SockEffect.log_cases` — the system calls an operation makes.
* `SockEffect.created` — what a successful creation leaves behind.
-/

namespace SockLynx

variable {ι : Type} [DecidableEq ι]

/-- Every `sock->fd` is a descriptor number. -/
def World.Valid (b : Build) (w : World ι) : Prop :=
  ∀ i, b.platform.isDescriptor (w.socks i).fd = true

/-- Socket `j` is CREATED or BOUND. -/
def World.IsOpen (w : World ι) (j : ι) : Prop :=
  (w.socks j).state = SlSockState.created.val ∨ (w.socks j).state = SlSockState.bound.val

/-- The operation does not store a sender in the endpoint of a socket. -/
def SockOp.KeepsEndpoints : SockOp ι → Prop
  | .recv _ _ (.ofSock _) => False
  | _ => True

omit [DecidableEq ι] in
theorem World.start_not_isOpen (w : World ι) (endpoint : ι → SlEndpoint) (j : ι) :
    ¬(w.start endpoint).IsOpen j := by
  rintro (h | h)
  · exact absurd (show SlSockState.new.val = SlSockState.created.val from h) (by decide)
  · exact absurd (show SlSockState.new.val = SlSockState.bound.val from h) (by decide)

omit [DecidableEq ι] in
theorem World.start_valid (b : Build) (w : World ι) (endpoint : ι → SlEndpoint) :
    (w.start endpoint).Valid b :=
  fun _ => b.platform.isDescriptor_zero

omit [DecidableEq ι] in
/-- A socket that may be created, where that is asserted, is not open. -/
theorem World.not_isOpen_of_ready {b : Build} {w : World ι} {i : ι} {type proto : UInt32}
    (hb : b.asserts = true) (hready : (.create type proto : SockOp ι).Ready b (w.socks i)) :
    ¬w.IsOpen i := by
  have hstate := hready hb
  rintro (h | h) <;> rw [h] at hstate <;> exact absurd hstate (by decide)

section Frame

variable {b : Build} {a : Answers} {i j : ι} {w w' : World ι} {op : SockOp ι} {r : Int32}

omit [DecidableEq ι] in
theorem World.Valid.fd_eq (h : w.Valid b) (i : ι) : w.fd b i = (w.socks i).fd :=
  Platform.sockType_of_isDescriptor (h i)

omit [DecidableEq ι] in
@[simp] theorem SockOp.prelude_socks : (op.prelude b a i w).socks = w.socks := by
  unfold SockOp.prelude
  split
  · split <;> rfl
  · rfl

omit [DecidableEq ι] in
@[simp] theorem SockOp.prelude_fds : (op.prelude b a i w).os.fds = w.os.fds := by
  unfold SockOp.prelude
  split
  · split <;> rfl
  · rfl

omit [DecidableEq ι] in
@[simp] theorem SockOp.prelude_latest : (op.prelude b a i w).os.latest = w.os.latest := by
  unfold SockOp.prelude
  split
  · split <;> rfl
  · rfl

omit [DecidableEq ι] in
@[simp] theorem SockOp.prelude_mem : (op.prelude b a i w).mem = w.mem := by
  unfold SockOp.prelude
  split
  · split <;> rfl
  · rfl

omit [DecidableEq ι] in
@[simp] theorem SockOp.prelude_received : (op.prelude b a i w).received = w.received := by
  unfold SockOp.prelude
  split
  · split <;> rfl
  · rfl

/-- Storing an address leaves every socket alone whose endpoint is not named. -/
theorem World.putName_socks_of_ne {endpoint : EndpointPtr ι} (h : endpoint ≠ .ofSock j)
    (bs : List UInt8) : (w.putName endpoint bs).socks j = w.socks j := by
  cases endpoint with
  | null => rfl
  | addr p => rfl
  | ofSock k => exact World.setSock_of_ne w _ fun hj => h (by rw [hj])

/-- Of another socket at most the endpoint changes. -/
theorem SockEffect.sock_of_ne (h : SockEffect b a i w op r w') (hj : j ≠ i) :
    w'.socks j = { w.socks j with endpoint := (w'.socks j).endpoint } := by
  cases h with
  | createRefused _ => simp [World.setSock_of_ne _ _ hj]
  | createHalf _ _ _ => simp [World.setSock_of_ne _ _ hj]
  | createV6 _ _ _ => simp [World.setSock_of_ne _ _ hj]
  | createOther _ _ => simp [World.setSock_of_ne _ _ hj]
  | refused _ _ => simp [World.setSock_of_ne _ _ hj]
  | bindDone _ _ _ => simp [World.setSock_of_ne _ _ hj]
  | closeDone _ _ _ => simp [World.setSock_of_ne _ _ hj]
  | modeDone _ _ _ => simp [World.setSock_of_ne _ _ hj]
  | sendDone _ _ _ => rfl
  | recvDone _ _ _ => exact World.putName_socks _ _ _ j

theorem World.setSock_endpoint {v : World ι} {s : SlSock} (hv : v.socks = w.socks)
    (hs : s.endpoint = (w.socks i).endpoint) (j : ι) :
    ((v.setSock i s).socks j).endpoint = (w.socks j).endpoint := by
  by_cases hj : j = i
  · subst hj
    simp [hs]
  · rw [World.setSock_of_ne _ _ hj, hv]

/-- Where no endpoint of a socket is handed to a receive, the endpoints stay. -/
theorem SockEffect.endpoint_eq (hkeeps : op.KeepsEndpoints) (h : SockEffect b a i w op r w')
    (j : ι) : (w'.socks j).endpoint = (w.socks j).endpoint := by
  cases h with
  | createRefused | createHalf | createV6 | createOther | bindDone | closeDone =>
      refine World.setSock_endpoint ?_ ?_ j <;> rfl
  | refused | modeDone =>
      refine World.setSock_endpoint ?_ ?_ j
      · exact SockOp.prelude_socks
      · rfl
  | sendDone => rfl
  | @recvDone _ _ endpoint =>
      cases endpoint with
      | null | addr => rfl
      | ofSock => exact hkeeps.elim

theorem SockEffect.fd_of_ne (h : SockEffect b a i w op r w') (hj : j ≠ i) :
    (w'.socks j).fd = (w.socks j).fd := by
  rw [h.sock_of_ne hj]

theorem SockEffect.state_of_ne (h : SockEffect b a i w op r w') (hj : j ≠ i) :
    (w'.socks j).state = (w.socks j).state := by
  rw [h.sock_of_ne hj]

/-- The numbers in `sock->fd` stay descriptor numbers. -/
theorem SockEffect.valid (hv : w.Valid b) (h : SockEffect b a i w op r w') : w'.Valid b := by
  intro j
  by_cases hj : j = i
  · subst hj
    cases h with
    | createRefused _ => simpa using hv j
    | createHalf hs _ _ => simpa using (Os.onSocket_ok hs).1
    | createV6 hs _ _ => simpa using (Os.onSocket_ok hs).1
    | createOther hs _ => simpa using (Os.onSocket_ok hs).1
    | refused _ _ => simpa using hv j
    | bindDone _ _ _ => simpa using hv j
    | closeDone _ _ _ => simpa using b.platform.isDescriptor_zero
    | modeDone _ _ _ => simpa using hv j
    | sendDone _ _ _ => exact hv j
    | recvDone _ _ _ => simpa using hv j
  · rw [h.fd_of_ne hj]
    exact hv j

omit [DecidableEq ι] in
/-- The prelude of a mode switch asks for the flags. -/
theorem SockOp.mem_prelude_log (hlog : w.os.log = []) {ev : Event}
    (hev : ev ∈ (op.prelude b a i w).os.log) : ∃ fd, ev.call = .getfl fd := by
  unfold SockOp.prelude at hev
  split at hev
  · split at hev
    · simp [hlog] at hev
    · obtain rfl : ev = _ := by simpa [hlog] using hev
      exact ⟨_, rfl⟩
  · simp [hlog] at hev

/-- The system calls of an operation: those of a creation, or the prelude and
the decisive call. -/
theorem SockEffect.log_cases (hlog : w.os.log = []) (h : SockEffect b a i w op r w') :
    ((∃ type proto, op = .create type proto) ∧ ∀ ev ∈ w'.os.log,
      (∃ domain type proto, ev.call = .socket domain type proto) ∨
        ∃ fd optval, ev.call = .setsockoptV6only fd optval) ∨
      ∃ call result, op.decisive b a i w = some call ∧
        w'.os.log = (op.prelude b a i w).os.log ++ [⟨call, result⟩] := by
  cases h with
  | createRefused _ => exact Or.inl ⟨⟨_, _, rfl⟩, by simp [hlog]⟩
  | createHalf _ _ _ => exact Or.inl ⟨⟨_, _, rfl⟩, by simp [hlog]⟩
  | createV6 _ _ _ => exact Or.inl ⟨⟨_, _, rfl⟩, by simp [hlog]⟩
  | createOther _ _ => exact Or.inl ⟨⟨_, _, rfl⟩, by simp [hlog]⟩
  | refused hc _ => exact Or.inr ⟨_, _, hc, rfl⟩
  | bindDone hc _ _ => exact Or.inr ⟨_, _, hc, rfl⟩
  | closeDone hc _ _ => exact Or.inr ⟨_, _, hc, rfl⟩
  | modeDone hc _ _ => exact Or.inr ⟨_, _, hc, rfl⟩
  | sendDone hc _ _ => exact Or.inr ⟨_, _, hc, rfl⟩
  | recvDone hc _ _ => exact Or.inr ⟨_, _, hc, by simp [SockOp.prelude]; rfl⟩

/-- What a successful creation leaves: the new descriptor `d`, as asked for,
next to the old ones. -/
structure World.Created (w w' : World ι) (b : Build) (a : Answers) (i : ι)
    (type proto : UInt32) (d : Int64) (desc : Desc ι) : Prop where
  granted : w.os.onSocket b.platform a = .ok d
  sock : ∃ flags, w'.socks i = { w.socks i with
    type := type, proto := proto, fd := d, state := SlSockState.created.val, flags := flags }
  latest : w'.os.latest = some d
  opened : w'.os.fds d = some desc
  others : ∀ x, x ≠ d → w'.os.fds x = w.os.fds x
  domain : desc.domain = (w.socks i).endpoint.af b.platform
  type : desc.type = type
  proto : desc.proto = proto
  binds : desc.binds = []

omit [DecidableEq ι] in
/-- The new descriptor is the one the next operation uses. -/
theorem World.Created.fd_eq {type proto : UInt32} {d : Int64} {desc : Desc ι}
    (h : w.Created w' b a i type proto d desc) : w'.fd b i = d := by
  obtain ⟨flags, hsock⟩ := h.sock
  simp [World.fd, hsock, Platform.sockType_of_isDescriptor (Os.onSocket_ok h.granted).1]

theorem SockEffect.created {type proto : UInt32}
    (h : SockEffect b a i w (.create type proto) r w') (hr : r = slOk) :
    ∃ d desc, w.Created w' b a i type proto d desc := by
  cases h with
  | createRefused _ => exact absurd hr.symm slOk_ne_slErr
  | createHalf _ _ _ => exact absurd hr.symm slOk_ne_slErr
  | @createV6 _ _ d hs h6 ho =>
      refine ⟨d, { w.freshDesc b a i type proto with v6only := false }, hs,
        ⟨(w.socks i).flags ||| SlSockFlag.ipv4Disabled.val, by simp⟩, rfl, by simp,
        fun x hx => ?_, rfl, rfl, rfl, rfl⟩
      simp [World.setDesc_of_ne _ _ hx, World.openFor_fds_of_ne hx]
  | @createOther _ _ d hs h6 =>
      refine ⟨d, w.freshDesc b a i type proto, hs, ⟨(w.socks i).flags, by simp⟩, rfl,
        by simp, fun x hx => ?_, rfl, rfl, rfl, rfl⟩
      simp [World.openFor_fds_of_ne hx]
  | refused hc _ => simp [SockOp.decisive] at hc

/-- Where no endpoint of a socket is handed to a receive, the endpoints stay. -/
theorem CallEffect.endpoint_eq {call : Call ι}
    (hkeeps : ∀ op, call.op = some op → op.KeepsEndpoints) (h : CallEffect b a i w call r w')
    (j : ι) : (w'.socks j).endpoint = (w.socks j).endpoint := by
  have hcreate : (createUdp : SockOp ι).KeepsEndpoints := trivial
  have hbind : (.bind : SockOp ι).KeepsEndpoints := trivial
  cases h with
  | guarded _ => rfl
  | notCreated _ hc _ => exact hc.endpoint_eq hcreate j
  | created _ hc _ hb => exact (hb.endpoint_eq hbind j).trans (hc.endpoint_eq hcreate j)
  | op hop _ _ he => exact he.endpoint_eq (hkeeps _ hop) j

theorem CallEffect.valid {call : Call ι} (hv : w.Valid b)
    (h : CallEffect b a i w call r w') : w'.Valid b :=
  h.preserves (fun _ _ _ _ hv _ he => he.valid hv) hv

end Frame

end SockLynx
