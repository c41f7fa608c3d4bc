import SockLynx.Lib.Simulation
import SockLynx.Verified.Reply
import SockLynx.Verified.Tables
import SockLynx.Verified.Wire

/-!
# Sockets do not interfere

A call reads the fields of its socket, the descriptor in `sock->fd`, the endpoint
and the buffers it is given and the answers of the system, and writes as little.
Other sockets could still come in its way: by descriptor 0, which a socket without
a descriptor takes for its own, by an endpoint or a buffer that two of them use,
or by a descriptor number that the system will not hand out because another socket
has it.  `Apart` rules these three out, and nothing else is needed for every
socket to behave as if it were alone in the process, down to the bytes it passes
to the network.

`Hides` relates the full process to one in which the other sockets have never
opened anything.

## Main results

* `SockEffect.independent` — an operation of socket `i` in the two processes.
* `SockEffect.hidden` — an operation of another socket is not seen.
* `independence` — the calls of one socket, taken out of a session, have the
  outcomes they had in it and pass the same bytes.
* `schedule_independence` — so have the same calls in any other order that
  keeps the calls of each socket in order.
-/

namespace SockLynx

open SockLynx.Lib.Blocks
open SockLynx.Lib.Runs
open SockLynx.Lib.Simulation
open SockLynx.Lib.Spans

variable {ι : Type} [DecidableEq ι]

/-! ## What belongs to a socket -/

/-- The descriptor is not another socket's. -/
def Desc.visible (i : ι) (desc : Desc ι) : Bool :=
  match desc.owner with
  | none => true
  | some j => j = i

/-- Whose a cell of the caller's memory is: one socket's, or none's, in which case
all may read it. -/
abbrev Regions (ι : Type) := Nat → Option ι

/-- The cells may be read for socket `i`. -/
def Regions.Readable (regions : Regions ι) (i : ι) (s : Span) : Prop :=
  ∀ x, s.Has x → regions x = none ∨ regions x = some i

/-- The cells may be written for socket `i`. -/
def Regions.Writable (regions : Regions ι) (i : ι) (s : Span) : Prop :=
  ∀ x, s.Has x → regions x = some i

/-- The endpoint argument of an operation on socket `i` and its buffers are shared
with no socket that writes them. -/
def SockOp.Private (regions : Regions ι) (i : ι) : SockOp ι → Prop
  | .send buf _ endpoint =>
      (∀ s ∈ endpoint.spans, regions.Readable i s) ∧
        ∀ x ∈ buf.getD [], regions.Readable i x.span
  | .recv buf _ endpoint =>
      (∀ j, endpoint ≠ .ofSock j) ∧ (∀ s ∈ endpoint.spans, regions.Writable i s) ∧
        ∀ x ∈ buf.getD [], regions.Writable i x.span
  | _ => True

/-- Where socket `i` and what it may use are the same, and the descriptors of
the other sockets are missing. -/
structure Hides (regions : Regions ι) (i : ι) (w v : World ι) : Prop where
  sock : v.socks i = w.socks i
  endpoints : ∀ j, (v.socks j).endpoint = (w.socks j).endpoint
  mem : ∀ x, regions x = none ∨ regions x = some i → v.mem x = w.mem x
  fds : ∀ d, v.os.fds d = (w.os.fds d).filter (Desc.visible i)

section Hides

variable {regions : Regions ι} {b : Build} {a : Answers} {i k : ι} {w w' v v' : World ι}
  {op : SockOp ι} {r : Int32}

theorem Hides.congr (h : Hides regions i w v) (hw : w'.socks = w.socks) (hv : v'.socks = v.socks)
    (hwmem : w'.mem = w.mem) (hvmem : v'.mem = v.mem) (hwfds : w'.os.fds = w.os.fds)
    (hvfds : v'.os.fds = v.os.fds) : Hides regions i w' v' where
  sock := by rw [hv, hw, h.sock]
  endpoints j := by rw [hv, hw, h.endpoints]
  mem x hx := by rw [hvmem, hwmem, h.mem x hx]
  fds d := by rw [hvfds, hwfds, h.fds]

theorem Hides.note (h : Hides regions i w v) (ev : Event) :
    Hides regions i (w.note ev) (v.note ev) :=
  h.congr rfl rfl rfl rfl rfl rfl

/-- Socket `i` is stored in both. -/
theorem Hides.setSock {s : SlSock} (h : Hides regions i w v)
    (hendpoint : s.endpoint = (w.socks i).endpoint) :
    Hides regions i (w.setSock i s) (v.setSock i s) where
  sock := by simp
  endpoints j := by
    by_cases hj : j = i
    · subst hj
      simp
    · rw [World.setSock_of_ne _ _ hj, World.setSock_of_ne _ _ hj, h.endpoints]
  mem := h.mem
  fds := h.fds

/-- An entry is stored in both. -/
theorem Hides.setDesc {d : Int64} {entry : Option (Desc ι)} (h : Hides regions i w v)
    (hentry : ∀ desc, entry = some desc → desc.owner = some i) :
    Hides regions i (w.setDesc d entry) (v.setDesc d entry) where
  sock := h.sock
  endpoints := h.endpoints
  mem := h.mem
  fds x := by
    by_cases hx : x = d
    · subst hx
      rw [World.setDesc_self, World.setDesc_self]
      cases hcase : entry with
      | none => rfl
      | some desc => simp [Option.filter, Desc.visible, hentry desc hcase]
    · rw [World.setDesc_of_ne _ _ hx, World.setDesc_of_ne _ _ hx, h.fds]

theorem Hides.fd_eq (h : Hides regions i w v) : v.fd b i = w.fd b i := by
  simp only [World.fd, h.sock]

/-- A descriptor that is open in the full process only belongs to another
socket. -/
theorem Hides.fds_eq {d : Int64} (h : Hides regions i w v)
    (hown : ∀ desc, w.os.fds d = some desc → desc.owner = some i) :
    v.os.fds d = w.os.fds d := by
  rw [h.fds]
  cases hd : w.os.fds d with
  | none => rfl
  | some desc => simp [Option.filter, Desc.visible, hown desc hd]

/-- The descriptor of socket `i` is found in both. -/
theorem Hides.found {desc : Desc ι} (h : Hides regions i w v)
    (hown : ∀ desc, w.os.fds (w.fd b i) = some desc → desc.owner = some i)
    (hd : w.os.fds (w.fd b i) = some desc) : v.os.fds (v.fd b i) = some desc := by
  have hfd : v.fd b i = w.fd b i := h.fd_eq
  rw [hfd, h.fds_eq hown, hd]

/-- The system hands out what it hands out in the full process. -/
theorem Hides.onSocket_eq {p : Platform} (h : Hides regions i w v)
    (hhonest : ∀ d, a.socket = .ok d → w.os.onSocket p a = .ok d) :
    v.os.onSocket p a = w.os.onSocket p a := by
  cases hs : a.socket with
  | error e => simp [Os.onSocket, hs]
  | ok d =>
      have hd := Os.onSocket_ok (hhonest d hs)
      have hfree : v.os.fds d = none := by
        rw [h.fds, hd.2]
        rfl
      simp [Os.onSocket, hs, hd, hfree]

/-! ## What an operation reads -/

omit [DecidableEq ι] in
theorem onDesc_congr {β : Type} {os os' : Os ι} {d : Int64} (h : os'.fds d = os.fds d)
    (answer : Except Int32 β) : os'.onDesc d answer = os.onDesc d answer := by
  simp only [Os.onDesc, h]

theorem Hides.endpointAt_eq {endpoint : EndpointPtr ι} (h : Hides regions i w v)
    (hread : ∀ s ∈ endpoint.spans, regions.Readable i s) :
    v.endpointAt endpoint = w.endpointAt endpoint := by
  cases endpoint with
  | null => rfl
  | ofSock j => exact congrArg some (h.endpoints j)
  | addr p =>
      have hread := hread ⟨p, slEndpointBytes⟩ (List.mem_singleton.mpr rfl)
      exact congrArg some (Block.load_congr fun x hp hx => h.mem x (hread x ⟨hp, hx⟩))

/-- A send passes the same bytes. -/
theorem Hides.gather_eq {buf : Option (List SlBuf)} (h : Hides regions i w v)
    (hread : ∀ x ∈ buf.getD [], regions.Readable i x.span) (iovlen : UInt64) :
    gather v.mem ((iovBufs buf iovlen).map SlBuf.span) =
      gather w.mem ((iovBufs buf iovlen).map SlBuf.span) := by
  refine gather_congr fun s hs x hx => ?_
  obtain ⟨y, hy, rfl⟩ := List.mem_map.mp hs
  exact h.mem x (hread y (mem_of_mem_iovBufs hy) x hx)

theorem Hides.setflArg_eq {nonblocking : Bool} (h : Hides regions i w v)
    (hown : ∀ desc, w.os.fds (w.fd b i) = some desc → desc.owner = some i) :
    v.setflArg b a i nonblocking = w.setflArg b a i nonblocking := by
  have hfd : v.fd b i = w.fd b i := h.fd_eq
  simp only [World.setflArg, World.getflValue, hfd, onDesc_congr (h.fds_eq hown)]

theorem Hides.ownName_eq (h : Hides regions i w v) : v.ownName b i = w.ownName b i := by
  simp only [World.ownName, World.nameAt, World.nameLen, World.endpointAt, h.sock]

/-- The decisive system call is the same. -/
theorem Hides.decisive_eq (h : Hides regions i w v)
    (hown : ∀ desc, w.os.fds (w.fd b i) = some desc → desc.owner = some i)
    (hprivate : op.Private regions i) : op.decisive b a i v = op.decisive b a i w := by
  have hfd : v.fd b i = w.fd b i := h.fd_eq
  cases op with
  | create type proto => rfl
  | bind => simp only [SockOp.decisive, hfd, h.ownName_eq]
  | close => simp only [SockOp.decisive, hfd]
  | mode nonblocking => simp only [SockOp.decisive, hfd, h.setflArg_eq hown]
  | send buf bufcount endpoint =>
      have hat : v.endpointAt endpoint = w.endpointAt endpoint :=
        h.endpointAt_eq hprivate.1
      simp only [SockOp.decisive, World.nameAt, World.nameLen, hfd, hat]
  | recv buf bufcount endpoint => simp only [SockOp.decisive, hfd]

/-- It is refused in both or in neither. -/
theorem Hides.refusal_eq (h : Hides regions i w v)
    (hown : ∀ desc, w.os.fds (w.fd b i) = some desc → desc.owner = some i) :
    op.refusal b a i v = op.refusal b a i w := by
  have hfd : v.fd b i = w.fd b i := h.fd_eq
  cases op with
  | create type proto => rfl
  | bind | close | mode | send | recv =>
      simp only [SockOp.refusal, hfd, onDesc_congr (h.fds_eq hown)]

theorem Hides.prelude (a : Answers) (op : SockOp ι) (h : Hides regions i w v)
    (hlog : v.os.log = w.os.log)
    (hown : ∀ desc, w.os.fds (w.fd b i) = some desc → desc.owner = some i) :
    Hides regions i (op.prelude b a i w) (op.prelude b a i v) ∧
      (op.prelude b a i v).os.log = (op.prelude b a i w).os.log := by
  have hfd : v.fd b i = w.fd b i := h.fd_eq
  unfold SockOp.prelude
  split
  · split
    · exact ⟨h, hlog⟩
    · exact ⟨h.congr rfl rfl rfl rfl rfl rfl, by simp [hlog, hfd, onDesc_congr (h.fds_eq hown)]⟩
  · exact ⟨h, hlog⟩

/-! ## What an operation writes -/

theorem Hides.freshDesc_eq {type proto : UInt32} (h : Hides regions i w v) :
    v.freshDesc b a i type proto = w.freshDesc b a i type proto := by
  simp only [World.freshDesc, h.sock]

theorem Hides.openFor {type proto : UInt32} {d : Int64} (h : Hides regions i w v) :
    Hides regions i (w.openFor b a i type proto d) (v.openFor b a i type proto d) := by
  have hset : Hides regions i (w.setDesc d (some (w.freshDesc b a i type proto)))
      (v.setDesc d (some (w.freshDesc b a i type proto))) := by
    refine h.setDesc fun desc heq => ?_
    obtain rfl := Option.some.inj heq
    rfl
  refine hset.congr rfl rfl rfl rfl rfl ?_
  rw [← h.freshDesc_eq]
  rfl

/-- A payload is stored in both. -/
theorem Hides.putPayload {bufs : List SlBuf} {bs : List UInt8} (h : Hides regions i w v) :
    Hides regions i (w.putPayload bufs bs) (v.putPayload bufs bs) where
  sock := h.sock
  endpoints := h.endpoints
  mem x hx := fill_congr (h.mem x hx)
  fds := h.fds

/-- An endpoint is stored in both. -/
theorem Hides.putName {p : ℕ+} {bs : List UInt8} (h : Hides regions i w v) :
    Hides regions i (w.putName (.addr p) bs) (v.putName (.addr p) bs) where
  sock := h.sock
  endpoints := h.endpoints
  mem x hx := by
    by_cases hin : p ≤ x ∧ x < p + bs.length
    · obtain ⟨k, rfl⟩ := Nat.exists_eq_add_of_le hin.1
      have hk : k < bs.length := by omega
      exact (Lib.Words.blit_apply hk).trans (Lib.Words.blit_apply hk).symm
    · have hout : x < p ∨ p + bs.length ≤ x := by omega
      exact (Lib.Words.blit_frame hout).trans
        ((h.mem x hx).trans (Lib.Words.blit_frame hout).symm)
  fds := h.fds

/-- **One operation.**  It does in the process of its socket alone what it does
in the full process. -/
theorem SockEffect.independent (h : Hides regions i w v) (hlog : v.os.log = w.os.log)
    (hown : (∀ type proto, op ≠ .create type proto) →
      ∀ desc, w.os.fds (w.fd b i) = some desc → desc.owner = some i)
    (hhonest : (∃ type proto, op = .create type proto) →
      ∀ d, a.socket = .ok d → w.os.onSocket b.platform a = .ok d)
    (hprivate : op.Private regions i) (he : SockEffect b a i w op r w') :
    ∃ v', SockEffect b a i v op r v' ∧ Hides regions i w' v' ∧ v'.os.log = w'.os.log := by
  have hfd : v.fd b i = w.fd b i := h.fd_eq
  have h6 : v.isV6 b i = w.isV6 b i := by simp only [World.isV6, h.sock]
  have hsocket : (∃ type proto, op = .create type proto) →
      v.os.onSocket b.platform a = w.os.onSocket b.platform a :=
    fun hcreate => h.onSocket_eq (hhonest hcreate)
  cases he with
  | createRefused hs =>
      have hs' := (hsocket ⟨_, _, rfl⟩).trans hs
      refine ⟨_, .createRefused hs', ?_, by simp [hlog, h.sock]⟩
      rw [h.sock]
      exact (h.note _).setSock rfl
  | createHalf hs hv6 ho =>
      have hs' := (hsocket ⟨_, _, rfl⟩).trans hs
      refine ⟨_, .createHalf hs' (h6.trans hv6) ho, ?_, by simp [hlog, h.sock]⟩
      rw [h.sock]
      exact (h.openFor.note _).setSock rfl
  | createV6 hs hv6 ho =>
      have hs' := (hsocket ⟨_, _, rfl⟩).trans hs
      refine ⟨_, .createV6 hs' (h6.trans hv6) ho, ?_, by simp [hlog, h.sock]⟩
      rw [h.sock, h.freshDesc_eq]
      refine ((h.openFor.setDesc fun desc heq => ?_).note _).setSock rfl
      obtain rfl := Option.some.inj heq
      rfl
  | createOther hs hv6 =>
      have hs' := (hsocket ⟨_, _, rfl⟩).trans hs
      refine ⟨_, .createOther hs' (h6.trans hv6), ?_, by simp [hlog, h.sock]⟩
      rw [h.sock]
      exact h.openFor.setSock rfl
  | refused hc hr =>
      have hown := hown fun _ _ h => by simp [h, SockOp.decisive] at hc
      obtain ⟨hprelude, hlog'⟩ := h.prelude a op hlog hown
      refine ⟨_, .refused ((h.decisive_eq hown hprivate).trans hc)
        ((h.refusal_eq hown).trans hr), ?_, by simp [hlog']⟩
      rw [h.sock]
      exact (hprelude.note _).setSock (by simp)
  | @bindDone _ d hc hd ha =>
      have hown := hown (by simp)
      refine ⟨_, .bindDone ((h.decisive_eq hown hprivate).trans hc) (h.found hown hd) ha, ?_,
        by simp [hlog]⟩
      rw [h.sock, hfd, h.ownName_eq]
      refine ((h.setDesc fun desc heq => ?_).note _).setSock rfl
      obtain rfl := Option.some.inj heq
      exact hown d hd
  | @closeDone _ d hc hd ha =>
      have hown := hown (by simp)
      refine ⟨_, .closeDone ((h.decisive_eq hown hprivate).trans hc) (h.found hown hd) ha, ?_,
        by simp [hlog]⟩
      rw [h.sock, hfd]
      exact ((h.setDesc (by simp)).note _).setSock rfl
  | @modeDone nonblocking _ d hc hd ha =>
      have hown := hown (by simp)
      have hdesc : v.modeDesc b a i nonblocking d = w.modeDesc b a i nonblocking d := by
        simp only [World.modeDesc, h.setflArg_eq hown]
      obtain ⟨hprelude, hlog'⟩ := h.prelude a (.mode nonblocking) hlog hown
      refine ⟨_, .modeDone ((h.decisive_eq hown hprivate).trans hc) (h.found hown hd) ha, ?_,
        by simp [hlog']⟩
      rw [h.sock, hfd, hdesc]
      refine ((hprelude.setDesc fun desc heq => ?_).note _).setSock (by simp)
      obtain rfl := Option.some.inj heq
      exact (World.modeDesc_owner nonblocking d).trans (hown d hd)
  | @sendDone _ _ _ _ d _ hc hd ha =>
      have hown := hown (by simp)
      exact ⟨_, .sendDone ((h.decisive_eq hown hprivate).trans hc) (h.found hown hd) ha,
        h.note _, by simp [hlog]⟩
  | @recvDone _ _ endpoint _ d _ hc hd ha =>
      have hown := hown (by simp)
      refine ⟨_, .recvDone ((h.decisive_eq hown hprivate).trans hc) (h.found hown hd) ha, ?_,
        by simp [hlog]⟩
      cases endpoint with
      | null => exact h.putPayload.note _
      | ofSock j => exact absurd rfl (hprivate.1 j)
      | addr p => exact h.putPayload.putName.note _

/-! ## What another socket sees of it -/

omit [DecidableEq ι] in
theorem SockOp.Private.keepsEndpoints (h : op.Private regions k) : op.KeepsEndpoints := by
  cases op with
  | recv _ _ endpoint =>
      cases endpoint with
      | ofSock j => exact absurd rfl (h.1 j)
      | null | addr => trivial
  | create | bind | close | mode | send => trivial

/-- Memory that is not the socket's own to write stays. -/
theorem SockEffect.mem_eq (hprivate : op.Private regions k) (he : SockEffect b a k w op r w')
    {x : Nat} (hx : regions x ≠ some k) : w'.mem x = w.mem x := by
  cases he with
  | createRefused | createHalf | createV6 | createOther => rfl
  | refused | modeDone => exact congrFun SockOp.prelude_mem x
  | bindDone | closeDone | sendDone => rfl
  | @recvDone buf bufcount endpoint _ _ dg =>
      obtain ⟨_, hendpoint, hbufs⟩ := hprivate
      have hwrote := World.putName_wrote
        (w.putPayload (iovBufs buf (iovCount b bufcount)) dg.payload) endpoint
        (List.length_take_le slEndpointBytes dg.source)
      have hpayload : (w.putPayload (iovBufs buf (iovCount b bufcount)) dg.payload).mem x =
          w.mem x := by
        refine fill_frame fun s hs hin => hx ?_
        obtain ⟨y, hy, rfl⟩ := List.mem_map.mp hs
        exact hbufs y (mem_of_mem_iovBufs hy) x hin
      refine (hwrote.mem x fun p hp => ?_).trans hpayload
      subst hp
      by_contra hin
      have hhas : Span.Has ⟨p, slEndpointBytes⟩ x := by
        simp only [not_or, Nat.not_lt, Nat.not_le] at hin
        exact hin
      exact hx (hendpoint ⟨p, slEndpointBytes⟩ (List.mem_singleton.mpr rfl) x hhas)

/-- An operation of another socket is not seen. -/
theorem SockEffect.hidden (h : Hides regions i w v) (hk : k ≠ i)
    (hown : (∀ type proto, op ≠ .create type proto) →
      ∀ desc, w.os.fds (w.fd b k) = some desc → desc.owner = some k)
    (hprivate : op.Private regions k) (he : SockEffect b a k w op r w') :
    Hides regions i w' v where
  sock := by rw [he.sock_of_ne hk.symm, he.endpoint_eq hprivate.keepsEndpoints, h.sock]
  endpoints j := by rw [he.endpoint_eq hprivate.keepsEndpoints, h.endpoints]
  mem x hx := by
    have hne : regions x ≠ some k := by
      rintro heq
      rcases hx with hx | hx
      · exact nomatch hx.symm.trans heq
      · exact hk (Option.some.inj (heq.symm.trans hx))
    rw [he.mem_eq hprivate hne, h.mem x hx]
  fds d := by
    have hforeign : ∀ entry : Option (Desc ι), (∀ desc, entry = some desc → desc.owner = some k) →
        entry.filter (Desc.visible i) = none := by
      intro entry hentry
      cases hcase : entry with
      | none => rfl
      | some desc => simp [Option.filter, Desc.visible, hentry desc hcase, hk]
    rw [h.fds]
    cases he.tableStep with
    | same fds => rw [fds]
    | @added _ _ d' desc free owner fds =>
        by_cases hd : d = d'
        · subst hd
          rw [fds, Function.update_self, free, hforeign (some desc) (by simpa using owner)]
          rfl
        · rw [fds, Function.update_of_ne hd]
    | @changed _ desc entry uses opened owner fds =>
        have hdesc : desc.owner = some k := hown uses desc opened
        by_cases hd : d = w.fd b k
        · subst hd
          rw [fds, Function.update_self, opened, hforeign (some desc) (by simpa using hdesc),
            hforeign entry fun desc' h => (owner desc' h).trans hdesc]
        · rw [fds, Function.update_of_ne hd]

/-! ## Calls -/

/-- A created socket uses a descriptor of its own. -/
theorem SockEffect.create_owner {type proto : UInt32}
    (he : SockEffect b a i w (.create type proto) r w') (hr : r = slOk) {desc : Desc ι}
    (hd : w'.os.fds (w'.fd b i) = some desc) : desc.owner = some i := by
  cases he with
  | createRefused | createHalf => exact absurd hr.symm slOk_ne_slErr
  | createV6 hs _ _ =>
      simp [Platform.sockType_of_isDescriptor (Os.onSocket_ok hs).1] at hd
      obtain rfl := hd
      rfl
  | createOther hs _ =>
      simp [Platform.sockType_of_isDescriptor (Os.onSocket_ok hs).1] at hd
      obtain rfl := hd
      rfl
  | refused hc _ => simp [SockOp.decisive] at hc

/-- What keeps the call of a step apart from the other sockets: it does not reach
for a descriptor that is not its own, it shares no endpoint and no buffer with a
socket that writes it, and the descriptor that the system offers is one it can give. -/
structure Apart (regions : Regions ι) (b : Build) (w : World ι) (e : Step ι (Call ι)) : Prop where
  owns : ¬Trespasses b w e
  shares : ∀ op, e.call.op = some op → op.Private regions e.sock
  honest : e.call = .socketOpen →
    ∀ d, e.answers.socket = .ok d → w.os.onSocket b.platform e.answers = .ok d

omit [DecidableEq ι] in
theorem Apart.owner {e : Step ι (Call ι)} (h : Apart regions b w e) (hop : e.call.op = some op)
    (hnull : e.call.hasNull = false) {desc : Desc ι} (hd : w.os.fds (w.fd b e.sock) = some desc) :
    desc.owner = some e.sock := by
  obtain ⟨desc', hd', howner⟩ := owned_of_not_trespasses hop hnull h.owns (by simp [hd])
  obtain rfl := Option.some.inj (hd.symm.trans hd')
  exact howner

theorem Hides.clearLog (h : Hides regions i w v) : Hides regions i w.clearLog v.clearLog :=
  h.congr rfl rfl rfl rfl rfl rfl

/-- The bytes of a step are those of the full process. -/
theorem Hides.wire_eq {e : Step ι (Call ι)} {o : Outcome} (h : Hides regions e.sock w v)
    (hstep : pluginStep b w e = some (o, w')) (hapart : Apart regions b w e) :
    (o.events.map fun ev => ev.call.payload v.mem) =
      o.events.map fun ev => ev.call.payload w.mem := by
  refine List.map_congr_left fun ev hev => ?_
  obtain ⟨he, hlog⟩ := pluginStep_iff.mp hstep
  rw [hlog] at hev
  rcases he.sends rfl hev with hquiet | ⟨buf, bufcount, endpoint, hcall, hpayload⟩
  · cases hc : ev.call with
    | sendmsg fd name namelen iov iovlen => exact absurd hc (hquiet fd name namelen iov iovlen)
    | _ => rfl
  · have hprivate := hapart.shares (.send buf bufcount endpoint) (by rw [hcall]; rfl)
    rw [hpayload, hpayload]
    exact h.gather_eq hprivate.2 _

/-- A step of socket `i` is a step of its own process, with the same outcome and
the same bytes. -/
theorem Hides.keep {e : Step ι (Call ι)} {t : Transcript} (h : Hides regions e.sock w v)
    (hstep : wireStep b w e = some (t, w')) (hapart : Apart regions b w e) :
    ∃ v', wireStep b v e = some (t, v') ∧ Hides regions e.sock w' v' := by
  obtain ⟨hstep, hwire⟩ := wireStep_iff.mp hstep
  rw [← h.wire_eq hstep hapart] at hwire
  suffices ∃ v', pluginStep b v e = some (t.outcome, v') ∧ Hides regions e.sock w' v' by
    obtain ⟨v', hv, hhides⟩ := this
    exact ⟨v', wireStep_iff.mpr ⟨hv, hwire⟩, hhides⟩
  obtain ⟨i, call, a⟩ := e
  obtain ⟨⟨ret, events⟩, _⟩ := t
  obtain ⟨he, hlog⟩ := pluginStep_iff.mp hstep
  have hready : ∀ {op : SockOp ι} {w v : World ι}, Hides regions i w v →
      op.Ready b (w.socks i) → op.Ready b (v.socks i) := fun h hready => h.sock ▸ hready
  suffices ∃ v', CallEffect b a i v.clearLog call ret v' ∧ Hides regions i w' v' ∧
      v'.os.log = w'.os.log by
    obtain ⟨v', hv, hhides, hlogs⟩ := this
    exact ⟨v', pluginStep_iff.mpr ⟨hv, hlog.trans hlogs.symm⟩, hhides⟩
  have h₀ := h.clearLog
  cases he with
  | guarded hnull => exact ⟨_, .guarded hnull, h₀, rfl⟩
  | notCreated hr hc hret =>
      obtain ⟨v', hv, hhides, hlogs⟩ := hc.independent h₀ rfl (fun huses => absurd rfl (huses _ _))
        (fun _ => hapart.honest rfl) trivial
      exact ⟨v', .notCreated (hready h₀ hr) hv hret, hhides, hlogs⟩
  | created hr hc hret hb =>
      obtain ⟨v₁, hv₁, h₁, hlog₁⟩ := hc.independent h₀ rfl (fun huses => absurd rfl (huses _ _))
        (fun _ => hapart.honest rfl) trivial
      obtain ⟨v', hv, hhides, hlogs⟩ := hb.independent h₁ hlog₁
        (fun _ desc hd => hc.create_owner hret hd) (fun ⟨_, _, h⟩ => nomatch h)
        (show SockOp.Private regions i .bind from trivial)
      exact ⟨v', .created (hready h₀ hr) hv₁ hret hv, hhides, hlogs⟩
  | op hop hnull hr he =>
      obtain ⟨v', hv, hhides, hlogs⟩ := he.independent h₀ rfl
        (fun _ desc hd => hapart.owner hop hnull hd)
        (fun ⟨_, _, h⟩ => absurd h ((Call.op_ne hop).2 _ _)) (hapart.shares _ hop)
      exact ⟨v', .op hop hnull (hready h₀ hr) hv, hhides, hlogs⟩

/-- A step of another socket is not seen. -/
theorem Hides.drop {e : Step ι (Call ι)} {t : Transcript} (h : Hides regions i w v)
    (hi : e.sock ≠ i) (hstep : wireStep b w e = some (t, w')) (hapart : Apart regions b w e) :
    Hides regions i w' v := by
  obtain ⟨k, call, a⟩ := e
  obtain ⟨⟨ret, events⟩, _⟩ := t
  have h₀ : Hides regions i w.clearLog v := h.congr rfl rfl rfl rfl rfl rfl
  cases (pluginStep_iff.mp (wireStep_iff.mp hstep).1).1 with
  | guarded _ => exact h₀
  | notCreated _ hc _ => exact hc.hidden h₀ hi (fun huses => absurd rfl (huses _ _)) trivial
  | created _ hc hret hb =>
      exact hb.hidden (hc.hidden h₀ hi (fun huses => absurd rfl (huses _ _)) trivial) hi
        (fun _ desc hd => hc.create_owner hret hd)
        (show SockOp.Private regions k .bind from trivial)
  | op hop hnull _ he =>
      exact he.hidden h₀ hi (fun _ desc hd => hapart.owner hop hnull hd) (hapart.shares _ hop)

end Hides

/-! ## Sessions -/

/-- The steps of socket `i`. -/
def ofSock (i : ι) (e : Step ι (Call ι)) : Bool := e.sock = i

section Sessions

variable {regions : Regions ι} {b : Build} {w v : World ι} {endpoint : ι → SlEndpoint}
  {steps : List (Step ι (Call ι))} {transcripts : List Transcript}

/-- Before the first call there is nothing to hide. -/
theorem Hides.start (regions : Regions ι) (i : ι) (w : World ι) (endpoint : ι → SlEndpoint) :
    Hides regions i (w.start endpoint) (w.start endpoint) where
  sock := rfl
  endpoints _ := rfl
  mem _ _ := rfl
  fds d := by
    cases hd : w.os.fds d with
    | none => simp [World.start, hd]
    | some desc => simp [World.start, hd, Option.filter, Desc.visible, Desc.disown]

/-- The steps of one socket are a session. -/
theorem exists_alone (hapart : Along (wireStep b) (fun w e _ _ => Apart regions b w e)
      (w.start endpoint) steps)
    (hrun : exec (wireStep b) (w.start endpoint) steps = some (transcripts, v)) (i : ι) :
    ∃ v', exec (wireStep b) (w.start endpoint) (steps.filter (ofSock i)) =
        some (answersOf (ofSock i) steps transcripts, v') ∧ Hides regions i v v' := by
  refine exec_project (fun s t e r s' hR hs hC hk => ?_) (fun s t e r s' hR hs hC hk => ?_)
    (Hides.start regions i w endpoint) hapart hrun
  · obtain rfl : e.sock = i := by simpa [ofSock] using hk
    exact hR.keep hs hC
  · exact hR.drop (by simpa [ofSock] using hk) hs hC

/-- Socket `i`, its descriptors and the memory that it alone writes are the
same. -/
structure SameFor (regions : Regions ι) (i : ι) (w v : World ι) : Prop where
  sock : v.socks i = w.socks i
  descs : ∀ d desc, desc.owner = some i → (v.os.fds d = some desc ↔ w.os.fds d = some desc)
  mem : ∀ x, regions x = some i → v.mem x = w.mem x

theorem Hides.sameFor {i : ι} {w v : World ι} (h : Hides regions i w v) :
    SameFor regions i w v where
  sock := h.sock
  descs d desc howner := by
    rw [h.fds, Option.filter_eq_some_iff]
    exact and_iff_left (by simp [Desc.visible, howner])
  mem x hx := h.mem x (Or.inr hx)

omit [DecidableEq ι] in
theorem SameFor.trans {i : ι} {u w v : World ι} (h : SameFor regions i u w)
    (h' : SameFor regions i w v) : SameFor regions i u v where
  sock := h'.sock.trans h.sock
  descs d desc howner := (h'.descs d desc howner).trans (h.descs d desc howner)
  mem x hx := (h'.mem x hx).trans (h.mem x hx)

omit [DecidableEq ι] in
theorem SameFor.symm {i : ι} {w v : World ι} (h : SameFor regions i w v) :
    SameFor regions i v w where
  sock := h.sock.symm
  descs d desc howner := (h.descs d desc howner).symm
  mem x hx := (h.mem x hx).symm

/-! ### Two sockets taking turns -/

/-- Below address 64 memory is shared and only read; from there to 127 it is the
first socket's, then the second's. -/
def turnRegions : Regions Bool := fun x => if x < 64 then none else some (decide (x < 128))

/-- One socket opens and receives into its memory. -/
def listener : List (Step Bool (Call Bool)) :=
  [⟨true, .socketOpen, Answers.granting 3⟩,
    ⟨true, .socketRecv (some [⟨64, 16⟩]) 1 (.addr 96),
      { Answers.granting 3 with recvmsg := .ok .loopback }⟩]

/-- The other opens, sends two bytes of its memory to the first and closes. -/
def talker : List (Step Bool (Call Bool)) :=
  [⟨false, .socketOpen, Answers.granting 4⟩,
    ⟨false, .socketSend (some [⟨128, 2⟩]) 1 (.ofSock true), Answers.taking 4 2⟩,
    ⟨false, .socketClose, Answers.granting 4⟩]

/-- An open is kept apart if the descriptor it is offered is free. -/
theorem apart_open {w : World Bool} {i : Bool} {d : Int64}
    (h : w.os.onSocket .posix (Answers.granting d) = .ok d) :
    Apart turnRegions ⟨true, .posix⟩ w ⟨i, .socketOpen, Answers.granting d⟩ where
  owns := not_trespasses_open rfl
  shares _ hop := nomatch hop
  honest _ d' hd' := by
    obtain rfl := Except.ok.inj hd'
    exact h

/-- Another call is, if its descriptor and its endpoint are its own. -/
theorem apart_call {w : World Bool} {e : Step Bool (Call Bool)} (hcall : e.call ≠ .socketOpen)
    (hown : w.os.Owns e.sock (w.fd ⟨true, .posix⟩ e.sock))
    (hshares : ∀ op, e.call.op = some op → op.Private turnRegions e.sock) :
    Apart turnRegions ⟨true, .posix⟩ w e where
  owns := not_trespasses_of_owns hown
  shares := hshares
  honest hopen := absurd hopen hcall

theorem turnRegions_first {x : Nat} (hmin : 64 ≤ x) (hmax : x < 128) :
    turnRegions x = some true := by
  simp [turnRegions, Nat.not_lt.mpr hmin, hmax]

theorem turnRegions_second {x : Nat} (hmin : 128 ≤ x) : turnRegions x = some false := by
  have h64 : ¬x < 64 := by omega
  simp [turnRegions, h64, Nat.not_lt.mpr hmin]

theorem listener_private : ∀ op, (.socketRecv (some [⟨64, 16⟩]) 1 (.addr 96) : Call Bool).op =
    some op → op.Private turnRegions true := by
  rintro op hop
  obtain rfl := Option.some.inj hop
  refine ⟨fun j h => (nomatch h), fun s hs x hx => ?_, fun buf hbuf x hx => ?_⟩
  · obtain rfl := List.mem_singleton.mp hs
    have hx : 96 ≤ x ∧ x < 124 := hx
    exact turnRegions_first (by omega) (by omega)
  · obtain rfl := List.mem_singleton.mp hbuf
    have hx : 64 ≤ x ∧ x < 80 := hx
    exact turnRegions_first hx.1 (by omega)

theorem talker_private : ∀ op, (.socketSend (some [⟨128, 2⟩]) 1 (.ofSock true) : Call Bool).op =
    some op → op.Private turnRegions false := by
  rintro op hop
  obtain rfl := Option.some.inj hop
  refine ⟨fun s hs => (nomatch hs), fun buf hbuf x hx => ?_⟩
  obtain rfl := List.mem_singleton.mp hbuf
  exact Or.inr (turnRegions_second hx.1)

theorem close_private : ∀ op, (.socketClose : Call Bool).op = some op →
    op.Private turnRegions false := by
  rintro op hop
  obtain rfl := Option.some.inj hop
  trivial

/-- The listener first. -/
theorem listener_talker_apart :
    Along (wireStep ⟨true, .posix⟩) (fun w e _ _ => Apart turnRegions ⟨true, .posix⟩ w e)
      (World.pair.start fun _ => anyEndpoint 2) (listener ++ talker) := by
  refine (along_cons_iff rfl).mpr ⟨apart_open rfl, ?_⟩
  refine (along_cons_iff rfl).mpr ⟨apart_call (fun h => nomatch h) ⟨_, rfl, rfl⟩
    listener_private, ?_⟩
  refine (along_cons_iff rfl).mpr ⟨apart_open rfl, ?_⟩
  refine (along_cons_iff rfl).mpr ⟨apart_call (fun h => nomatch h) ⟨_, rfl, rfl⟩
    talker_private, ?_⟩
  exact (along_cons_iff rfl).mpr ⟨apart_call (fun h => nomatch h) ⟨_, rfl, rfl⟩ close_private,
    trivial⟩

/-- The talker first. -/
theorem talker_listener_apart :
    Along (wireStep ⟨true, .posix⟩) (fun w e _ _ => Apart turnRegions ⟨true, .posix⟩ w e)
      (World.pair.start fun _ => anyEndpoint 2) (talker ++ listener) := by
  refine (along_cons_iff rfl).mpr ⟨apart_open rfl, ?_⟩
  refine (along_cons_iff rfl).mpr ⟨apart_call (fun h => nomatch h) ⟨_, rfl, rfl⟩
    talker_private, ?_⟩
  refine (along_cons_iff rfl).mpr ⟨apart_call (fun h => nomatch h) ⟨_, rfl, rfl⟩
    close_private, ?_⟩
  refine (along_cons_iff rfl).mpr ⟨apart_open rfl, ?_⟩
  exact (along_cons_iff rfl).mpr ⟨apart_call (fun h => nomatch h) ⟨_, rfl, rfl⟩
    listener_private, trivial⟩

/-! ### The theorems -/

/--
**Independence.**  For any number of sockets, any interleaving of their calls,
any answers and any build: in a session whose calls are kept apart, the calls of
one socket are a session of their own, in which each returns what it returned,
makes the system calls it made and passes the bytes it passed, and which leaves
the socket, its descriptors and its memory as the whole session left them.
-/
theorem independence (hapart : Along (wireStep b) (fun w e _ _ => Apart regions b w e)
      (w.start endpoint) steps)
    (hrun : exec (wireStep b) (w.start endpoint) steps = some (transcripts, v)) (i : ι) :
    ∃ v', exec (wireStep b) (w.start endpoint) (steps.filter (ofSock i)) =
        some (answersOf (ofSock i) steps transcripts, v') ∧ SameFor regions i v v' := by
  obtain ⟨v', halone, hhides⟩ := exists_alone hapart hrun i
  exact ⟨v', halone, hhides.sameFor⟩

/-- The theorem at the listener, who does not notice the talker. -/
theorem independence_listener :
    ∃ transcripts v, exec (wireStep ⟨true, .posix⟩) (World.pair.start fun _ => anyEndpoint 2)
        (listener ++ talker) = some (transcripts, v) ∧
      ∃ v', exec (wireStep ⟨true, .posix⟩) (World.pair.start fun _ => anyEndpoint 2)
          ((listener ++ talker).filter (ofSock true)) =
            some (answersOf (ofSock true) (listener ++ talker) transcripts, v') ∧
        SameFor turnRegions true v v' :=
  ⟨_, _, rfl, independence listener_talker_apart rfl true⟩

/--
**Schedules.**  Two sessions that are kept apart and in which every socket makes
the same calls in the same order, however the sockets take turns: every call has
the same outcome and passes the same bytes in both, and both leave every socket,
its descriptors and its memory the same.
-/
theorem schedule_independence {steps' : List (Step ι (Call ι))} {transcripts' : List Transcript}
    {v' : World ι}
    (hapart : Along (wireStep b) (fun w e _ _ => Apart regions b w e) (w.start endpoint) steps)
    (hapart' : Along (wireStep b) (fun w e _ _ => Apart regions b w e)
      (w.start endpoint) steps')
    (hrun : exec (wireStep b) (w.start endpoint) steps = some (transcripts, v))
    (hrun' : exec (wireStep b) (w.start endpoint) steps' = some (transcripts', v'))
    (hsame : ∀ i, steps.filter (ofSock i) = steps'.filter (ofSock i)) (i : ι) :
    answersOf (ofSock i) steps transcripts = answersOf (ofSock i) steps' transcripts' ∧
      SameFor regions i v v' := by
  obtain ⟨u, halone, hhides⟩ := exists_alone hapart hrun i
  obtain ⟨u', halone', hhides'⟩ := exists_alone hapart' hrun' i
  rw [hsame i, halone'] at halone
  obtain ⟨hanswers, rfl⟩ := Prod.mk.inj (Option.some.inj halone)
  exact ⟨hanswers.symm, hhides.sameFor.trans hhides'.sameFor.symm⟩

/-- The theorem at the two orders. -/
theorem schedule_independence_turns :
    ∃ transcripts v transcripts' v',
      exec (wireStep ⟨true, .posix⟩) (World.pair.start fun _ => anyEndpoint 2)
        (listener ++ talker) = some (transcripts, v) ∧
      exec (wireStep ⟨true, .posix⟩) (World.pair.start fun _ => anyEndpoint 2)
        (talker ++ listener) = some (transcripts', v') ∧
      ∀ i, answersOf (ofSock i) (listener ++ talker) transcripts =
          answersOf (ofSock i) (talker ++ listener) transcripts' ∧
        SameFor turnRegions i v v' :=
  ⟨_, _, _, _, rfl, rfl, schedule_independence listener_talker_apart talker_listener_apart rfl rfl
    fun i => by cases i <;> rfl⟩

end Sessions

end SockLynx
