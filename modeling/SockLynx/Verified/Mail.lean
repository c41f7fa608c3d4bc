import SockLynx.Verified.Boundary
import SockLynx.Verified.Refinement
import SockLynx.Verified.Truncation
import SockLynx.Verified.Wire

/-!
# Letters between sockets

What the library is for: a caller hands a socket some buffers and the endpoint
of another socket, and the other socket's caller is handed the bytes and the
endpoint they came from.

The network sees less: the name a descriptor was bound to, and an address and
bytes from `sendmsg`.  It may lose, repeat and reorder what it took.  `netStep`
runs calls against such a network and writes down the letters the callers meant;
the memory of the caller may change in between in any way.

A socket need not be reached at the name it is bound to: with a wildcard host or
port 0 the kernel chooses the address, an IPv4 socket is reached from an IPv6 one
at a mapped address, and padding does not count.  `Reach` leaves this to the
kernel.  What is assumed is that the sockets are handed nothing but what sockets
have sent to an address at which they are reached.

## Main results

* `pluginStep_posts` — a call puts on the network the letter its caller meant,
  or nothing.
* `delivery` — a successful receive delivers the front of a letter that was sent
  to an address of this socket, and stores an endpoint that leads back to an
  address of its sender.
-/

namespace SockLynx

open SockLynx.Lib.Blocks
open SockLynx.Lib.Runs
open SockLynx.Lib.Spans
open SockLynx.Lib.Words

variable {ι : Type} [DecidableEq ι]

/-! ## Letters and datagrams -/

/-- What a caller means by a send. -/
structure Letter (ι : Type) where
  sender : ι
  recipient : SlEndpoint
  body : List UInt8

/-- What the network has taken: the socket whose descriptor it came through, the
name of the descriptor, the address it is meant for and the bytes. -/
structure Flight (ι : Type) where
  sender : ι
  source : Name
  dest : Name
  payload : List UInt8

/-- The letter of a successful send. -/
def Step.letter (w : World ι) (e : Step ι (Call ι)) (o : Outcome) : Option (Letter ι) :=
  match e.call with
  | .socketSend buf bufcount endpoint =>
      if o.ret = slErr then none
      else (w.endpointAt endpoint).map fun recipient =>
        ⟨e.sock, recipient,
          gather w.mem (((buf.getD []).take bufcount.toInt.toNat).map SlBuf.span)⟩
  | _ => none

/-- The datagram the network takes at a system call. -/
def Event.flight (w : World ι) (ev : Event) : Option (Flight ι) :=
  match ev.call, ev.result with
  | .sendmsg fd name namelen _ _, .ok _ => do
      let desc ← w.os.fds fd
      let sender ← desc.owner
      let source ← desc.binds.getLast?
      return ⟨sender, source, (name, namelen), ev.call.payload w.mem⟩
  | _, _ => none

/-- The letter as it should be on the network. -/
def Letter.posted (p : Platform) (endpoint : ι → SlEndpoint) (l : Letter ι) : Flight ι :=
  ⟨l.sender, (endpoint l.sender).sockaddr p, l.recipient.sockaddr p, l.body⟩

/-! ## The network -/

/-- The process, what the network has taken, and what the callers meant. -/
structure Net (ι : Type) where
  world : World ι
  flights : List (Flight ι)
  letters : List (Letter ι)

/-- A call, or the caller at work in its memory. -/
inductive Turn (ι : Type)
  | call (e : Step ι (Call ι))
  | store (mem : Mem)

/-- One turn.  Nothing that the network has taken is taken off it. -/
def netStep (b : Build) (s : Net ι) : Turn ι → Option (Option Outcome × Net ι)
  | .store mem => some (none, { s with world := { s.world with mem := mem } })
  | .call e =>
      match pluginStep b s.world e with
      | none => none
      | some (o, w') => some (some o,
          { world := w'
            flights := s.flights ++ o.events.filterMap (Event.flight s.world)
            letters := s.letters ++ (e.letter s.world o).toList })

/-- Where sockets are reached: `reach i name addr` says that socket `i`, bound to
`name`, is sent to and heard from at the address `addr`. -/
abbrev Reach (ι : Type) := ι → Name → Name → Prop

/-- The network hands a receive a datagram that it has taken for an address of the
socket, as one from an address of its sender. -/
def Carries (b : Build) (reach : Reach ι) (s : Net ι) (e : Step ι (Call ι)) : Prop :=
  ∀ buf bufcount endpoint desc i name dg, e.call = .socketRecv buf bufcount endpoint →
    s.world.os.fds (s.world.fd b e.sock) = some desc → desc.owner = some i →
    desc.binds.getLast? = some name → e.answers.recvmsg = .ok dg →
    ∃ f ∈ s.flights, reach i name f.dest ∧
      reach f.sender f.source (dg.source, UInt32.ofNat dg.source.length) ∧
      f.payload = dg.payload

/-- The call is proper, no receive overwrites the endpoint of a socket, and the
network carries what it hands out. -/
structure Orderly (b : Build) (reach : Reach ι) (s : Net ι) (e : Step ι (Call ι)) : Prop where
  proper : Proper b s.world e
  keeps : ∀ op, e.call.op = some op → op.KeepsEndpoints
  carries : Carries b reach s e

/-- The turn is orderly, if it is a call. -/
def Turn.Orderly (b : Build) (reach : Reach ι) (s : Net ι) : Turn ι → Prop
  | .call e => SockLynx.Orderly b reach s e
  | .store _ => True

/-- A letter has arrived at socket `i`: it was sent to an address of the socket,
the endpoint leads back to an address of its sender, and the front of it is in the
buffers, as much as they hold; in memory as well, where buffers and endpoint do
not overlap. -/
structure Arrived (p : Platform) (reach : Reach ι) (endpoint : ι → SlEndpoint) (i : ι)
    (ptr : EndpointPtr ι) (origin : SlEndpoint) (bufs : List SlBuf) (o : Outcome)
    (w' : World ι) (l : Letter ι) : Prop where
  addressed : reach i ((endpoint i).sockaddr p) (l.recipient.sockaddr p)
  signed : reach l.sender ((endpoint l.sender).sockaddr p) (origin.sockaddr p)
  count : o.ret.toInt = min l.body.length (capacity bufs)
  body : w'.received.flatten = l.body.take (capacity bufs)
  stored : (ptr.spans ++ bufs.map SlBuf.span).Pairwise Span.Apart →
    (gather w'.mem (bufs.map SlBuf.span)).take l.body.length = l.body.take (capacity bufs)

/-- What is received was sent. -/
def Delivers (b : Build) (reach : Reach ι) (endpoint : ι → SlEndpoint) (s : Net ι)
    (e : Step ι (Call ι)) (o : Outcome) (w' : World ι) : Prop :=
  ∀ buf bufcount ptr, e.call = .socketRecv buf bufcount ptr → o.ret ≠ slErr →
    ∃ l ∈ s.letters, ∃ origin, w'.endpointAt ptr = some origin ∧
      Arrived b.platform reach endpoint e.sock ptr origin
        (iovBufs buf (iovCount b bufcount)) o w' l

/-! ## Names of sockets -/

section Names

variable {b : Build} {a : Answers} {i : ι} {w w' : World ι} {r : Int32}

/-- The name a call shows is that of its own socket. -/
theorem CallEffect.bound_name {call : Call ι} {name : Name} (hlog : w.os.log = [])
    (h : CallEffect b a i w call r w') (hact : call.act ⟨r, w'.os.log⟩ = some (.bound name)) :
    name = (w.socks i).endpoint.sockaddr b.platform := by
  cases hop : call.op with
  | some op =>
      rw [Call.act, hop] at hact
      cases op <;> simp [SockOp.act] at hact
  | none =>
      rw [Call.act, hop] at hact
      obtain ⟨ev, hev, hopening⟩ := Option.bind_eq_some_iff.mp hact
      have hcases := h.events hlog (List.mem_of_getLast? hev)
      obtain ⟨call', result⟩ := ev
      rcases hcases with hquiet | ⟨_, fd, hbind⟩ | ⟨op, hop', _⟩
      · cases call' <;> first | exact absurd hquiet id | simp [Event.opening] at hopening
      · obtain rfl : call' = _ := hbind
        cases result with
        | error e => simp [Event.opening] at hopening
        | ok v => simpa [Event.opening] using hopening.symm
      · simp [hop] at hop'

end Names

/-! ## The phases of the sockets -/

/-- The sockets keep their endpoints, and an open socket that has a name has
that of its endpoint. -/
structure Settled (b : Build) (endpoint : ι → SlEndpoint) (w : World ι) : Prop where
  endpoints : ∀ j, (w.socks j).endpoint = endpoint j
  phases : ∃ t : ι → Spec.Phase Name, (∀ j, Represents b w j (t j)) ∧
    ∀ j name m, t j = .opened (some name) m → name = (endpoint j).sockaddr b.platform

section Phases

variable {b : Build} {endpoint : ι → SlEndpoint} {i : ι} {w w' : World ι}
  {e : Step ι (Call ι)} {o : Outcome}

omit [DecidableEq ι] in
theorem Settled.start (b : Build) (w : World ι) (endpoint : ι → SlEndpoint) :
    Settled b endpoint (w.start endpoint) :=
  ⟨fun _ => rfl, fun _ => .idle, fun j => .start b w endpoint j, by simp⟩

omit [DecidableEq ι] in
theorem Settled.store (h : Settled b endpoint w) (mem : Mem) :
    Settled b endpoint { w with mem := mem } := by
  obtain ⟨hendpoints, t, ht, hname⟩ := h
  exact ⟨hendpoints, t, fun j => (ht j).of_same rfl rfl rfl rfl, hname⟩

omit [DecidableEq ι] in
/-- A BOUND socket has the name of its endpoint. -/
theorem Settled.bound (h : Settled b endpoint w)
    (hstate : (w.socks i).state = SlSockState.bound.val) :
    ∃ desc, w.os.fds (w.fd b i) = some desc ∧ desc.owner = some i ∧
      desc.binds = [(endpoint i).sockaddr b.platform] := by
  obtain ⟨_, t, ht, hname⟩ := h
  obtain ⟨name, m, hphase⟩ := (ht i).name_of_bound hstate
  have hi := ht i
  rw [hphase] at hi
  cases hi with
  | @opened desc _ _ on =>
      refine ⟨desc, on.found, on.owner, ?_⟩
      rw [on.binds, hname i name m hphase]
      rfl

/-- A proper call that keeps the endpoints keeps the names. -/
theorem Settled.step (hb : b.asserts = true) (hI : Settled b endpoint w)
    (h : pluginStep b w e = some (o, w')) (hproper : Proper b w e)
    (hkeeps : ∀ op, e.call.op = some op → op.KeepsEndpoints) : Settled b endpoint w' := by
  obtain ⟨hendpoints, t, ht, hname⟩ := hI
  obtain ⟨he, hlog⟩ := pluginStep_iff.mp h
  obtain ⟨ret, events⟩ := o
  obtain rfl : events = w'.os.log := hlog
  obtain ⟨s', hfollows, ht'⟩ := pluginStep_represents hb ht h hproper
  refine ⟨fun j => (he.endpoint_eq hkeeps j).trans (hendpoints j), _, ht', fun j name m hj => ?_⟩
  by_cases hne : j = e.sock
  · subst hne
    rw [Function.update_self] at hj
    subst hj
    cases hact : e.call.act ⟨ret, w'.os.log⟩ with
    | none =>
        rw [hact] at hfollows
        exact hname _ name m hfollows.symm
    | some x =>
        rw [hact] at hfollows
        generalize hphase : t e.sock = s at hfollows
        cases hfollows with
        | bound name =>
            rw [he.bound_name rfl hact]
            exact congrArg (SlEndpoint.sockaddr b.platform) (hendpoints e.sock)
        | switched _ m' _ => exact hname _ name m' hphase
        | transferred _ _ => exact hname _ name m hphase
  · rw [Function.update_of_ne hne] at hj
    exact hname j name m hj

end Phases

/-! ## Sending -/

section Sending

variable {b : Build} {endpoint : ι → SlEndpoint} {w w' : World ι} {e : Step ι (Call ι)}
  {o : Outcome} {ptr : EndpointPtr ι} {ep : SlEndpoint}

omit [DecidableEq ι] in
/-- The kernel is given the address in the endpoint, and its length. -/
theorem World.name_eq (h : w.endpointAt ptr = some ep) :
    (w.nameAt ptr (w.nameLen b ptr), w.nameLen b ptr) = ep.sockaddr b.platform := by
  simp [World.nameAt, World.nameLen, h, SlEndpoint.sockaddr]

omit [DecidableEq ι] in
/-- The network takes nothing at another system call. -/
theorem Event.flight_eq_none {ev : Event}
    (h : ∀ fd name namelen iov iovlen, ev.call ≠ .sendmsg fd name namelen iov iovlen) :
    ev.flight w = none := by
  obtain ⟨call, result⟩ := ev
  cases call with
  | sendmsg fd name namelen iov iovlen => exact absurd rfl (h fd name namelen iov iovlen)
  | _ => rfl

/-- Another call than a send puts nothing on the network. -/
theorem CallEffect.no_flight {call : Call ι} {a : Answers} {i : ι} {r : Int32}
    (hlog : w.os.log = []) (h : CallEffect b a i w call r w')
    (hcall : ∀ buf bufcount ptr, call ≠ .socketSend buf bufcount ptr) (v : World ι) :
    w'.os.log.filterMap (Event.flight v) = [] := by
  refine List.filterMap_eq_nil_iff.mpr fun ev hev => Event.flight_eq_none ?_
  refine (h.sends hlog hev).resolve_right ?_
  rintro ⟨buf, bufcount, ptr, heq, _⟩
  exact hcall buf bufcount ptr heq

/-- A send puts its letter on the network, if it succeeds. -/
theorem CallEffect.posts {a : Answers} {i : ι} {r : Int32} {buf : Option (List SlBuf)} {n : Int32}
    (hb : b.asserts = true) (hI : Settled b endpoint w)
    (h : CallEffect b a i w.clearLog (.socketSend buf n ptr) r w') :
    w'.os.log.filterMap (Event.flight w) =
      ((Step.letter w ⟨i, .socketSend buf n ptr, a⟩ ⟨r, w'.os.log⟩).map
        (Letter.posted b.platform endpoint)).toList := by
  cases h with
  | guarded _ => simp [Step.letter, World.clearLog]
  | op hop hnull hready he =>
      obtain rfl := Option.some.inj hop
      obtain ⟨hne, hassert⟩ := hready
      obtain ⟨recipient, hrecipient⟩ := endpointAt_of_nonNull (w := w) hne
      cases he with
      | refused hc _ => simp [Step.letter, Event.flight, SockOp.prelude, World.clearLog]
      | @sendDone _ _ _ _ d m hc hd _ =>
          obtain rfl := Option.some.inj hc
          obtain ⟨desc, hdesc, howner, hbinds⟩ := hI.bound (hassert hb).2.2
          have hpos : 0 < n.toInt := Int32.lt_iff_toInt_lt.mp (hassert hb).2.1
          have hiov : iovBufs buf (iovCount b n) = (buf.getD []).take n.toInt.toNat :=
            iovBufs_of_nonneg b (by omega)
          have hletter : ∀ events, Step.letter w ⟨i, .socketSend buf n ptr, a⟩
              ⟨(Int64.ofNat m).toInt32, events⟩ =
                some ⟨i, recipient,
                  gather w.mem (((buf.getD []).take n.toInt.toNat).map SlBuf.span)⟩ := by
            intro events
            simp only [Step.letter, if_neg (transferred_ne_slErr m.isLt), hrecipient,
              Option.map_some]
          have hflight : Event.flight w ⟨.sendmsg (w.fd b i) (w.nameAt ptr (w.nameLen b ptr))
              (w.nameLen b ptr) buf (iovCount b n), .ok (Int64.ofNat m)⟩ =
                some ⟨i, (endpoint i).sockaddr b.platform, recipient.sockaddr b.platform,
                  gather w.mem (((buf.getD []).take n.toInt.toNat).map SlBuf.span)⟩ := by
            rw [← World.name_eq hrecipient, ← hiov]
            simp [Event.flight, hdesc, howner, hbinds, Syscall.payload]
          rw [hletter]
          exact List.filterMap_cons_some hflight

/--
**Posting.**  A call puts on the network the letter its caller meant, under the
names of its own socket and of the endpoint, with all the bytes of the buffers,
or nothing where there is no letter.
-/
theorem pluginStep_posts (hb : b.asserts = true) (hI : Settled b endpoint w)
    (h : pluginStep b w e = some (o, w')) :
    o.events.filterMap (Event.flight w) =
      ((e.letter w o).map (Letter.posted b.platform endpoint)).toList := by
  obtain ⟨he, hlog⟩ := pluginStep_iff.mp h
  obtain ⟨ret, events⟩ := o
  obtain rfl : events = w'.os.log := hlog
  obtain ⟨i, call, a⟩ := e
  by_cases hsend : ∃ buf bufcount ptr, call = .socketSend buf bufcount ptr
  · obtain ⟨buf, n, ptr, rfl⟩ := hsend
    exact he.posts hb hI
  · have hcall : ∀ buf bufcount ptr, call ≠ .socketSend buf bufcount ptr :=
      fun buf bufcount ptr heq => hsend ⟨buf, bufcount, ptr, heq⟩
    rw [he.no_flight rfl hcall]
    cases call with
    | socketSend buf bufcount ptr => exact absurd rfl (hcall buf bufcount ptr)
    | socketOpen | socketClose | socketNonblocking | socketRecv => rfl

end Sending

/-! ## Receiving -/

section Receiving

variable {b : Build} {reach : Reach ι} {endpoint : ι → SlEndpoint} {s s' : Net ι} {w' : World ι}
  {e : Step ι (Call ι)} {o : Outcome} {turn : Turn ι} {r : Option Outcome}

/-- The source address does not lie over the payload. -/
theorem World.gather_putName {w : World ι} {ptr : EndpointPtr ι} {spans : List Span}
    {bs : List UInt8} (hbs : bs.length ≤ slEndpointBytes)
    (h : ∀ s ∈ ptr.spans, ∀ t ∈ spans, s.Apart t) :
    gather (w.putName ptr bs).mem spans = gather w.mem spans := by
  refine gather_congr fun t ht x hx => (World.putName_wrote w ptr hbs).mem x fun q hq => ?_
  subst hq
  by_contra hin
  have hhas : Span.Has ⟨q, slEndpointBytes⟩ x := by
    simp only [not_or, Nat.not_lt, Nat.not_le] at hin
    exact hin
  exact h ⟨q, slEndpointBytes⟩ (List.mem_singleton.mpr rfl) t ht x hhas hx

/-- What a receive stores is found in buffers that do not overlap. -/
theorem World.gather_received {w : World ι} {ptr : EndpointPtr ι} {bufs : List SlBuf}
    {payload bs : List UInt8} {ev : Event} (hbs : bs.length ≤ slEndpointBytes)
    (h : (ptr.spans ++ bufs.map SlBuf.span).Pairwise Span.Apart) :
    (gather (((w.putPayload bufs payload).putName ptr bs).note ev).mem
        (bufs.map SlBuf.span)).take payload.length = payload.take (capacity bufs) := by
  obtain ⟨_, hbufs, hcross⟩ := List.pairwise_append.mp h
  rw [World.note_mem, World.gather_putName hbs hcross, World.putPayload_mem, ← total_span]
  exact gather_fill hbufs w.mem payload

/-- What a successful receive returns and stores. -/
theorem CallEffect.receives {a : Answers} {i : ι} {w : World ι} {r : Int32}
    {buf : Option (List SlBuf)} {n : Int32} {ptr : EndpointPtr ι} (hb : b.asserts = true)
    (h : CallEffect b a i w (.socketRecv buf n ptr) r w') (hr : r ≠ slErr) :
    (w.socks i).state = SlSockState.bound.val ∧ ∃ dg, ∃ origin : SlEndpoint,
      a.recvmsg = .ok dg ∧
      w'.endpointAt ptr = some (origin.put (dg.source.take slEndpointBytes)) ∧
      r.toInt = min dg.payload.length (capacity (iovBufs buf (iovCount b n))) ∧
      w'.received.flatten = dg.payload.take (capacity (iovBufs buf (iovCount b n))) ∧
      ((ptr.spans ++ (iovBufs buf (iovCount b n)).map SlBuf.span).Pairwise Span.Apart →
        (gather w'.mem ((iovBufs buf (iovCount b n)).map SlBuf.span)).take dg.payload.length =
          dg.payload.take (capacity (iovBufs buf (iovCount b n)))) := by
  cases h with
  | guarded _ => exact absurd rfl hr
  | op hop hnull hready he =>
      obtain rfl := Option.some.inj hop
      obtain ⟨_, _, hne, hstate⟩ := hready hb
      cases he with
      | refused _ _ => exact absurd rfl hr
      | @recvDone _ _ _ _ _ dg _ _ ha =>
          let bufs := iovBufs buf (iovCount b n)
          obtain ⟨origin, hptr⟩ := endpointAt_of_nonNull (w := w.putPayload bufs dg.payload) hne
          have hlt := Nat.lt_of_le_of_lt (Nat.min_le_left dg.payload.length (capacity bufs))
            dg.payload_lt
          have hcount := Int32.toInt_ofNat_of_lt hlt
          rw [← Int64.toInt32_ofNat'] at hcount
          refine ⟨hstate, dg, origin, recvAnswer_ok ha, World.endpointAt_putName hptr _, hcount,
            ?_, World.gather_received (List.length_take_le ..)⟩
          simpa using scatter_flatten bufs dg.payload

/-- The invariant: the sockets are settled, and on the network are the letters
as they should be. -/
structure MailInv (b : Build) (endpoint : ι → SlEndpoint) (s : Net ι) : Prop where
  settled : Settled b endpoint s.world
  posted : s.flights = s.letters.map (Letter.posted b.platform endpoint)

/-- A receive delivers what the network carries. -/
theorem MailInv.delivers (hb : b.asserts = true) (hp : b.platform ≠ .ios)
    (hreach : ∀ j name addr, reach j name addr → b.platform.IsSockaddr addr.1)
    (hI : MailInv b endpoint s) (h : pluginStep b s.world e = some (o, w'))
    (hcarries : Carries b reach s e) : Delivers b reach endpoint s e o w' := by
  intro buf n ptr hcall hret
  obtain ⟨he, _⟩ := pluginStep_iff.mp h
  obtain ⟨ret, events⟩ := o
  obtain ⟨i, call, a⟩ := e
  obtain rfl : call = .socketRecv buf n ptr := hcall
  obtain ⟨hstate, dg, origin, hdg, hptr, hcount, hreceived, hstored⟩ := he.receives hb hret
  obtain ⟨desc, hdesc, howner, hbinds⟩ := hI.settled.bound hstate
  obtain ⟨f, hf, hdest, hsource, hpayload⟩ := hcarries buf n ptr desc i _ dg rfl hdesc howner
    (by rw [hbinds]; rfl) hdg
  rw [hI.posted] at hf
  obtain ⟨l, hl, rfl⟩ := List.mem_map.mp hf
  have hbody : l.body = dg.payload := hpayload
  have haddr : b.platform.IsSockaddr dg.source := hreach _ _ _ hsource
  rw [List.take_of_length_le haddr.length.2] at hptr
  rw [← SlEndpoint.sockaddr_put origin hp haddr] at hsource
  rw [← hbody] at hcount hreceived hstored
  exact ⟨l, hl, _, hptr, hdest, hsource, hcount, hreceived, hstored⟩

/-- An orderly turn delivers, and keeps the invariant. -/
theorem MailInv.step (hb : b.asserts = true) (hp : b.platform ≠ .ios)
    (hreach : ∀ j name addr, reach j name addr → b.platform.IsSockaddr addr.1)
    (hI : MailInv b endpoint s) (h : netStep b s turn = some (r, s'))
    (horderly : turn.Orderly b reach s) :
    (∀ e o, turn = .call e → r = some o → Delivers b reach endpoint s e o s'.world) ∧
      MailInv b endpoint s' := by
  cases turn with
  | store mem =>
      obtain ⟨rfl, rfl⟩ := Prod.mk.inj (Option.some.inj h)
      exact ⟨fun e o hturn => (nomatch hturn), hI.settled.store mem, hI.posted⟩
  | call e =>
      rw [netStep] at h
      cases hs : pluginStep b s.world e with
      | none => simp [hs] at h
      | some p =>
          obtain ⟨o, w'⟩ := p
          simp only [hs, Option.some.injEq, Prod.mk.injEq] at h
          obtain ⟨rfl, rfl⟩ := h
          refine ⟨fun e' o' hturn hr => ?_, ?_, ?_⟩
          · obtain rfl := Turn.call.inj hturn
            obtain rfl := Option.some.inj hr
            exact hI.delivers hb hp hreach hs horderly.carries
          · exact hI.settled.step hb hs horderly.proper horderly.keeps
          · rw [hI.posted, pluginStep_posts hb hI.settled hs, List.map_append]
            cases e.letter s.world o <;> rfl

end Receiving

/-! ## A letter of two bytes -/

/-- One socket is bound to port 0 of the wildcard host, the other to port 9000 of
127.0.0.1. -/
def streetEndpoint (i : Bool) : SlEndpoint :=
  if i then anyEndpoint 2 else (anyEndpoint 2).put [2, 0, 35, 40, 127, 0, 0, 1]

/-- The system gives the first socket port 50000; both are reached at 127.0.0.1. -/
def streetAddress (i : Bool) : Name :=
  ([2, 0] ++ (if i then [195, 80] else [35, 40]) ++ [127, 0, 0, 1] ++ List.replicate 8 0, 16)

def streetReach : Reach Bool := fun i name addr =>
  name = (streetEndpoint i).sockaddr .posix ∧ addr = streetAddress i

theorem streetReach_isSockaddr : ∀ j name addr, streetReach j name addr →
    Platform.posix.IsSockaddr addr.1 := by
  rintro j name addr ⟨_, rfl⟩
  cases j <;> exact .v4 rfl rfl

/-- What the network hands over. -/
def Datagram.carried : Datagram where
  source := (streetAddress true).1
  payload := [64, 65]
  payload_lt := by decide

/-- Two sockets are opened, the caller fills its memory, one socket sends two
bytes to the other, which receives them. -/
def dispatch : List (Turn Bool) :=
  [.call ⟨true, .socketOpen, Answers.granting 3⟩,
    .call ⟨false, .socketOpen, Answers.granting 4⟩,
    .store fun a => UInt8.ofNat a,
    .call ⟨true, .socketSend (some [⟨64, 2⟩]) 1 (.ofSock false), Answers.taking 3 2⟩,
    .call ⟨false, .socketRecv (some [⟨128, 16⟩]) 1 (.addr 200),
      { Answers.granting 4 with recvmsg := .ok .carried }⟩]

theorem dispatch_orderly :
    Along (netStep ⟨true, .posix⟩)
      (fun s turn _ _ => turn.Orderly ⟨true, .posix⟩ streetReach s)
      ⟨World.pair.start streetEndpoint, [], []⟩ dispatch := by
  have hopen : ∀ {s : Net Bool} {i : Bool} {a : Answers}, s.world.isV6 ⟨true, .posix⟩ i = false →
      Orderly ⟨true, .posix⟩ streetReach s ⟨i, .socketOpen, a⟩ := by
    intro s i a h4
    refine ⟨.of_open h4, fun op hop => (nomatch hop), ?_⟩
    intro _ _ _ _ _ _ _ hcall
    exact nomatch hcall
  refine (along_cons_iff rfl).mpr ⟨hopen rfl, ?_⟩
  refine (along_cons_iff rfl).mpr ⟨hopen rfl, ?_⟩
  refine (along_cons_iff rfl).mpr ⟨trivial, ?_⟩
  refine (along_cons_iff rfl).mpr ⟨⟨.of_owns (fun h => nomatch h) ⟨_, rfl, rfl⟩, ?_, ?_⟩, ?_⟩
  · intro op hop
    obtain rfl := Option.some.inj hop
    trivial
  · intro _ _ _ _ _ _ _ hcall
    exact nomatch hcall
  refine (along_cons_iff rfl).mpr ⟨⟨.of_owns (fun h => nomatch h) ⟨_, rfl, rfl⟩, ?_, ?_⟩, trivial⟩
  · intro op hop
    obtain rfl := Option.some.inj hop
    trivial
  · intro buf bufcount ptr desc i name dg _ hdesc howner hname hdg
    have hdg : Datagram.carried = dg := Except.ok.inj hdg
    have howner : false = i := by
      rw [← Option.some.inj hdesc] at howner
      exact Option.some.inj howner
    have hname : (streetEndpoint false).sockaddr .posix = name := by
      rw [← Option.some.inj hdesc] at hname
      exact Option.some.inj hname
    subst hdg howner hname
    exact ⟨⟨true, (streetEndpoint true).sockaddr .posix, (streetEndpoint false).sockaddr .posix,
      [64, 65]⟩, List.mem_of_mem_head? rfl, ⟨rfl, rfl⟩, ⟨rfl, rfl⟩, rfl⟩

/-! ## The theorem -/

/--
**Delivery.**  In a build with assertions, on every platform but iOS, for any
number of sockets on any endpoints, any interleaving of their calls and of the
caller's own stores, any answers, sockets that are reached at any IPv4 or IPv6
addresses, and a network that loses, repeats and reorders: if the turns are
orderly, then what a receive returns is the front of a letter that was sent before
to an address of this socket, the endpoint it stores is passed to the kernel as an
address of the sender, and on the network is what the callers meant, letter by
letter.
-/
theorem delivery (p : Platform) (hp : p ≠ .ios) (w : World ι) (endpoint : ι → SlEndpoint)
    (reach : Reach ι) (hreach : ∀ j name addr, reach j name addr → p.IsSockaddr addr.1)
    {turns : List (Turn ι)}
    (horderly : Along (netStep ⟨true, p⟩) (fun s turn _ _ => turn.Orderly ⟨true, p⟩ reach s)
      ⟨w.start endpoint, [], []⟩ turns) :
    Along (netStep ⟨true, p⟩)
      (fun s turn r s' =>
        (∀ e o, turn = .call e → r = some o →
          Delivers ⟨true, p⟩ reach endpoint s e o s'.world) ∧
          s'.flights = s'.letters.map (Letter.posted p endpoint))
      ⟨w.start endpoint, [], []⟩ turns := by
  have hstart : MailInv ⟨true, p⟩ endpoint ⟨w.start endpoint, [], []⟩ :=
    ⟨.start _ w endpoint, rfl⟩
  refine along_of_invariant (fun s turn r s' hI h hC => ?_) hstart horderly
  obtain ⟨hdelivers, hI'⟩ := hI.step rfl hp hreach h hC
  exact ⟨⟨hdelivers, hI'.posted⟩, hI'⟩

/-- The theorem at the two bytes, which arrive. -/
theorem delivery_dispatch :
    (∃ rs s', exec (netStep ⟨true, .posix⟩) ⟨World.pair.start streetEndpoint, [], []⟩ dispatch =
      some (rs, s') ∧ s'.world.received = [[64, 65]]) ∧
    Along (netStep ⟨true, .posix⟩)
      (fun s turn r s' =>
        (∀ e o, turn = .call e → r = some o →
          Delivers ⟨true, .posix⟩ streetReach streetEndpoint s e o s'.world) ∧
          s'.flights = s'.letters.map (Letter.posted .posix streetEndpoint))
      ⟨World.pair.start streetEndpoint, [], []⟩ dispatch :=
  ⟨⟨_, _, rfl, rfl⟩, delivery .posix (by decide) World.pair streetEndpoint streetReach
    streetReach_isSockaddr dispatch_orderly⟩

end SockLynx
