import SockLynx.Verified.Frame

/-!
# A reply goes back to the sender

`sl_sock_recv` lets the kernel write a source address into a 28-byte endpoint
and drops its length; `sl_sock_send` computes a length from the family it
finds there.  The family lies in the first two bytes, which every address
overwrites, so the bytes the endpoint held before cannot influence the length.

## Main results

* `SlEndpoint.size_put` — once an address is stored over any endpoint,
  `sl_endpoint_size` is the length of that address.
* `slSockRecv_wrote` — beside the payload in its buffers, a receive changes 28
  bytes at its endpoint argument and no field of any socket.
* `reply_to_sender` — a send to the endpoint of a receive passes the kernel
  the source address with its length.
-/

namespace SockLynx

open SockLynx.Lib.Blocks

/-! ## Addresses as a kernel writes them -/

/-- `sa_family`, where the kernel of the platform puts it: on OSX and iOS there
is a length byte before a family of one byte. -/
def Platform.saFamily (p : Platform) (name : List UInt8) : Nat :=
  let byte k := (name[k]?.getD 0).toNat
  match p with
  | osx | ios => byte 1
  | _ => byte 0 + 256 * byte 1

/-- An IPv4 or IPv6 address. -/
inductive Platform.IsSockaddr (p : Platform) (name : List UInt8) : Prop
  | v4 (hlen : name.length = 16) (hfamily : p.saFamily name = p.afInet.toNat)
  | v6 (hlen : name.length = slEndpointBytes) (hfamily : p.saFamily name = p.afInet6.toNat)

section Addresses

variable {p : Platform} {name : List UInt8} (e : SlEndpoint)

theorem Platform.IsSockaddr.length (h : p.IsSockaddr name) :
    2 ≤ name.length ∧ name.length ≤ slEndpointBytes := by
  cases h with
  | v4 hlen _ => simp [hlen, slEndpointBytes]
  | v6 hlen _ => simp [hlen, slEndpointBytes]

/-- The header and the kernel agree on where the family is. -/
theorem SlEndpoint.af_put (hp : p ≠ .ios) (h : p.IsSockaddr name) :
    (e.put name).af p = UInt16.ofNat (p.saFamily name) := by
  obtain ⟨hmin, _⟩ := h.length
  have hn : slEndpointBytes = 28 := rfl
  have h0 : Block.mem (e.put name) 0 = name[0] :=
    Block.mem_store_apply e 0 (k := 0) (by omega) (by omega)
  have h1 : Block.mem (e.put name) 1 = name[1] :=
    Block.mem_store_apply e 0 (k := 1) (by omega) (by omega)
  rw [SlEndpoint.af_eq]
  have hget0 : name[0]?.getD 0 = name[0] := by rw [List.getElem?_eq_getElem (by omega)]; rfl
  have hget1 : name[1]?.getD 0 = name[1] := by rw [List.getElem?_eq_getElem (by omega)]; rfl
  cases p with
  | osx =>
      have hword : Block.word (e.put name) 1 1 = (name[1]).toNat := by rw [Block.word_one, h1]
      simp [Platform.hasLen, Platform.saFamily, hword, hget1]
  | ios => exact absurd rfl hp
  | posix | android | windows =>
      have hword : Block.word (e.put name) 0 2 = (name[0]).toNat + 256 * (name[1]).toNat := by
        rw [Block.word_two, h0, h1]
      simp [Platform.hasLen, Platform.saFamily, hword, hget0, hget1]

/-- The length computed from a stored address is its length, whatever the
endpoint held before. -/
theorem SlEndpoint.size_put (hp : p ≠ .ios) (h : p.IsSockaddr name) :
    (e.put name).size p = Int32.ofNat name.length := by
  have haf := af_put e hp h
  cases h with
  | v4 hlen hfamily =>
      rw [hfamily, UInt16.ofNat_toNat] at haf
      simp [size, isIpv4, haf, hlen]
  | v6 hlen hfamily =>
      rw [hfamily, UInt16.ofNat_toNat] at haf
      simp [size, isIpv4, isIpv6, haf, hlen, p.afInet_ne_afInet6.symm, slEndpointBytes]

/-- The kernel is given the stored address back. -/
theorem SlEndpoint.sockaddr_put (hp : p ≠ .ios) (h : p.IsSockaddr name) :
    (e.put name).sockaddr p = (name, UInt32.ofNat name.length) := by
  obtain ⟨_, hmax⟩ := h.length
  have hn : slEndpointBytes = 28 := rfl
  have hsize : ((e.put name).size p).toUInt32 = UInt32.ofNat name.length := by
    rw [size_put e hp h]
    rfl
  have hnat : (UInt32.ofNat name.length).toNat = name.length :=
    UInt32.toNat_ofNat_of_lt' (by simp only [UInt32.size]; omega)
  rw [sockaddr, hsize, hnat]
  exact congrArg (fun bs => (bs, _)) (Block.take_store e hmax)

end Addresses

/-! ## What a receive writes -/

section Transfers

variable {ι : Type} [DecidableEq ι] {b : Build} {a : Answers} {i : ι} {w w' : World ι}
  {buf : Option (List SlBuf)} {bufcount : Int32} {endpoint : EndpointPtr ι} {dg : Datagram}
  {r : Int32}

theorem World.endpointAt_putName {e : SlEndpoint} (h : w.endpointAt endpoint = some e)
    (bs : List UInt8) : (w.putName endpoint bs).endpointAt endpoint = some (e.put bs) := by
  cases endpoint with
  | null => simp [World.endpointAt] at h
  | ofSock j =>
      obtain rfl := Option.some.inj h
      simp [World.endpointAt, World.putName]
  | addr q =>
      obtain rfl := Option.some.inj h
      exact congrArg some (Block.load_blit w.mem q bs)

/-- From `w` to `w'` nothing was written but the 28 bytes of an endpoint. -/
structure WroteEndpoint (endpoint : EndpointPtr ι) (w w' : World ι) : Prop where
  mem : ∀ x : Nat, (∀ q, endpoint = .addr q → x < q ∨ q + slEndpointBytes ≤ x) → w'.mem x = w.mem x
  sock : ∀ j, w'.socks j = { w.socks j with endpoint := (w'.socks j).endpoint }
  other : ∀ j, endpoint ≠ .ofSock j → w'.socks j = w.socks j

theorem World.putName_wrote (w : World ι) (endpoint : EndpointPtr ι) {bs : List UInt8}
    (hbs : bs.length ≤ slEndpointBytes) : WroteEndpoint endpoint w (w.putName endpoint bs) := by
  refine ⟨fun x hx => ?_, fun j => World.putName_socks w endpoint bs j,
    fun j hj => World.putName_socks_of_ne hj bs⟩
  cases endpoint with
  | null => rfl
  | ofSock j => rfl
  | addr q =>
      have hout := hx q rfl
      exact Lib.Words.blit_frame (by omega)

omit [DecidableEq ι] in
/-- A datagram that is received is the one that arrived. -/
theorem recvAnswer_ok {p : Platform} {bufs : List SlBuf} {dg : Datagram}
    (h : recvAnswer p a bufs = .ok dg) : a.recvmsg = .ok dg := by
  unfold recvAnswer at h
  cases hr : a.recvmsg with
  | error e => simp [hr] at h
  | ok dg' =>
      simp only [hr] at h
      split at h
      · simp at h
      · exact h

/-- A successful receive stores the payload and the source address and makes
one system call. -/
theorem slSockRecv_stores (hdg : a.recvmsg = .ok dg)
    (h : slSockRecv b a (some i) buf bufcount endpoint w = .ok (r, w')) (hr : r ≠ slErr) :
    ∃ ev, w' = ((w.putPayload (iovBufs buf (iovCount b bufcount)) dg.payload).putName endpoint
        (dg.source.take slEndpointBytes)).note ev := by
  have hrun : (.recv buf bufcount endpoint : SockOp ι).run b a i w = .ok (r, w') := h
  obtain ⟨_, he⟩ := SockOp.run_iff.mp hrun
  cases he with
  | refused _ _ => exact absurd rfl hr
  | recvDone _ _ ha =>
      obtain rfl := Except.ok.inj ((recvAnswer_ok ha).symm.trans hdg)
      exact ⟨_, rfl⟩

/-- Beside the payload in the buffers, a successful receive writes to 28 bytes,
whatever the source address is. -/
theorem slSockRecv_wrote (hdg : a.recvmsg = .ok dg)
    (h : slSockRecv b a (some i) buf bufcount endpoint w = .ok (r, w')) (hr : r ≠ slErr) :
    WroteEndpoint endpoint
      (w.putPayload (iovBufs buf (iovCount b bufcount)) dg.payload) w' := by
  obtain ⟨ev, rfl⟩ := slSockRecv_stores hdg h hr
  have hwrote := World.putName_wrote (w.putPayload (iovBufs buf (iovCount b bufcount)) dg.payload)
    endpoint (List.length_take_le slEndpointBytes dg.source)
  exact ⟨hwrote.mem, hwrote.sock, hwrote.other⟩

/-! ## What a send passes on -/

/-- A send whose assertions hold makes one system call, with the address the
endpoint holds. -/
theorem slSockSend_passes {e : SlEndpoint} (he : w.endpointAt endpoint = some e)
    (hstate : (w.socks i).state = SlSockState.bound.val) (hbuf : buf.isSome = true)
    (hcount : 0 < bufcount) :
    ∃ r w' result, slSockSend b a (some i) buf bufcount endpoint w = .ok (r, w') ∧
      w'.os.log = w.os.log ++ [⟨.sendmsg (w.fd b i) (e.sockaddr b.platform).1
        (e.sockaddr b.platform).2 buf (iovCount b bufcount), result⟩] := by
  obtain ⟨r, w', heff⟩ := SockOp.exists_effect b a i w (.send buf bufcount endpoint)
  have hrun := slSockSend_of_effect ⟨nonNull_of_endpointAt he, fun _ => ⟨hbuf, hcount, hstate⟩⟩
    heff
  have hname : w.nameAt endpoint (w.nameLen b endpoint) = (e.sockaddr b.platform).1 := by
    simp [World.nameAt, World.nameLen, he, SlEndpoint.sockaddr]
  have hlen : w.nameLen b endpoint = (e.sockaddr b.platform).2 := World.nameLen_eq he
  rw [← hname, ← hlen]
  cases heff with
  | refused hc _ =>
      obtain rfl := Option.some.inj hc
      exact ⟨_, _, _, hrun, rfl⟩
  | sendDone hc _ _ =>
      obtain rfl := Option.some.inj hc
      exact ⟨_, _, _, hrun, rfl⟩

/--
**Replies.**  A BOUND socket, any buffers, any endpoint with any content, any
answers: after a successful receive of a datagram from an IPv4 or IPv6 address
a send to the same endpoint passes the kernel that address and its length, and
beside the payload in its buffers the receive has written to the 28 bytes of the
endpoint only.
-/
theorem reply_to_sender {a' : Answers} {w₁ : World ι} {buf' : Option (List SlBuf)}
    {bufcount' : Int32} (hp : b.platform ≠ .ios)
    (hstate : (w.socks i).state = SlSockState.bound.val) (hne : endpoint.nonNull = true)
    (hdg : a.recvmsg = .ok dg) (hsource : b.platform.IsSockaddr dg.source)
    (hrecv : slSockRecv b a (some i) buf bufcount endpoint w = .ok (r, w₁)) (hr : r ≠ slErr)
    (hbuf : buf'.isSome = true) (hcount : 0 < bufcount') :
    WroteEndpoint endpoint (w.putPayload (iovBufs buf (iovCount b bufcount)) dg.payload) w₁ ∧
      ∃ r' w₂ result, slSockSend b a' (some i) buf' bufcount' endpoint w₁ = .ok (r', w₂) ∧
        w₂.os.log = w₁.os.log ++ [⟨.sendmsg (w₁.fd b i) dg.source
          (UInt32.ofNat dg.source.length) buf' (iovCount b bufcount'), result⟩] := by
  refine ⟨slSockRecv_wrote hdg hrecv hr, ?_⟩
  obtain ⟨ev, rfl⟩ := slSockRecv_stores hdg hrecv hr
  obtain ⟨_, hmax⟩ := hsource.length
  obtain ⟨e, he⟩ := endpointAt_of_nonNull
    (w := w.putPayload (iovBufs buf (iovCount b bufcount)) dg.payload) hne
  have hput := World.endpointAt_putName he (dg.source.take slEndpointBytes)
  rw [List.take_of_length_le hmax] at hput ⊢
  have hsockaddr := SlEndpoint.sockaddr_put e hp hsource
  obtain ⟨r', w₂, result, hsend, hlog⟩ := slSockSend_passes (b := b) (a := a') (i := i)
    (w := ((w.putPayload (iovBufs buf (iovCount b bufcount)) dg.payload).putName endpoint
      dg.source).note ev)
    hput (by simpa using hstate) hbuf hcount
  rw [hsockaddr] at hlog
  exact ⟨r', w₂, result, hsend, hlog⟩

end Transfers

/-! ### A reply on OSX -/

/-- A process with one BOUND socket, its descriptor 3. -/
def World.listening (p : Platform) : World Unit :=
  (World.small.openDesc 3
    (Desc.fresh p (Answers.granting 3) () p.afInet slSockTypeDgram slSockProtoUdp)).setSock ()
      { SlSock.zeroed slSockTypeDgram slSockProtoUdp (Vector.replicate 28 0) with
        fd := 3, state := SlSockState.bound.val }

/-- Two bytes from 127.0.0.1, port 9000, as the kernel of OSX reports them. -/
def Datagram.loopback : Datagram where
  source := [16, 2, 35, 40, 127, 0, 0, 1, 0, 0, 0, 0, 0, 0, 0, 0]
  payload := [1, 2]
  payload_lt := by decide

/-- Such a process whose memory is full of old bytes. -/
def World.littered : World Unit :=
  { World.listening .osx with mem := fun _ => 255 }

/-- The theorem at that datagram, its source address stored over old bytes at
address 64. -/
theorem reply_to_sender_loopback :
    ∃ w₁, slSockRecv ⟨true, .osx⟩ { Answers.granting 3 with recvmsg := .ok .loopback } (some ())
        (some [⟨128, 16⟩]) 1 (.addr 64) .littered = .ok (2, w₁) ∧
      WroteEndpoint (.addr 64)
        (World.littered.putPayload [⟨128, 16⟩] Datagram.loopback.payload) w₁ ∧
      ∃ r' w₂ result, slSockSend ⟨true, .osx⟩ (Answers.granting 3) (some ())
          (some [⟨128, 2⟩]) 1 (.addr 64) w₁ = .ok (r', w₂) ∧
        w₂.os.log = w₁.os.log ++ [⟨.sendmsg (w₁.fd ⟨true, .osx⟩ ()) Datagram.loopback.source
          (UInt32.ofNat Datagram.loopback.source.length) (some [⟨128, 2⟩])
          (iovCount ⟨true, .osx⟩ 1), result⟩] := by
  have hrun : ∃ w₁, slSockRecv ⟨true, .osx⟩
      { Answers.granting 3 with recvmsg := .ok .loopback } (some ()) (some [⟨128, 16⟩]) 1
      (.addr 64) .littered = .ok (2, w₁) := ⟨_, rfl⟩
  obtain ⟨w₁, hrecv⟩ := hrun
  have hdg : { Answers.granting 3 with recvmsg := .ok Datagram.loopback }.recvmsg =
      .ok Datagram.loopback := rfl
  exact ⟨w₁, hrecv, reply_to_sender (by decide) rfl rfl hdg (.v4 rfl rfl) hrecv
    (by decide) rfl (by decide)⟩

end SockLynx
