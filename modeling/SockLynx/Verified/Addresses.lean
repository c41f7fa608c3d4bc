import Mathlib.Tactic.FinCases
import SockLynx.Lib.Slices
import SockLynx.Verified.Mail
import SockLynx.Verified.ManagedLayout
import SockLynx.Verified.NewIPv6

/-!
# Addresses on the wire

A program thinks of a peer as a port and a host, and a flow label and a scope where
it is an IPv6 host.  Managed code swaps port and flow label, swaps the groups of
an IPv6 host and stores them at fixed offsets; the library
passes the bytes to the kernel with a length it takes from the family; the kernel
puts such bytes over an endpoint when a datagram comes in, and managed code reads
fields there.  `Peer.sockaddr` says what the bytes are for the kernel, so that the
way out and the way back can be told apart.

## Main results

* `Peer.take_endpoint` — the bytes managed code builds for a peer.
* `Peer.read_of_namedBy` — they determine the peer.
* `Peer.travels_iff` — a peer comes through both ways exactly where the kernel's
  addresses begin with a family of two bytes, that is, not on OSX and iOS.
* `correspondence` — in every session a receive tells who sent what it returns.
-/

namespace SockLynx.Managed

open SockLynx.Lib.Blocks
open SockLynx.Lib.ByteOrder
open SockLynx.Lib.Slices
open SockLynx.Util

/-! ## Hosts -/

/-- `IPv4.New` of the bytes `host 0` to `host 3`. -/
def IPv4.ofBytes (host : Fin 4 → UInt8) : IPv4 :=
  IPv4.new (host 0) (host 1) (host 2) (host 3)

/-- Every byte is where it was written. -/
theorem IPv4.byteAddr_ofBytes (host : Fin 4 → UInt8) (k : Fin 4) :
    (IPv4.ofBytes host).byteAddr k = host k := by
  have hself : ∀ (ip : IPv4) (k : Nat) (byte : UInt8), k < 4 →
      (ip.setByteAddr k byte).byteAddr k = byte := by
    intro ip k byte hk
    have hlt := byte.toNat_lt
    have hfits : k + 1 ≤ slIp4Size := hk
    rw [IPv4.byteAddr, IPv4.setByteAddr, Block.word_setWord_self _ hfits, ← UInt8.toNat_inj,
      UInt8.toNat_ofNat']
    omega
  have hother : ∀ (ip : IPv4) (j k : Nat) (byte : UInt8), j ≠ k →
      (ip.setByteAddr k byte).byteAddr j = ip.byteAddr j := by
    intro ip j k byte hne
    rw [IPv4.byteAddr, IPv4.setByteAddr, Block.word_setWord_of_disjoint (by omega)]
    rfl
  fin_cases k <;> simp (disch := decide) only [IPv4.ofBytes, IPv4.new, hself, hother] <;> rfl

theorem IPv4.toList_ofBytes (host : Fin 4 → UInt8) :
    (IPv4.ofBytes host).toList = List.ofFn host := by
  refine List.ext_getElem (by simp [slIp4Size]) fun k _ hk => ?_
  have hk : k < 4 := by simpa using hk
  have hbyte := IPv4.byteAddr_ofBytes host ⟨k, hk⟩
  rw [IPv4.byteAddr, Block.word_one, UInt8.ofNat_toNat, Block.mem_of_lt hk] at hbyte
  rw [List.getElem_ofFn, ← hbyte, Vector.getElem_toList]

/-- The groups in network order. -/
theorem IPv6.toList_ofGroups (host : Fin 8 → UInt16) :
    (IPv6.ofGroups host).toList = (List.ofFn fun k => bytesBE 2 (host k).toNat).flatten := by
  have hall : (IPv6.ofGroups host).toList = slice (Block.mem (IPv6.ofGroups host)) 0 (2 * 8) := by
    rw [← take_eq_slice _ (by decide), List.take_of_length_le (by simp [slIp6Size])]
  rw [hall, slice_mul]
  congr 2
  funext k
  have hword : Block.word (IPv6.ofGroups host) (0 + 2 * k) 2 = (htoNUshort (host k)).toNat := by
    have hshort := congrArg UInt16.toNat (IPv6.shortAddr_ofGroups host k)
    have hlt := Block.word_lt (IPv6.ofGroups host) (2 * k) 2
    rwa [IPv6.shortAddr, UInt16.toNat_ofNat', Nat.mod_eq_of_lt (by simpa using hlt),
      ← Nat.zero_add (2 * k.val)] at hshort
  rw [slice_word, hword, bytesLE_htoNUshort, bytesBE]

end SockLynx.Managed

namespace SockLynx

open SockLynx.Lib.Blocks
open SockLynx.Lib.ByteOrder
open SockLynx.Lib.Layout
open SockLynx.Lib.Runs
open SockLynx.Lib.Slices
open SockLynx.Lib.Words
open SockLynx.Managed
open SockLynx.Util

/-! ## Peers -/

/-- A UDP address as a program means it: a port and the bytes or the groups of a
host, in the order they are written. -/
inductive Peer
  | v4 (port : UInt16) (host : Fin 4 → UInt8)
  | v6 (port : UInt16) (host : Fin 8 → UInt16) (flowinfo scopeId : UInt32)

/-- The endpoint managed code builds for a peer; it is up to the caller to swap
port and flow label. -/
def Peer.endpoint (ctx : Context) : Peer → Endpoint
  | .v4 port host => Endpoint.newV4 ctx (htoNUshort port) (IPv4.ofBytes host)
  | .v6 port host flowinfo scopeId =>
      Endpoint.newV6 ctx (htoNUshort port) (IPv6.ofGroups host) (htoNUint flowinfo) scopeId

/-- The peer managed code finds in an endpoint. -/
def Peer.read (ctx : Context) (endpoint : Endpoint) : Option Peer :=
  if endpoint.af = ctx.afInet then
    some (.v4 (ntoHUshort endpoint.port) fun k => endpoint.addr4.byteAddr k)
  else if endpoint.af = ctx.afInet6 then
    some (.v6 (ntoHUshort endpoint.port) (fun k => ntoHUshort (endpoint.addr6.shortAddr k))
      (ntoHUint endpoint.flowinfo) endpoint.scopeId)
  else none

/-! ## Addresses of the kernel -/

/-- How many bytes a kernel's address of the peer has. -/
def Peer.length : Peer → Nat
  | .v4 _ _ => 16
  | .v6 _ _ _ _ => 28

/-- How many of them count; the others are padding. -/
def Peer.significant : Peer → Nat
  | .v4 _ _ => 8
  | .v6 _ _ _ _ => 28

/-- Of two families the one of the peer. -/
def Peer.family (afInet afInet6 : UInt16) : Peer → UInt16
  | .v4 _ _ => afInet
  | .v6 _ _ _ _ => afInet6

/-- The first two bytes of an address: on OSX and iOS its length and a family of
one byte, elsewhere a family of two. -/
def Platform.sockaddrHead (p : Platform) (len : Nat) (af : UInt16) : List UInt8 :=
  match p with
  | osx | ios => [UInt8.ofNat len, af.toUInt8]
  | _ => bytesLE 2 af.toNat

/-- The rest: port, flow label and host in network order, and the scope, which is
an index of this machine, in its own. -/
def Peer.sockaddrTail : Peer → List UInt8
  | .v4 port host => bytesBE 2 port.toNat ++ (List.ofFn host ++ List.replicate 8 0)
  | .v6 port host flowinfo scopeId =>
      bytesBE 2 port.toNat ++ (bytesBE 4 flowinfo.toNat ++
        ((List.ofFn fun k => bytesBE 2 (host k).toNat).flatten ++ bytesLE 4 scopeId.toNat))

/-- The address as the kernel of a platform takes it. -/
def Peer.sockaddr (p : Platform) (peer : Peer) : List UInt8 :=
  p.sockaddrHead peer.length (peer.family p.afInet p.afInet6) ++ peer.sockaddrTail

section Peers

variable {p : Platform} {ctx : Context} (peer : Peer)

/-- The bytes of the endpoint, with the family as managed code stores it. -/
theorem Peer.take_endpoint :
    (peer.endpoint ctx).toList.take peer.length =
      bytesLE 2 (peer.family ctx.afInet ctx.afInet6).toNat ++ peer.sockaddrTail := by
  cases peer with
  | v4 port host =>
      obtain ⟨haf, hport, haddr⟩ := newV4_fields ctx (htoNUshort port) (IPv4.ofBytes host)
      generalize he : Endpoint.newV4 ctx (htoNUshort port) (IPv4.ofBytes host) = e at *
      have hhead : slice (Block.mem e) 0 2 = bytesLE 2 ctx.afInet.toNat := by rw [slice_word, haf]
      have hport : slice (Block.mem e) 2 2 = bytesBE 2 port.toNat := by
        rw [slice_word, hport, bytesLE_htoNUshort, bytesBE]
      have hhost : slice (Block.mem e) 4 4 = List.ofFn host := by
        rw [← slice_toList, haddr, IPv4.toList_ofBytes]
      have hpad : slice (Block.mem e) 8 8 = List.replicate 8 0 := by
        refine slice_eq_replicate _ _ fun a ha hlt => ?_
        have hlen : (IPv4.ofBytes host).toList.length = 4 := by simp [slIp4Size]
        rw [← he, Endpoint.newV4, Endpoint.setAddr4, Block.mem_store_frame (by omega),
          Endpoint.setPort, Block.mem_setWord_frame (by omega), Endpoint.setAf,
          Block.mem_setWord_frame (by omega), Endpoint.default, Block.mem_zero]
      calc
        (Peer.endpoint ctx (.v4 port host)).toList.take 16 = slice (Block.mem e) 0 16 := by
          rw [Peer.endpoint, he, take_eq_slice e (by decide)]
        _ = slice (Block.mem e) 0 2 ++ (slice (Block.mem e) 2 2 ++
              (slice (Block.mem e) 4 4 ++ slice (Block.mem e) 8 8)) := by
          rw [slice_add _ 0 2 14, slice_add _ 2 2 12, slice_add _ 4 4 8]
        _ = _ := by rw [hhead, hport, hhost, hpad]; rfl
  | v6 port host flowinfo scopeId =>
      obtain ⟨haf, hport, hflow, hscope, haddr⟩ :=
        newV6_fields ctx (htoNUshort port) (IPv6.ofGroups host) (htoNUint flowinfo) scopeId
      generalize he : Endpoint.newV6 ctx (htoNUshort port) (IPv6.ofGroups host)
        (htoNUint flowinfo) scopeId = e at *
      have hhead : slice (Block.mem e) 0 2 = bytesLE 2 ctx.afInet6.toNat := by rw [slice_word, haf]
      have hport : slice (Block.mem e) 2 2 = bytesBE 2 port.toNat := by
        rw [slice_word, hport, bytesLE_htoNUshort, bytesBE]
      have hflow : slice (Block.mem e) 4 4 = bytesBE 4 flowinfo.toNat := by
        rw [slice_word, hflow, bytesLE_htoNUint, bytesBE]
      have hhost : slice (Block.mem e) 8 16 =
          (List.ofFn fun k => bytesBE 2 (host k).toNat).flatten := by
        rw [← slice_toList, haddr, IPv6.toList_ofGroups]
      calc
        (Peer.endpoint ctx (.v6 port host flowinfo scopeId)).toList.take 28 =
            slice (Block.mem e) 0 28 := by
          rw [Peer.endpoint, he, take_eq_slice e (by decide)]
        _ = slice (Block.mem e) 0 2 ++ (slice (Block.mem e) 2 2 ++ (slice (Block.mem e) 4 4 ++
              (slice (Block.mem e) 8 16 ++ slice (Block.mem e) 24 4))) := by
          rw [slice_add _ 0 2 26, slice_add _ 2 2 24, slice_add _ 4 4 20, slice_add _ 8 16 4]
        _ = _ := by
          rw [hhead, hport, hflow, hhost, slice_word e 24 4, hscope]
          rfl

theorem Peer.size_endpoint (hp : p.hasLen = false) (hinet : ctx.afInet = p.afInet)
    (hinet6 : ctx.afInet6 = p.afInet6) :
    (SlEndpoint.size p (peer.endpoint ctx)).toUInt32 = UInt32.ofNat peer.length := by
  cases peer with
  | v4 port host => exact congrArg Int32.toUInt32 (seesV4 ctx _ _ hp hinet).size
  | v6 port host flowinfo scopeId =>
      exact congrArg Int32.toUInt32 (seesV6 ctx _ _ (htoNUint flowinfo) scopeId hp hinet6).size

theorem Peer.length_bounds : 0 < peer.length ∧ peer.length ≤ 28 := by
  cases peer <;> simp [length]

theorem Peer.significant_bounds : 2 ≤ peer.significant ∧ peer.significant ≤ peer.length := by
  cases peer <;> simp [significant, length]

/-- The first byte the kernel is given is the low byte of the family. -/
theorem Peer.head_endpoint :
    (SlEndpoint.sockaddr p (peer.endpoint ctx)).1.head? =
      some (UInt8.ofNat (peer.family ctx.afInet ctx.afInet6).toNat) := by
  have hsize : ∀ e : SlEndpoint, (e.size p).toUInt32.toNat ≠ 0 := by
    intro e
    unfold SlEndpoint.size
    split
    · decide
    · split <;> decide
  have hpos := peer.length_bounds.1
  have hhead : ((peer.endpoint ctx).toList.take peer.length).head? = _ :=
    congrArg List.head? peer.take_endpoint
  rw [List.head?_take, if_neg (by omega)] at hhead
  rw [SlEndpoint.sockaddr, List.head?_take, if_neg (hsize _), hhead]
  rfl

/-! ### Reading an endpoint back -/

/-- Padding does not count. -/
theorem Peer.read_of_agrees {e : Endpoint} (hne : ctx.afInet ≠ ctx.afInet6)
    (h : ∀ a < peer.significant, Block.mem e a = Block.mem (peer.endpoint ctx) a) :
    Peer.read ctx e = some peer := by
  have hword : ∀ off size, off + size ≤ peer.significant →
      Block.word e off size = Block.word (peer.endpoint ctx) off size :=
    fun off size hle => readLE_congr fun a _ ha => h a (by omega)
  have hsub : ∀ off size, off + size ≤ peer.significant →
      Block.sub e off size = Block.sub (peer.endpoint ctx) off size :=
    fun off size hle => Block.load_congr fun a _ ha => h a (by omega)
  cases peer with
  | v4 port host =>
      have hlen : (Peer.v4 port host).significant = 8 := rfl
      have hip : slIp4Size = 4 := rfl
      obtain ⟨haf, hport, haddr⟩ := newV4_fields ctx (htoNUshort port) (IPv4.ofBytes host)
      have haf : Endpoint.af e = ctx.afInet := by
        rw [Endpoint.af, hword 0 2 (by omega), Peer.endpoint, haf, UInt16.ofNat_toNat]
      have hport : Endpoint.port e = htoNUshort port := by
        rw [Endpoint.port, hword 2 2 (by omega), Peer.endpoint, hport, UInt16.ofNat_toNat]
      have haddr : Endpoint.addr4 e = IPv4.ofBytes host := by
        rw [Endpoint.addr4, hsub 4 slIp4Size (by omega), Peer.endpoint, haddr]
      rw [Peer.read, if_pos haf, hport, haddr]
      simp only [IPv4.byteAddr_ofBytes]
      rw [swapsBytes_ushort.unswap_swap]
  | v6 port host flowinfo scopeId =>
      have hlen : (Peer.v6 port host flowinfo scopeId).significant = 28 := rfl
      have hip : slIp6Size = 16 := rfl
      obtain ⟨haf, hport, hflow, hscope, haddr⟩ :=
        newV6_fields ctx (htoNUshort port) (IPv6.ofGroups host) (htoNUint flowinfo) scopeId
      have haf : Endpoint.af e = ctx.afInet6 := by
        rw [Endpoint.af, hword 0 2 (by omega), Peer.endpoint, haf, UInt16.ofNat_toNat]
      have hport : Endpoint.port e = htoNUshort port := by
        rw [Endpoint.port, hword 2 2 (by omega), Peer.endpoint, hport, UInt16.ofNat_toNat]
      have hflow : Endpoint.flowinfo e = htoNUint flowinfo := by
        rw [Endpoint.flowinfo, hword 4 4 (by omega), Peer.endpoint, hflow, UInt32.ofNat_toNat]
      have hscope : Endpoint.scopeId e = scopeId := by
        rw [Endpoint.scopeId, hword 24 4 (by omega), Peer.endpoint, hscope, UInt32.ofNat_toNat]
      have haddr : Endpoint.addr6 e = IPv6.ofGroups host := by
        rw [Endpoint.addr6, hsub 8 slIp6Size (by omega), Peer.endpoint, haddr]
      rw [Peer.read, if_neg (haf ▸ hne.symm), if_pos haf, hport, hflow, hscope, haddr]
      simp only [IPv6.ntoH_shortAddr_ofGroups]
      rw [swapsBytes_ushort.unswap_swap, swapsBytes_uint.unswap_swap]

theorem Peer.take_significant {bs bs' : List UInt8}
    (h : bs.take peer.length = bs'.take peer.length) :
    bs.take peer.significant = bs'.take peer.significant := by
  have hle := peer.significant_bounds.2
  have htake := congrArg (List.take peer.significant) h
  rwa [List.take_take, List.take_take, Nat.min_eq_left hle] at htake

/-- An endpoint that begins like the one of the peer. -/
theorem Peer.read_of_take {e : Endpoint} (hne : ctx.afInet ≠ ctx.afInet6)
    (h : e.toList.take peer.significant = (peer.endpoint ctx).toList.take peer.significant) :
    Peer.read ctx e = some peer := by
  have hmax : peer.significant ≤ 28 :=
    peer.significant_bounds.2.trans peer.length_bounds.2
  rw [take_eq_slice e hmax, take_eq_slice (peer.endpoint ctx) hmax] at h
  refine peer.read_of_agrees hne fun a ha => ?_
  have hget := congrArg (fun l => l[a]?) h
  simpa [getElem_slice, ha] using hget

/-! ### There and back -/

theorem Platform.hasLen_of_ne (hosx : p ≠ .osx) : p.hasLen = false := by
  cases p <;> simp [Platform.hasLen] at hosx ⊢

theorem Peer.toNat_length : (UInt32.ofNat peer.length).toNat = peer.length := by
  cases peer <;> rfl

/-- Where the family takes two bytes, the endpoint begins with the address. -/
theorem Peer.sockaddr_eq_take (hosx : p ≠ .osx) (hios : p ≠ .ios)
    (hinet : ctx.afInet = p.afInet) (hinet6 : ctx.afInet6 = p.afInet6) :
    peer.sockaddr p = (peer.endpoint ctx).toList.take peer.length := by
  have hhead : p.sockaddrHead peer.length (peer.family p.afInet p.afInet6) =
      bytesLE 2 (peer.family p.afInet p.afInet6).toNat := by
    cases p with
    | osx => exact absurd rfl hosx
    | ios => exact absurd rfl hios
    | posix | android | windows => rfl
  rw [Peer.take_endpoint, hinet, hinet6, Peer.sockaddr, hhead]

/-- The kernel is given the address of the peer, and the peer is read from it,
whatever the endpoint held before. -/
structure Peer.Travels (p : Platform) (ctx : Context) (peer : Peer) : Prop where
  out : SlEndpoint.sockaddr p (peer.endpoint ctx) = (peer.sockaddr p, UInt32.ofNat peer.length)
  back : ∀ e : SlEndpoint, Peer.read ctx (e.put (peer.sockaddr p)) = some peer

theorem Peer.travels (hosx : p ≠ .osx) (hios : p ≠ .ios) (hinet : ctx.afInet = p.afInet)
    (hinet6 : ctx.afInet6 = p.afInet6) : peer.Travels p ctx := by
  have htake := peer.sockaddr_eq_take hosx hios hinet hinet6
  constructor
  · rw [SlEndpoint.sockaddr, peer.size_endpoint (p.hasLen_of_ne hosx) hinet hinet6,
      peer.toNat_length, htake]
  · intro e
    have hmax := peer.length_bounds.2
    have hlen : (peer.sockaddr p).length = peer.length := by
      rw [htake, List.length_take, Vector.length_toList, Nat.min_eq_left hmax]
    have hput : (e.put (peer.sockaddr p)).toList.take (peer.sockaddr p).length = _ :=
      Block.take_store e (by rw [hlen]; exact hmax)
    rw [hlen] at hput
    exact peer.read_of_take (hinet ▸ hinet6 ▸ p.afInet_ne_afInet6)
      (peer.take_significant (hput.trans htake))

/--
**Wire format.**  On every platform, for every peer and every context that holds
the platform's families: what managed code builds for the peer is given to the
kernel as the address of the peer, port, flow label and host in network order, and
the peer is read back from the address over any old endpoint, exactly where the
kernel's addresses begin with a family of two bytes.
-/
theorem Peer.travels_iff (hinet : ctx.afInet = p.afInet) (hinet6 : ctx.afInet6 = p.afInet6) :
    peer.Travels p ctx ↔ p ≠ .osx ∧ p ≠ .ios := by
  constructor
  · intro h
    have hhead : (SlEndpoint.sockaddr p (peer.endpoint ctx)).1.head? = _ := peer.head_endpoint
    rw [h.out, hinet, hinet6] at hhead
    -- a length is not the low byte of a family
    have hne : UInt8.ofNat peer.length ≠ UInt8.ofNat (peer.family 2 30).toNat := by
      cases peer <;> simp [Peer.length, Peer.family]
    constructor
    · rintro rfl
      exact hne (Option.some.inj hhead)
    · rintro rfl
      exact hne (Option.some.inj hhead)
  · exact fun h => peer.travels h.1 h.2 hinet hinet6

/-- A context as `sl_sys_setup` leaves it on Linux. -/
def SlSys.linux : SlSys := { state := slSysStateStarted, afInet := 2, afInet6 := 10 }

/-- The same context in managed code. -/
abbrev linuxContext : Context := SlSys.linux.save (Block.zero 8)

/-- The theorem on Linux, for port 9000 of 127.0.0.1. -/
theorem travels_iff_loopback :
    (Peer.v4 9000 ![127, 0, 0, 1]).Travels .posix linuxContext :=
  (Peer.travels_iff _ (context_save _ _).1 (context_save _ _).2).mpr ⟨by decide, by decide⟩

example : (Peer.v4 9000 ![127, 0, 0, 1]).sockaddr .posix =
    [2, 0, 35, 40, 127, 0, 0, 1, 0, 0, 0, 0, 0, 0, 0, 0] := rfl

example : (Peer.v6 9000 (fun k => if k = 7 then 1 else 0) 0x12345 2).sockaddr .posix =
    [10, 0, 35, 40, 0, 1, 35, 69] ++ (List.replicate 15 0 ++ [1, 2, 0, 0, 0]) := rfl

/-! ### Addresses that name a peer -/

/-- The kernel takes an address for one of the peer: it has the length, and
differs from the peer's address in padding only. -/
structure Peer.NamedBy (p : Platform) (peer : Peer) (name : Name) : Prop where
  length : name.1.length = peer.length
  size : name.2 = UInt32.ofNat peer.length
  bytes : name.1.take peer.significant = (peer.sockaddr p).take peer.significant

/-- The peer's own endpoint names it. -/
theorem Peer.namedBy_endpoint (hosx : p ≠ .osx) (hios : p ≠ .ios) (hinet : ctx.afInet = p.afInet)
    (hinet6 : ctx.afInet6 = p.afInet6) :
    peer.NamedBy p (SlEndpoint.sockaddr p (peer.endpoint ctx)) := by
  have hout := (peer.travels hosx hios hinet hinet6).out
  have hlen : (peer.sockaddr p).length = peer.length := by
    rw [peer.sockaddr_eq_take hosx hios hinet hinet6, List.length_take, Vector.length_toList,
      Nat.min_eq_left peer.length_bounds.2]
  rw [hout]
  exact ⟨hlen, rfl, rfl⟩

/-- Managed code reads the peer in an endpoint that names it. -/
theorem Peer.read_of_namedBy {e : Endpoint} (hosx : p ≠ .osx) (hios : p ≠ .ios)
    (hinet : ctx.afInet = p.afInet) (hinet6 : ctx.afInet6 = p.afInet6)
    (h : peer.NamedBy p (SlEndpoint.sockaddr p e)) : Peer.read ctx e = some peer := by
  have hle := peer.significant_bounds.2
  have hsize : (SlEndpoint.size p e).toUInt32 = UInt32.ofNat peer.length := h.size
  have hbytes := h.bytes
  rw [peer.sockaddr_eq_take hosx hios hinet hinet6, SlEndpoint.sockaddr, hsize, peer.toNat_length,
    List.take_take, List.take_take, Nat.min_eq_left hle] at hbytes
  exact peer.read_of_take (hinet ▸ hinet6 ▸ p.afInet_ne_afInet6) hbytes

/-- An address that names a peer is an IPv4 or IPv6 address. -/
theorem Peer.NamedBy.isSockaddr {peer : Peer} {name : Name} (h : peer.NamedBy p name) :
    p.IsSockaddr name.1 := by
  have hhead : name.1.take 2 =
      p.sockaddrHead peer.length (peer.family p.afInet p.afInet6) := by
    have hcut := congrArg (List.take 2) h.bytes
    rw [List.take_take, List.take_take, Nat.min_eq_left peer.significant_bounds.1] at hcut
    rw [hcut]
    cases p <;> rfl
  have hbyte : ∀ k < 2, name.1[k]? =
      (p.sockaddrHead peer.length (peer.family p.afInet p.afInet6))[k]? := by
    intro k hk
    rw [← hhead, List.getElem?_take_of_lt hk]
  have hfamily : p.saFamily name.1 = (peer.family p.afInet p.afInet6).toNat := by
    simp only [Platform.saFamily, hbyte 0 (by omega), hbyte 1 (by omega)]
    cases p <;> cases peer <;> simp only [Peer.family, Peer.length] <;> decide
  cases peer with
  | v4 port host => exact .v4 h.length hfamily
  | v6 port host flowinfo scopeId => exact .v6 h.length hfamily

end Peers

/-! ## Letters between peers -/

section Letters

variable {ι : Type} [DecidableEq ι]

/-- Where sockets are reached, in terms of peers: `reach i peer at` says that
socket `i`, bound to `peer`, is reached at the peer `at`. -/
def Reach.ofPeers (p : Platform) (reach : ι → Peer → Peer → Prop) : Reach ι :=
  fun i name addr => ∃ bound reached, reach i bound reached ∧ bound.NamedBy p name ∧
    reached.NamedBy p addr

omit [DecidableEq ι] in
/-- A socket that managed code made for a peer is bound to that peer. -/
theorem Reach.ofPeers_endpoint {p : Platform} {ctx : Context} {peer : Peer}
    {reach : ι → Peer → Peer → Prop} {j : ι} {addr : Name} (hosx : p ≠ .osx) (hios : p ≠ .ios)
    (hinet : ctx.afInet = p.afInet) (hinet6 : ctx.afInet6 = p.afInet6)
    (h : Reach.ofPeers p reach j (SlEndpoint.sockaddr p (peer.endpoint ctx)) addr) :
    ∃ reached, reach j peer reached ∧ reached.NamedBy p addr := by
  obtain ⟨bound, reached, hreaches, hname, haddr⟩ := h
  have hown := peer.namedBy_endpoint hosx hios hinet hinet6
  have hread := bound.read_of_namedBy hosx hios hinet hinet6 hname
  rw [peer.read_of_namedBy hosx hios hinet hinet6 hown] at hread
  obtain rfl := Option.some.inj hread
  exact ⟨reached, hreaches, haddr⟩

/-- A receive tells managed code at which peer the sender of the letter is reached,
and the letter was sent to a peer at which this socket is. -/
def Tells (b : Build) (ctx : Context) (peer : ι → Peer) (reach : ι → Peer → Peer → Prop)
    (s : Net ι) (e : Step ι (Call ι)) (o : Outcome) (w' : World ι) : Prop :=
  ∀ buf bufcount ptr, e.call = .socketRecv buf bufcount ptr → o.ret ≠ slErr →
    ∃ l ∈ s.letters, ∃ origin sender recipient, w'.endpointAt ptr = some origin ∧
      Peer.read ctx origin = some sender ∧ reach l.sender (peer l.sender) sender ∧
      Peer.read ctx l.recipient = some recipient ∧ reach e.sock (peer e.sock) recipient ∧
      w'.received.flatten = l.body.take (capacity (iovBufs buf (iovCount b bufcount)))

/-- On the network a datagram comes from a descriptor that is bound to the address
of a peer. -/
def Sourced (p : Platform) (peer : ι → Peer) (s : Net ι) : Prop :=
  ∀ f ∈ s.flights, ∃ l ∈ s.letters,
    f = ⟨l.sender, ((peer l.sender).sockaddr p, UInt32.ofNat (peer l.sender).length),
      l.recipient.sockaddr p, l.body⟩

/--
**Correspondence.**  In a build with assertions, on every platform but OSX and iOS,
for any number of sockets that managed code made for peers, wherever they are
reached, and any orderly session on a network that loses, repeats and reorders:
every datagram on the network comes from a descriptor bound to the address the
kernel has for the sending socket's peer, byte by byte, and managed code reads in
the endpoint of a receive a peer at which the sender of the letter is reached, and
the letter was sent to a peer at which this socket is.
-/
theorem correspondence (p : Platform) (hosx : p ≠ .osx) (hios : p ≠ .ios) (w : World ι)
    (sys : SlSys) (hsys : sys.Initialized p) (v : Context) (peer : ι → Peer)
    (reach : ι → Peer → Peer → Prop) {turns : List (Turn ι)}
    (horderly : Along (netStep ⟨true, p⟩)
      (fun s turn _ _ => turn.Orderly ⟨true, p⟩ (.ofPeers p reach) s)
      ⟨w.start fun j => (peer j).endpoint (sys.save v), [], []⟩ turns) :
    Along (netStep ⟨true, p⟩)
      (fun s turn r s' =>
        (∀ e o, turn = .call e → r = some o →
          Tells ⟨true, p⟩ (sys.save v) peer reach s e o s'.world) ∧ Sourced p peer s')
      ⟨w.start fun j => (peer j).endpoint (sys.save v), [], []⟩ turns := by
  obtain ⟨hinet, hinet6⟩ := context_save sys v
  have hinet := hinet.trans hsys.afInet
  have hinet6 := hinet6.trans hsys.afInet6
  have hreach : ∀ j name addr, Reach.ofPeers p reach j name addr → p.IsSockaddr addr.1 := by
    rintro j name addr ⟨_, _, _, _, haddr⟩
    exact haddr.isSockaddr
  have hstart : MailInv ⟨true, p⟩ (fun j => (peer j).endpoint (sys.save v))
      ⟨w.start fun j => (peer j).endpoint (sys.save v), [], []⟩ := ⟨.start _ w _, rfl⟩
  refine along_of_invariant (fun s turn r s' hI h hC => ?_) hstart horderly
  obtain ⟨hdelivers, hI'⟩ := hI.step rfl hios hreach h hC
  refine ⟨⟨?_, ?_⟩, hI'⟩
  · intro e o hturn hr buf bufcount ptr hcall hret
    obtain ⟨l, hl, origin, horigin, harrived⟩ :=
      hdelivers e o hturn hr buf bufcount ptr hcall hret
    obtain ⟨sender, hsender, hsigned⟩ :=
      Reach.ofPeers_endpoint hosx hios hinet hinet6 harrived.signed
    obtain ⟨recipient, hrecipient, haddressed⟩ :=
      Reach.ofPeers_endpoint hosx hios hinet hinet6 harrived.addressed
    exact ⟨l, hl, origin, sender, recipient, horigin,
      sender.read_of_namedBy hosx hios hinet hinet6 hsigned, hsender,
      recipient.read_of_namedBy hosx hios hinet hinet6 haddressed, hrecipient, harrived.body⟩
  · intro f hf
    rw [hI'.posted] at hf
    obtain ⟨l, hl, rfl⟩ := List.mem_map.mp hf
    have hname := ((peer l.sender).travels hosx hios hinet hinet6).out
    exact ⟨l, hl, by rw [Letter.posted, hname]⟩

/-! ### The letter of two bytes, between peers -/

/-- What the two sockets are bound to. -/
def streetPeer (i : Bool) : Peer :=
  if i then .v4 0 fun _ => 0 else .v4 9000 ![127, 0, 0, 1]

/-- Where they are reached. -/
def streetHome (i : Bool) : Peer := .v4 (if i then 50000 else 9000) ![127, 0, 0, 1]

def streetReaches : Bool → Peer → Peer → Prop := fun i bound reached =>
  bound = streetPeer i ∧ reached = streetHome i

theorem streetPeer_endpoint :
    (fun i => (streetPeer i).endpoint linuxContext) = streetEndpoint := by
  funext i
  cases i <;> decide +kernel

theorem streetReach_ofPeers {i : Bool} {name addr : Name} (h : streetReach i name addr) :
    Reach.ofPeers .posix streetReaches i name addr := by
  obtain ⟨rfl, rfl⟩ := h
  refine ⟨streetPeer i, streetHome i, ⟨rfl, rfl⟩, ?_, ?_⟩
  · cases i <;> exact ⟨rfl, rfl, by decide +kernel⟩
  · cases i <;> exact ⟨rfl, rfl, by decide +kernel⟩

theorem dispatch_orderly_peers :
    Along (netStep ⟨true, .posix⟩)
      (fun s turn _ _ => turn.Orderly ⟨true, .posix⟩ (.ofPeers .posix streetReaches) s)
      ⟨World.pair.start fun i => (streetPeer i).endpoint linuxContext, [], []⟩ dispatch := by
  rw [streetPeer_endpoint]
  refine dispatch_orderly.imp fun s turn _ _ h => ?_
  cases turn with
  | store mem => trivial
  | call e =>
      refine ⟨h.proper, h.keeps, ?_⟩
      intro buf bufcount ptr desc i name dg hcall hdesc howner hname hdg
      obtain ⟨f, hf, hdest, hsource, hpayload⟩ :=
        h.carries buf bufcount ptr desc i name dg hcall hdesc howner hname hdg
      exact ⟨f, hf, streetReach_ofPeers hdest, streetReach_ofPeers hsource, hpayload⟩

/-- The theorem at the session of two sockets, which ends with two bytes received. -/
theorem correspondence_dispatch :
    (∃ rs s', exec (netStep ⟨true, .posix⟩)
      ⟨World.pair.start fun i => (streetPeer i).endpoint linuxContext, [], []⟩
      dispatch = some (rs, s') ∧ s'.world.received = [[64, 65]]) ∧
    Along (netStep ⟨true, .posix⟩)
      (fun s turn r s' =>
        (∀ e o, turn = .call e → r = some o →
          Tells ⟨true, .posix⟩ linuxContext streetPeer streetReaches s e o s'.world) ∧
          Sourced .posix streetPeer s')
      ⟨World.pair.start fun i => (streetPeer i).endpoint linuxContext, [], []⟩ dispatch :=
  ⟨by rw [streetPeer_endpoint]; exact ⟨_, _, rfl, rfl⟩,
    correspondence .posix (by decide) (by decide) World.pair SlSys.linux ⟨rfl, rfl⟩
      (Block.zero 8) streetPeer streetReaches dispatch_orderly_peers⟩

end Letters

end SockLynx
