import SockLynx.Model.Process

/-!
# `endpoint.h`

The accessors of `sl_endpoint_t`.  They take a pointer, assert that it is not
null and look at the family field only.
-/

namespace SockLynx

open SockLynx.Lib.Blocks
open SockLynx.Lib.Layout

variable {ι : Type}

/-- `endpoint` is not null. -/
def EndpointPtr.nonNull : EndpointPtr ι → Bool
  | .null => false
  | _ => true

/-- `sl_endpoint_af_get` -/
def slEndpointAfGet (b : Build) (endpoint : EndpointPtr ι) : Sl ι UInt16 := do
  slAssert b endpoint.nonNull
  let e ← derefEndpoint endpoint
  return e.af b.platform

/-- The union after its family was set, as many bytes of it as the member has. -/
def SlEndpoint.setAf (p : Platform) (e : SlEndpoint) (af : UInt16) : SlEndpoint :=
  e.setWord (offset (slSockaddr4 p) .af) (memberSize .af (slSockaddr4 p)) af.toNat

/-- Assign through `endpoint`. -/
def assignEndpoint [DecidableEq ι] (endpoint : EndpointPtr ι) (f : SlEndpoint → SlEndpoint) :
    Sl ι Unit := fun w =>
  match w.endpointAt endpoint with
  | none => .error .nullPointer
  | some e => .ok ((), w.putName endpoint (f e).toList)

/-- `sl_endpoint_af_set` -/
def slEndpointAfSet [DecidableEq ι] (b : Build) (endpoint : EndpointPtr ι) (af : UInt16) :
    Sl ι Unit := do
  slAssert b endpoint.nonNull
  assignEndpoint endpoint fun e => e.setAf b.platform af

/-- A family of the platform is found again where it was set. -/
theorem SlEndpoint.af_setAf {p : Platform} (e : SlEndpoint) {af : UInt16}
    (haf : af = p.afInet ∨ af = p.afInet6) : (e.setAf p af).af p = af := by
  have hfits : offset (slSockaddr4 p) .af + memberSize .af (slSockaddr4 p) ≤ slEndpointBytes := by
    cases p <;> decide
  rw [SlEndpoint.af, SlEndpoint.field, SlEndpoint.setAf, Block.word_setWord_self _ hfits]
  rcases haf with rfl | rfl
  · cases p <;> rfl
  · cases p <;> rfl

/-- `sl_endpoint_addr_get`: the same pointer, as a `struct sockaddr *`. -/
def slEndpointAddrGet (b : Build) (endpoint : EndpointPtr ι) : Sl ι (EndpointPtr ι) := do
  slAssert b endpoint.nonNull
  return endpoint

/-- `sl_endpoint_is_ipv4` -/
def slEndpointIsIpv4 (b : Build) (endpoint : EndpointPtr ι) : Sl ι Bool := do
  slAssert b endpoint.nonNull
  return (← slEndpointAfGet b endpoint) == b.platform.afInet

/-- `sl_endpoint_is_ipv6` -/
def slEndpointIsIpv6 (b : Build) (endpoint : EndpointPtr ι) : Sl ι Bool := do
  slAssert b endpoint.nonNull
  return (← slEndpointAfGet b endpoint) == b.platform.afInet6

/-- `sl_endpoint_size` -/
def slEndpointSize (b : Build) (endpoint : EndpointPtr ι) : Sl ι Int32 := do
  slAssert b endpoint.nonNull
  if ← slEndpointIsIpv4 b endpoint then
    return Int32.ofNat (Lib.Layout.structSize (slSockaddr4 b.platform))
  if ← slEndpointIsIpv6 b endpoint then
    return Int32.ofNat (Lib.Layout.structSize (slSockaddr6 b.platform))
  return slErr

/-! ## What the accessors return -/

/-- The test of `sl_endpoint_is_ipv4` on the endpoint itself. -/
def SlEndpoint.isIpv4 (p : Platform) (e : SlEndpoint) : Bool := e.af p == p.afInet

/-- The test of `sl_endpoint_is_ipv6` on the endpoint itself. -/
def SlEndpoint.isIpv6 (p : Platform) (e : SlEndpoint) : Bool := e.af p == p.afInet6

/-- The result of `sl_endpoint_size` on the endpoint itself. -/
def SlEndpoint.size (p : Platform) (e : SlEndpoint) : Int32 :=
  if e.isIpv4 p then 16 else if e.isIpv6 p then 28 else slErr

/-- The address and length the kernel is given for an endpoint. -/
def SlEndpoint.sockaddr (p : Platform) (e : SlEndpoint) : List UInt8 × UInt32 :=
  (e.toList.take (e.size p).toUInt32.toNat, (e.size p).toUInt32)

theorem SlEndpoint.not_isIpv6_of_isIpv4 {p : Platform} {e : SlEndpoint}
    (h : e.isIpv4 p = true) : e.isIpv6 p = false := by
  simp only [isIpv4, beq_iff_eq] at h
  simp only [isIpv6, h, beq_eq_false_iff_ne]
  exact p.afInet_ne_afInet6

section Specs

variable {b : Build} {w : World ι} {endpoint : EndpointPtr ι} {e : SlEndpoint} {i : ι}

theorem nonNull_of_endpointAt (h : w.endpointAt endpoint = some e) :
    endpoint.nonNull = true := by
  cases endpoint with
  | null => simp [World.endpointAt] at h
  | ofSock i => rfl
  | addr p => rfl

theorem endpointAt_of_nonNull (h : endpoint.nonNull = true) :
    ∃ e, w.endpointAt endpoint = some e := by
  cases endpoint with
  | null => simp [EndpointPtr.nonNull] at h
  | ofSock i => exact ⟨_, rfl⟩
  | addr p => exact ⟨_, rfl⟩

theorem slEndpointAfGet_eq (h : w.endpointAt endpoint = some e) :
    slEndpointAfGet b endpoint w = .ok (e.af b.platform, w) := by
  simp [slEndpointAfGet, Sl.bind_apply, nonNull_of_endpointAt h, derefEndpoint, h]

theorem slEndpointAddrGet_eq (h : endpoint.nonNull = true) :
    slEndpointAddrGet b endpoint w = .ok (endpoint, w) := by
  simp [slEndpointAddrGet, Sl.bind_apply, h]

theorem slEndpointIsIpv4_eq (h : w.endpointAt endpoint = some e) :
    slEndpointIsIpv4 b endpoint w = .ok (e.isIpv4 b.platform, w) := by
  simp [slEndpointIsIpv4, Sl.bind_apply, nonNull_of_endpointAt h, slEndpointAfGet_eq h,
    SlEndpoint.isIpv4]

theorem slEndpointIsIpv6_eq (h : w.endpointAt endpoint = some e) :
    slEndpointIsIpv6 b endpoint w = .ok (e.isIpv6 b.platform, w) := by
  simp [slEndpointIsIpv6, Sl.bind_apply, nonNull_of_endpointAt h, slEndpointAfGet_eq h,
    SlEndpoint.isIpv6]

theorem slEndpointSize_eq (h : w.endpointAt endpoint = some e) :
    slEndpointSize b endpoint w = .ok (e.size b.platform, w) := by
  simp only [slEndpointSize, Sl.bind_apply, nonNull_of_endpointAt h, slAssert_true,
    slEndpointIsIpv4_eq h, Sl.ite_apply, slEndpointIsIpv6_eq h, SlEndpoint.size,
    structSize_slSockaddr4, structSize_slSockaddr6]
  by_cases h4 : e.isIpv4 b.platform = true
  · rw [if_pos h4, if_pos h4]
    rfl
  · rw [if_neg h4, if_neg h4]
    by_cases h6 : e.isIpv6 b.platform = true
    · rw [if_pos h6, if_pos h6]
      rfl
    · rw [if_neg h6, if_neg h6]
      rfl

/-! On a socket's own endpoint. -/

@[simp] theorem slEndpointSize_ofSock :
    slEndpointSize b (.ofSock i) w = .ok ((w.socks i).endpoint.size b.platform, w) :=
  slEndpointSize_eq rfl

@[simp] theorem slEndpointAfGet_ofSock :
    slEndpointAfGet b (.ofSock i) w = .ok ((w.socks i).endpoint.af b.platform, w) :=
  slEndpointAfGet_eq rfl

@[simp] theorem slEndpointIsIpv6_ofSock :
    slEndpointIsIpv6 b (.ofSock i) w = .ok ((w.socks i).endpoint.isIpv6 b.platform, w) :=
  slEndpointIsIpv6_eq rfl

@[simp] theorem slEndpointAddrGet_ofSock :
    slEndpointAddrGet b (.ofSock i) w = .ok (.ofSock i, w) :=
  slEndpointAddrGet_eq rfl

end Specs

end SockLynx
