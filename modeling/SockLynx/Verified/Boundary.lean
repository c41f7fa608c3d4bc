import SockLynx.Lib.Casts
import SockLynx.Verified.Reply

/-!
# Numbers at the system-call boundary

Two signed numbers are passed to the kernel as unsigned ones: the result of
`sl_endpoint_size`, which is -1 for an unknown family, and `bufcount`.  No
caller looks at the -1, and `sl_sock_recv` asserts only that the count is not
zero, where `sl_sock_send` asserts that it is positive.

## Main results

* `ExactArgs` — the kernel is told true lengths and counts, and calls with
  arguments that have none do not reach it.
* `args_exact_iff` — what is passed is exact exactly when the endpoint is IPv4
  or IPv6 and the count positive.
-/

namespace SockLynx

variable {ι : Type} [DecidableEq ι]

/-! ## What crosses the boundary -/

/-- The call passes an address or buffers to the kernel. -/
def Syscall.boundary : Syscall → Bool
  | .bind _ _ _ => true
  | .sendmsg _ _ _ _ _ => true
  | .recvmsg _ _ _ _ => true
  | _ => false

/-- Address lengths are those of the two address structs, and the number of
buffers is `count` and positive. -/
def Syscall.Exact (count : Int) : Syscall → Prop
  | .bind _ _ len => len = 16 ∨ len = 28
  | .sendmsg _ _ len _ iovlen =>
      (len = 16 ∨ len = 28) ∧ (iovlen.toNat : Int) = count ∧ 1 ≤ iovlen.toNat
  | .recvmsg _ _ _ iovlen => (iovlen.toNat : Int) = count ∧ 1 ≤ iovlen.toNat
  | _ => True

/-- The buffer count an operation is given. -/
def SockOp.count : SockOp ι → Int
  | .send _ bufcount _ => bufcount.toInt
  | .recv _ bufcount _ => bufcount.toInt
  | _ => 0

/-- The endpoint is an IPv4 or IPv6 endpoint. -/
def SlEndpoint.Supported (p : Platform) (e : SlEndpoint) : Prop :=
  e.isIpv4 p = true ∨ e.isIpv6 p = true

/-- The endpoint whose length is passed is supported, and the count passed is
positive. -/
def SockOp.ArgsFit (b : Build) (i : ι) (w : World ι) : SockOp ι → Prop
  | .bind => (w.socks i).endpoint.Supported b.platform
  | .send _ bufcount endpoint =>
      0 < bufcount ∧ ∃ e, w.endpointAt endpoint = some e ∧ e.Supported b.platform
  | .recv _ bufcount _ => 0 < bufcount
  | _ => True

/-- Whatever the operation passes to the kernel is exact, and with arguments
that do not fit it passes nothing. -/
def ExactArgs (b : Build) (a : Answers) (i : ι) (w : World ι) (op : SockOp ι) : Prop :=
  ∀ r w', op.run b a i w.clearLog = .ok (r, w') →
    (∀ ev ∈ w'.os.log, ev.call.Exact op.count) ∧
      (¬op.ArgsFit b i w → ∀ ev ∈ w'.os.log, ev.call.boundary = false)

/-! ## The conversions -/

/-- The length fits exactly for the two families. -/
theorem SlEndpoint.size_exact_iff (p : Platform) (e : SlEndpoint) :
    ((e.size p).toUInt32 = 16 ∨ (e.size p).toUInt32 = 28) ↔ e.Supported p := by
  unfold SlEndpoint.size SlEndpoint.Supported
  by_cases h4 : e.isIpv4 p = true
  · simp only [h4, if_true, true_or, iff_true]
    decide
  · by_cases h6 : e.isIpv6 p = true
    · simp only [h4, h6, if_true, Bool.false_eq_true, if_false, or_true, iff_true]
      decide
    · simp only [h4, h6, if_false, Bool.false_eq_true, or_self, iff_false]
      decide

/-- `(DWORD)bufcount` is the count exactly when that is not negative. -/
theorem toNat_toUInt32_eq_iff (n : Int32) : (n.toUInt32.toNat : Int) = n.toInt ↔ 0 ≤ n.toInt := by
  have hcast := Lib.Casts.toNat_toUInt32 n
  have hlt := n.toInt_lt
  omega

/-- `(size_t)bufcount` likewise. -/
theorem toNat_sizeT_eq_iff (n : Int32) : ((sizeT n).toNat : Int) = n.toInt ↔ 0 ≤ n.toInt := by
  have hcast : ((sizeT n).toNat : Int) = n.toInt % 2 ^ 64 := Lib.Casts.toNat_signExtend n
  have hlt := n.toInt_lt
  omega

/-- The kernel is told the count, as a positive number, exactly when it is
positive. -/
theorem iovCount_exact_iff (b : Build) (n : Int32) :
    ((iovCount b n).toNat : Int) = n.toInt ∧ 1 ≤ (iovCount b n).toNat ↔ 0 < n := by
  have hcount : ((iovCount b n).toNat : Int) = n.toInt ↔ 0 ≤ n.toInt := by
    unfold iovCount
    split
    · rw [UInt32.toNat_toUInt64]
      exact toNat_toUInt32_eq_iff n
    · exact toNat_sizeT_eq_iff n
  have hpos : 0 < n ↔ 0 < n.toInt := by
    rw [Int32.lt_iff_toInt_lt]
    rfl
  rw [hpos]
  constructor
  · rintro ⟨heq, hone⟩
    omega
  · intro hn
    have heq := hcount.mpr (by omega)
    exact ⟨heq, by omega⟩

/-- A count that is not negative is the number of buffers the kernel uses. -/
theorem iovBufs_of_nonneg (b : Build) {buf : Option (List SlBuf)} {n : Int32}
    (h : 0 ≤ n.toInt) : iovBufs buf (iovCount b n) = (buf.getD []).take n.toInt.toNat := by
  have h32 := (toNat_toUInt32_eq_iff n).mpr h
  have h64 := (toNat_sizeT_eq_iff n).mpr h
  have hcount : (iovCount b n).toNat = n.toInt.toNat := by
    unfold iovCount
    split
    · rw [UInt32.toNat_toUInt64]
      omega
    · omega
  rw [iovBufs, hcount]

/-! ## One operation -/

section Operations

variable {b : Build} {a : Answers} {i : ι} {w w' : World ι} {op : SockOp ι} {r : Int32}

omit [DecidableEq ι] in
/-- What the decisive call passes is exact exactly when the arguments fit. -/
theorem SockOp.decisive_exact_iff {call : Syscall}
    (hready : op.Ready ⟨true, b.platform⟩ (w.socks i))
    (hc : op.decisive b a i w = some call) : call.Exact op.count ↔ op.ArgsFit b i w := by
  cases op with
  | create type proto => simp [SockOp.decisive] at hc
  | bind =>
      obtain rfl := Option.some.inj hc
      exact SlEndpoint.size_exact_iff b.platform (w.socks i).endpoint
  | close =>
      obtain rfl := Option.some.inj hc
      exact Iff.rfl
  | mode nonblocking =>
      obtain rfl := Option.some.inj hc
      split <;> exact Iff.rfl
  | send buf n endpoint =>
      obtain rfl := Option.some.inj hc
      obtain ⟨e, he⟩ := endpointAt_of_nonNull (w := w) hready.1
      have hlen := SlEndpoint.size_exact_iff b.platform e
      rw [← World.nameLen_eq (b := b) he] at hlen
      have hcount : 0 < n := (hready.2 rfl).2.1
      have hiov := (iovCount_exact_iff b n).mpr hcount
      have hfit : (SockOp.send buf n endpoint).ArgsFit b i w ↔ e.Supported b.platform := by
        simp [SockOp.ArgsFit, hcount, he]
      rw [hfit, ← hlen]
      exact and_iff_left hiov
  | recv buf n endpoint =>
      obtain rfl := Option.some.inj hc
      exact iovCount_exact_iff b n

omit [DecidableEq ι] in
/-- Before its decisive call an operation asks for flags at most. -/
theorem SockOp.prelude_exact (hlog : w.os.log = []) (count : Int) {ev : Event}
    (hev : ev ∈ (op.prelude b a i w).os.log) : ev.call.Exact count := by
  obtain ⟨fd, hcall⟩ := SockOp.mem_prelude_log hlog hev
  rw [hcall]
  trivial

/-- The system calls of an operation are exact exactly when its decisive call
is. -/
theorem SockEffect.exact_iff (hlog : w.os.log = []) (h : SockEffect b a i w op r w')
    (hready : op.Ready ⟨true, b.platform⟩ (w.socks i)) :
    (∀ ev ∈ w'.os.log, ev.call.Exact op.count) ↔ op.ArgsFit b i w := by
  rcases h.log_cases hlog with ⟨⟨type, proto, rfl⟩, hcreate⟩ | ⟨call, result, hc, hlog'⟩
  · refine iff_of_true (fun ev hev => ?_) trivial
    rcases hcreate ev hev with ⟨_, _, _, hcall⟩ | ⟨_, _, hcall⟩ <;> rw [hcall] <;> trivial
  · rw [← SockOp.decisive_exact_iff hready hc, hlog']
    constructor
    · intro hall
      exact hall ⟨call, result⟩ (by simp)
    · intro hexact ev hev
      rcases List.mem_append.mp hev with hbefore | hlast
      · exact SockOp.prelude_exact hlog op.count hbefore
      · rw [List.mem_singleton.mp hlast]
        exact hexact

/--
**The boundary.**  An operation whose assertions hold returns, with assertions
compiled in or out.  The lengths and counts it passes to the kernel are the
true ones, and unfit arguments stop before the kernel, exactly when the
endpoint whose length is passed is IPv4 or IPv6 and the count is positive.
-/
theorem args_exact_iff (b : Build) (a : Answers) (i : ι) (w : World ι) (op : SockOp ι)
    (hready : op.Ready ⟨true, b.platform⟩ (w.socks i)) :
    (∃ r w', op.run b a i w.clearLog = .ok (r, w')) ∧
      (ExactArgs b a i w op ↔ op.ArgsFit b i w) := by
  have hready' : op.Ready b (w.clearLog.socks i) := hready.of_asserting
  obtain ⟨r, w', he⟩ := SockOp.exists_effect b a i w.clearLog op
  have hrun := SockOp.run_of_effect hready' he
  refine ⟨⟨r, w', hrun⟩, ?_⟩
  have hiff := SockEffect.exact_iff rfl he hready
  constructor
  · intro h
    exact hiff.mp (h r w' hrun).1
  · intro hfit r₂ w₂ hrun₂
    obtain ⟨rfl, rfl⟩ : r = r₂ ∧ w' = w₂ := by simpa [hrun] using hrun₂
    exact ⟨hiff.mpr hfit, fun hn => absurd hfit hn⟩

end Operations

/-! ### Arguments that wrap -/

/-- The theorem at one receive into one buffer. -/
theorem args_exact_iff_one :
    ExactArgs ⟨true, .posix⟩ (Answers.granting 3) () (World.listening .posix)
      (.recv (some [⟨128, 16⟩]) 1 (.addr 64)) :=
  (args_exact_iff ⟨true, .posix⟩ (Answers.granting 3) () (World.listening .posix)
    (.recv (some [⟨128, 16⟩]) 1 (.addr 64)) fun _ => ⟨rfl, by decide, rfl, rfl⟩).2.mpr
      (by decide : (0 : Int32) < 1)

/-- A receive into -1 buffers tells the kernel of 2^64 - 1, and a send to an
endpoint of family 0 of an address of 2^32 - 1 bytes. -/
theorem args_wrap :
    let w := World.listening .posix
    let recv : SockOp Unit := .recv (some [⟨128, 16⟩]) (-1) (.addr 64)
    let send : SockOp Unit := .send (some [⟨128, 16⟩]) 1 (.addr 64)
    (recv.Ready ⟨true, .posix⟩ (w.socks ()) ∧
      (∃ r w', recv.run ⟨true, .posix⟩ (Answers.granting 3) () w.clearLog = .ok (r, w') ∧
        w'.os.log.map Event.call =
          [.recvmsg 3 28 (some [⟨128, 16⟩]) 0xFFFFFFFFFFFFFFFF]) ∧
      ¬ExactArgs ⟨true, .posix⟩ (Answers.granting 3) () w recv) ∧
    (send.Ready ⟨true, .posix⟩ (w.socks ()) ∧
      (∃ r w' name, send.run ⟨true, .posix⟩ (Answers.granting 3) () w.clearLog = .ok (r, w') ∧
        w'.os.log.map Event.call =
          [.sendmsg 3 name 0xFFFFFFFF (some [⟨128, 16⟩]) 1]) ∧
      ¬ExactArgs ⟨true, .posix⟩ (Answers.granting 3) () w send) := by
  refine ⟨⟨fun _ => ⟨rfl, by decide, rfl, rfl⟩, ⟨_, _, rfl, rfl⟩, fun h => ?_⟩,
    ⟨rfl, fun _ => ⟨rfl, by decide, rfl⟩⟩, ⟨_, _, _, rfl, rfl⟩, fun h => ?_⟩
  · have hexact := (h _ _ rfl).1 _ (List.mem_singleton_self _)
    exact absurd hexact.1 (by decide)
  · have hexact := (h _ _ rfl).1 _ (List.mem_singleton_self _)
    exact absurd hexact.1 (by decide)

end SockLynx
