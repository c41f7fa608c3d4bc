import SockLynx.Verified.FlagTruth

/-!
# The IPV4_DISABLED flag and `IPV6_V6ONLY`

For an IPv6 endpoint `sl_sock_create` turns `IPV6_V6ONLY` off and then sets
`SL_SOCK_FLAG_IPV4_DISABLED`, the flag for the option being on.  So the flag
is wrong on every IPv6 socket that opens, and right on all others: an IPv4
descriptor has no such option and the flag stays clear.

In a build without assertions there is a second way to be wrong: an open
socket opened again, where the system refuses the option and the new
descriptor starts with it on.

## Main results

* `V6Truth` — IPV4_DISABLED is the option of an IPv6 descriptor.
* `v6Only_iff` — in a session the flag tells the truth exactly as long as no
  open mismatches (`V6Mismatch`).
-/

namespace SockLynx

open SockLynx.Lib.Masks
open SockLynx.Lib.Runs

/-- An IPv6 descriptor that carries no IPv4 traffic. -/
def Desc.V6Only (p : Platform) (d : Desc Unit) : Prop := d.domain = p.afInet6 ∧ d.v6only = true

/-- While the socket is CREATED or BOUND, IPV4_DISABLED says whether its
descriptor is restricted to IPv6. -/
def V6Truth (b : Build) (w : World Unit) : Prop :=
  FlagTruth .ipv4Disabled (Desc.V6Only b.platform) w

/-- A creation on an IPv6 endpoint gets a descriptor, and either the system
grants turning the option off, or the socket was open already and the new
descriptor has the option on. -/
def World.MismatchesV6 (w : World Unit) (b : Build) (a : Answers) : Prop :=
  w.isV6 b () = true ∧ (∃ d, w.os.onSocket b.platform a = .ok d) ∧
    (a.setsockopt = .ok () ∨ w.IsOpen () ∧ a.v6only = true)

/-- A call opens the socket with such a creation. -/
def V6Mismatch (b : Build) (w : World Unit) (e : Step Unit (Call Unit)) : Prop :=
  e.call = .socketOpen ∧ w.MismatchesV6 b e.answers

/-- The invariant of a session whose flag tells the truth: it is never set. -/
structure V6Inv (b : Build) (w : World Unit) : Prop where
  valid : w.Valid b
  clear : w.flag .ipv4Disabled = false
  truth : V6Truth b w

theorem V6Inv.clearLog {b : Build} {w : World Unit} (h : V6Inv b w) : V6Inv b w.clearLog :=
  ⟨h.valid, h.clear, h.truth⟩

section Steps

variable {b : Build} {a : Answers} {w w' : World Unit} {op : SockOp Unit} {r : Int32}

/-- Creation aside, an operation never sets IPV4_DISABLED. -/
theorem SockEffect.v6flag_clear (hcreate : ∀ type proto, op ≠ .create type proto)
    (hI : w.flag .ipv4Disabled = false) (he : SockEffect b a () w op r w') :
    w'.flag .ipv4Disabled = false := by
  cases he with
  | createRefused | createHalf | createV6 | createOther => exact (hcreate _ _ rfl).elim
  | refused _ _ => simpa [World.flag, SlSock.hasFlag] using hI
  | bindDone _ _ _ => simpa [World.flag, SlSock.hasFlag] using hI
  | closeDone _ _ _ => simp [World.flag, SlSock.hasFlag]
  | modeDone _ _ _ =>
      have hmask : SlSockFlag.nonblocking.val &&& SlSockFlag.ipv4Disabled.val = 0 := by decide
      simpa [World.flag, SlSock.hasFlag, modeFlags_other hmask] using hI
  | sendDone _ _ _ => exact hI
  | recvDone _ _ _ => simpa [World.flag, SlSock.hasFlag] using hI

/-- Creation aside, no operation makes the flag untrue. -/
theorem V6Truth.step (hI : V6Inv b w) (hbind : op = .bind → w.IsOpen ())
    (hcreate : ∀ type proto, op ≠ .create type proto) (he : SockEffect b a () w op r w') :
    V6Truth b w' := by
  have hframe : (∀ nonblocking, op = .mode nonblocking → r = slErr) → V6Truth b w' :=
    fun hmode => FlagTruth.step hI.valid (fun _ _ => Iff.rfl) hI.truth hbind hcreate hmode he
  cases op with
  | mode nonblocking =>
      have hmask : SlSockFlag.nonblocking.val &&& SlSockFlag.ipv4Disabled.val = 0 := by decide
      have hφ : ∀ d, Desc.V6Only b.platform (w.modeDesc b a () nonblocking d) ↔
          Desc.V6Only b.platform d := by
        intro d
        unfold World.modeDesc
        split <;> rfl
      obtain ⟨hflag, hopen, hholds⟩ := SockEffect.mode_flag hI.valid hmask hφ he
      unfold V6Truth FlagTruth
      rw [hflag, hopen, hholds]
      exact hI.truth
  | create | bind | close | send | recv => exact hframe fun _ h => nomatch h

/-- What a creation makes of the flag and the descriptor. -/
theorem V6Inv.create_iff {type proto : UInt32} (hI : V6Inv b w)
    (he : SockEffect b a () w (.create type proto) r w') :
    V6Truth b w' ↔ ¬w.MismatchesV6 b a := by
  have hclear := hI.clear
  unfold World.MismatchesV6
  cases he with
  | createRefused hs =>
      refine iff_of_true ?_ fun h => by simp [hs] at h
      simpa [V6Truth, FlagTruth, World.IsOpen, World.flag, SlSock.hasFlag, World.Holds]
        using hI.truth
  | createHalf hs h6 ho =>
      have haf : (w.socks ()).endpoint.af b.platform = b.platform.afInet6 := by
        simpa [World.isV6, SlEndpoint.isIpv6] using h6
      simp only [World.flag, SlSock.hasFlag] at hclear
      simp [V6Truth, FlagTruth, World.IsOpen, World.flag, SlSock.hasFlag, World.Holds,
        Desc.V6Only, World.freshDesc, Desc.fresh, haf, hclear, h6, hs, ho]
  | createV6 hs h6 ho =>
      refine iff_of_false ?_ (by simp [h6, hs, ho])
      have hmask := uint32_set_same (w.socks ()).flags SlSockFlag.ipv4Disabled.val
      have hset : SlSockFlag.ipv4Disabled.val ≠ 0 := by decide
      simp [V6Truth, FlagTruth, World.IsOpen, World.flag, SlSock.hasFlag, World.Holds,
        Desc.V6Only, hmask, hset]
  | createOther hs h6 =>
      have haf : (w.socks ()).endpoint.af b.platform ≠ b.platform.afInet6 := by
        simpa [World.isV6, SlEndpoint.isIpv6] using h6
      simp only [World.flag, SlSock.hasFlag] at hclear
      simp [V6Truth, FlagTruth, World.IsOpen, World.flag, SlSock.hasFlag, World.Holds,
        Desc.V6Only, World.freshDesc, Desc.fresh, haf, hclear, h6]
  | refused hc _ => simp [SockOp.decisive] at hc

/-- A creation without a mismatch keeps the invariant. -/
theorem V6Inv.create {type proto : UInt32} (hI : V6Inv b w) (hC : ¬w.MismatchesV6 b a)
    (he : SockEffect b a () w (.create type proto) r w') : V6Inv b w' := by
  refine ⟨he.valid hI.valid, ?_, (hI.create_iff he).mpr hC⟩
  have hclear := hI.clear
  cases he with
  | createRefused _ => simpa [World.flag, SlSock.hasFlag] using hclear
  | createHalf _ _ _ => simpa [World.flag, SlSock.hasFlag] using hclear
  | createV6 hs h6 ho => exact absurd ⟨h6, ⟨_, hs⟩, Or.inl ho⟩ hC
  | createOther _ _ => simpa [World.flag, SlSock.hasFlag] using hclear
  | refused hc _ => simp [SockOp.decisive] at hc

/-- Creation aside, an operation keeps the invariant. -/
theorem V6Inv.step (hI : V6Inv b w) (hbind : op = .bind → w.IsOpen ())
    (hcreate : ∀ type proto, op ≠ .create type proto) (he : SockEffect b a () w op r w') :
    V6Inv b w' :=
  ⟨he.valid hI.valid, he.v6flag_clear hcreate hI.clear, V6Truth.step hI hbind hcreate he⟩

/-- A call keeps the flag true exactly when its creation, if it has one, does
not mismatch. -/
theorem CallEffect.v6Truth_iff {call : Call Unit} (hI : V6Inv b w)
    (h : CallEffect b a () w call r w') :
    V6Truth b w' ↔ ¬(call = .socketOpen ∧ w.MismatchesV6 b a) := by
  cases h with
  | guarded hnull =>
      refine iff_of_true hI.truth ?_
      rintro ⟨rfl, _⟩
      simp [Call.hasNull] at hnull
  | notCreated _ he _ => simpa using hI.create_iff he
  | @created _ _ w₁ _ _ hc hr he =>
      have hbind : V6Truth b w' ↔ V6Truth b w₁ :=
        SockEffect.flagTruth_bind_iff (hc.valid hI.valid) (Or.inl (hc.created_state hr))
          (fun _ _ => Iff.rfl) he
      simpa using hbind.trans (hI.create_iff hc)
  | op hop _ _ he =>
      obtain ⟨hbind, hcreate⟩ := Call.op_ne hop
      refine iff_of_true (V6Truth.step hI (fun h => absurd h hbind) hcreate he) ?_
      rintro ⟨rfl, _⟩
      simp [Call.op] at hop

/-- A call whose creation does not mismatch keeps the invariant. -/
theorem CallEffect.v6Inv {call : Call Unit} (hI : V6Inv b w)
    (h : CallEffect b a () w call r w') (hC : ¬(call = .socketOpen ∧ w.MismatchesV6 b a)) :
    V6Inv b w' := by
  cases h with
  | guarded _ => exact hI
  | notCreated _ he _ => exact hI.create (fun hm => hC ⟨rfl, hm⟩) he
  | created _ hc hr he =>
      have hI₁ := hI.create (fun hm => hC ⟨rfl, hm⟩) hc
      exact hI₁.step (fun _ => Or.inl (hc.created_state hr)) SockOp.bind_ne_create he
  | op hop _ _ he =>
      obtain ⟨hbind, hcreate⟩ := Call.op_ne hop
      exact hI.step (fun h => absurd h hbind) hcreate he

end Steps

/--
**The IPV4_DISABLED flag.**  With and without assertions, for any sequence of
calls on one socket and any answers: after every call the flag of a CREATED or
BOUND socket says whether its descriptor is restricted to IPv6, exactly as long
as no open mismatches.
-/
theorem v6Only_iff (b : Build) (w : World Unit) (endpoint : SlEndpoint)
    (steps : List (Step Unit (Call Unit))) :
    (V6Truth b (w.start fun _ => endpoint) ∧
        Along (pluginStep b) (fun _ _ _ w' => V6Truth b w') (w.start fun _ => endpoint) steps) ↔
      Along (pluginStep b) (fun w e _ _ => ¬V6Mismatch b w e) (w.start fun _ => endpoint)
        steps := by
  have hstart : V6Truth b (w.start fun _ => endpoint) := FlagTruth.start w _
  have hclear : (w.start fun _ => endpoint).flag .ipv4Disabled = false :=
    show ((0 : UInt32) &&& SlSockFlag.ipv4Disabled.val != 0) = false by decide
  have hI : V6Inv b (w.start fun _ => endpoint) := ⟨w.start_valid _ _, hclear, hstart⟩
  rw [and_iff_right hstart]
  refine along_iff_of_invariant (fun w e _ w' hI h => ?_) (fun w e _ w' hI h hC => ?_) hI
  · have hiff := CallEffect.v6Truth_iff hI.clearLog (pluginStep_iff.mp h).1
    exact hiff
  · exact CallEffect.v6Inv hI.clearLog (pluginStep_iff.mp h).1 hC

/-- The failing session: an IPv6 socket opened with every call granted carries
IPv4 traffic and is flagged as if it did not. -/
theorem v6Only_opened :
    ¬Along (pluginStep ⟨true, .posix⟩) (fun _ _ _ w' => V6Truth ⟨true, .posix⟩ w')
      (World.small.start fun _ => anyEndpoint 10)
      [⟨(), .socketOpen, Answers.granting 3⟩] := by
  intro h
  obtain ⟨htruth, _⟩ := h ⟨slOk, _⟩ _ rfl
  obtain ⟨d, hd, _, hv6⟩ := (htruth (Or.inr rfl)).mp rfl
  obtain rfl := Option.some.inj hd
  exact absurd hv6 (by decide)

end SockLynx
