import SockLynx.Verified.FlagTruth

/-!
# The NONBLOCKING flag and the descriptor

The bit `SL_SOCK_FLAG_NONBLOCKING` of `sock->flags` is written by a successful
mode switch together with `O_NONBLOCK` of the descriptor.  A new descriptor
blocks, but `sl_sock_create` does not clear the bit; it is already set where a
mode switch succeeded before the open, on descriptor 0 or on the descriptor of
a half-finished open.

## Main results

* `ModeTruth` — the flag of a CREATED or BOUND socket is the mode of its
  descriptor.
* `modeFlag_iff` — in a session the flag tells the truth exactly as long as no
  open creates a descriptor for a socket whose flag is set.
-/

namespace SockLynx

open SockLynx.Lib.Masks
open SockLynx.Lib.Runs

/-- `O_NONBLOCK` is set on a descriptor. -/
def Desc.Nonblocking (p : Platform) (d : Desc Unit) : Prop := d.status &&& p.oNonblock ≠ 0

/-- While the socket is CREATED or BOUND, NONBLOCKING is the descriptor's
mode. -/
def ModeTruth (b : Build) (w : World Unit) : Prop :=
  FlagTruth .nonblocking (Desc.Nonblocking b.platform) w

/-- The invariant of a session whose flag tells the truth. -/
structure ModeInv (b : Build) (w : World Unit) : Prop where
  valid : w.Valid b
  truth : ModeTruth b w

/-- A call opens the socket, the open creates a descriptor, and the flag was
set before. -/
def CreatedDirty (b : Build) (w : World Unit) (e : Step Unit (Call Unit)) : Prop :=
  e.call = .socketOpen ∧ w.Creates b e.answers () ∧ w.flag .nonblocking = true

theorem ModeInv.clearLog {b : Build} {w : World Unit} (h : ModeInv b w) :
    ModeInv b w.clearLog :=
  ⟨h.valid, h.truth⟩

section Steps

variable {b : Build} {a : Answers} {w w' : World Unit} {op : SockOp Unit} {r : Int32}

/-! ## Masks -/

theorem modeFlags_mask (nonblocking : Bool) (flags : UInt32) :
    (modeFlags nonblocking flags &&& SlSockFlag.nonblocking.val != 0) = nonblocking := by
  cases nonblocking with
  | true =>
      simp only [modeFlags, if_true, uint32_set_same]
      decide
  | false =>
      simp only [modeFlags, Bool.false_eq_true, if_false, uint32_clear_same]
      decide

theorem setflArg_mask {ι : Type} {w : World ι} {i : ι} (nonblocking : Bool) :
    w.setflArg b a i nonblocking &&& b.platform.oNonblock ≠ 0 ↔ nonblocking = true := by
  cases nonblocking with
  | true =>
      simp only [World.setflArg, if_true, Int32.or_comm b.platform.oNonblock, int32_set_same]
      cases b.platform <;> decide
  | false =>
      simp only [World.setflArg, Bool.false_eq_true, if_false,
        Int32.and_comm (~~~b.platform.oNonblock), int32_clear_same]
      simp

/-! ## Steps -/

/-- A mode switch makes the flag true. -/
theorem ModeTruth.of_mode {nonblocking : Bool} (hw : b.platform.winsock = false)
    (hv : w.Valid b) (hr : r ≠ slErr) (he : SockEffect b a () w (.mode nonblocking) r w') :
    ModeTruth b w' := by
  cases he with
  | refused _ _ => exact absurd rfl hr
  | modeDone _ hd _ =>
      intro _
      rw [hv.fd_eq] at hd ⊢
      simp [World.flag, SlSock.hasFlag, modeFlags_mask, World.Holds, Desc.Nonblocking,
        World.modeDesc, hw, setflArg_mask]

/-- No operation but creation makes the flag untrue. -/
theorem ModeTruth.step (hw : b.platform.winsock = false) (hv : w.Valid b)
    (hI : ModeTruth b w) (hbind : op = .bind → w.IsOpen ())
    (hcreate : ∀ type proto, op ≠ .create type proto) (he : SockEffect b a () w op r w') :
    ModeTruth b w' := by
  by_cases hmode : (∃ nonblocking, op = .mode nonblocking) ∧ r ≠ slErr
  · obtain ⟨⟨nonblocking, rfl⟩, hr⟩ := hmode
    exact ModeTruth.of_mode hw hv hr he
  · refine FlagTruth.step hv (fun _ _ => Iff.rfl) hI hbind hcreate (fun nonblocking h => ?_) he
    by_contra hr
    exact hmode ⟨⟨nonblocking, h⟩, hr⟩

/-- A created socket's flag is what it was, and its descriptor blocks. -/
theorem ModeTruth.create_iff {type proto : UInt32} (hclosed : ¬w.IsOpen ())
    (he : SockEffect b a () w (.create type proto) r w') :
    ModeTruth b w' ↔ ¬(r = slOk ∧ w.flag .nonblocking = true) := by
  cases he with
  | createRefused hs =>
      refine iff_of_true (fun hopen => absurd ?_ hclosed) fun h => slOk_ne_slErr h.1.symm
      simpa [World.IsOpen] using hopen
  | createHalf hs h6 ho =>
      refine iff_of_true (fun hopen => absurd ?_ hclosed) fun h => slOk_ne_slErr h.1.symm
      simpa [World.IsOpen] using hopen
  | createV6 hs h6 ho =>
      have hflag : SlSockFlag.ipv4Disabled.val &&& SlSockFlag.nonblocking.val = 0 := by decide
      simp [ModeTruth, FlagTruth, World.IsOpen, World.flag, SlSock.hasFlag, World.Holds,
        Desc.Nonblocking, uint32_set_other _ hflag, World.freshDesc, Desc.fresh,
        int32_clear_same]
  | createOther hs h6 =>
      simp [ModeTruth, FlagTruth, World.IsOpen, World.flag, SlSock.hasFlag, World.Holds,
        Desc.Nonblocking, World.freshDesc, Desc.fresh, int32_clear_same]
  | refused hc _ => simp [SockOp.decisive] at hc

/-- A call keeps the flag true exactly when it creates no descriptor for a
flagged socket. -/
theorem CallEffect.modeTruth_iff {call : Call Unit} (hb : b.asserts = true)
    (hw : b.platform.winsock = false) (hI : ModeInv b w) (h : CallEffect b a () w call r w') :
    ModeTruth b w' ↔
      ¬(call = .socketOpen ∧ w.Creates b a () ∧ w.flag .nonblocking = true) := by
  cases h with
  | guarded hnull =>
      refine iff_of_true hI.truth ?_
      rintro ⟨rfl, _⟩
      simp [Call.hasNull] at hnull
  | notCreated hready he hr =>
      rw [ModeTruth.create_iff (World.not_isOpen_of_ready hb hready) he,
        SockEffect.create_ok_iff he]
      simp
  | @created _ _ w₁ _ hready hc hr he =>
      have hbind : ModeTruth b w' ↔ ModeTruth b w₁ :=
        SockEffect.flagTruth_bind_iff (hc.valid hI.valid) (Or.inl (hc.created_state hr))
          (fun _ _ => Iff.rfl) he
      have hiff := ModeTruth.create_iff (World.not_isOpen_of_ready hb hready) hc
      rw [SockEffect.create_ok_iff hc] at hiff
      simpa using hbind.trans hiff
  | op hop hnull hready he =>
      obtain ⟨hbind, hcreate⟩ := Call.op_ne hop
      refine iff_of_true (hI.truth.step hw hI.valid (fun h => absurd h hbind) hcreate he) ?_
      rintro ⟨rfl, _⟩
      simp [Call.op] at hop

end Steps

/--
**The NONBLOCKING flag.**  On POSIX, with assertions, for any sequence of calls
on one socket and any answers: after every call the flag of a CREATED or BOUND
socket is its descriptor's mode, exactly as long as no open creates a
descriptor while the flag is set.
-/
theorem modeFlag_iff (p : Platform) (hp : p.winsock = false) (w : World Unit)
    (endpoint : SlEndpoint) (steps : List (Step Unit (Call Unit))) :
    (ModeTruth ⟨true, p⟩ (w.start fun _ => endpoint) ∧
        Along (pluginStep ⟨true, p⟩) (fun _ _ _ w' => ModeTruth ⟨true, p⟩ w')
          (w.start fun _ => endpoint) steps) ↔
      Along (pluginStep ⟨true, p⟩) (fun w e _ _ => ¬CreatedDirty ⟨true, p⟩ w e)
        (w.start fun _ => endpoint) steps := by
  have hstart : ModeTruth ⟨true, p⟩ (w.start fun _ => endpoint) := FlagTruth.start w _
  have hI : ModeInv ⟨true, p⟩ (w.start fun _ => endpoint) := ⟨w.start_valid _ _, hstart⟩
  rw [and_iff_right hstart]
  refine along_iff_of_invariant (fun w e _ w' hI h => ?_) (fun w e _ w' hI h hC => ?_) hI
  · have hiff := CallEffect.modeTruth_iff rfl hp hI.clearLog (pluginStep_iff.mp h).1
    exact hiff
  · have he := (pluginStep_iff.mp h).1
    exact ⟨he.valid hI.clearLog.valid,
      (CallEffect.modeTruth_iff rfl hp hI.clearLog he).mpr hC⟩

/-- A socket is opened and then switched. -/
def openThenSwitch : List (Step Unit (Call Unit)) :=
  [⟨(), .socketOpen, Answers.granting 3⟩, ⟨(), .socketNonblocking 1, Answers.granting 3⟩]

/-- The rule at work: the socket ends with the flag, and its descriptor is
nonblocking. -/
theorem modeFlag_iff_switched :
    (∃ outcomes w', exec (pluginStep ⟨true, .posix⟩) (World.small.start fun _ => anyEndpoint 2)
        openThenSwitch = some (outcomes, w') ∧ w'.flag .nonblocking = true) ∧
      Along (pluginStep ⟨true, .posix⟩) (fun _ _ _ w' => ModeTruth ⟨true, .posix⟩ w')
        (World.small.start fun _ => anyEndpoint 2) openThenSwitch := by
  refine ⟨⟨_, _, rfl, rfl⟩,
    ((modeFlag_iff .posix rfl World.small (anyEndpoint 2) openThenSwitch).mpr ?_).2⟩
  refine (along_cons_iff rfl).mpr ⟨?_, (along_cons_iff rfl).mpr ⟨?_, trivial⟩⟩
  · rintro ⟨_, _, hflag⟩
    exact absurd hflag (by decide)
  · rintro ⟨hopen, _⟩
    exact nomatch hopen

/-- The failing session: a mode switch before the open, which succeeds on
standard input, leaves the flag set on a blocking descriptor. -/
theorem modeFlag_switched_early :
    ¬Along (pluginStep ⟨true, .posix⟩) (fun _ _ _ w' => ModeTruth ⟨true, .posix⟩ w')
      (World.small.start fun _ => anyEndpoint 2)
      [⟨(), .socketNonblocking 1, Answers.granting 3⟩,
        ⟨(), .socketOpen, Answers.granting 3⟩] := by
  intro h
  obtain ⟨_, h⟩ := h ⟨slOk, _⟩ _ rfl
  obtain ⟨htruth, _⟩ := h ⟨slOk, _⟩ _ rfl
  obtain ⟨d, hd, hmode⟩ := (htruth (Or.inr rfl)).mp rfl
  obtain rfl := Option.some.inj hd
  exact hmode rfl

end SockLynx
