import SockLynx.Lib.Masks
import SockLynx.Verified.Frame

/-!
# Flags that mirror the descriptor

Two bits of `sock->flags` repeat a property of the descriptor: NONBLOCKING its
mode, IPV4_DISABLED its `IPV6_V6ONLY` option.  `FlagTruth f φ` says that while
the socket is CREATED or BOUND the bit `f` is set exactly when the descriptor
in `sock->fd` satisfies `φ`.  Creation decides it anew and the mode switch
touches one bit and one property; `FlagTruth.step` is the frame of all other
operations, `SockEffect.mode_flag` that of the mode switch.
-/

namespace SockLynx

open SockLynx.Lib.Masks

/-- The bit `f` of `sock->flags` is set. -/
def World.flag (w : World Unit) (f : SlSockFlag) : Bool := (w.socks ()).hasFlag f

/-- `sock->fd` is an open descriptor that satisfies `φ`. -/
def World.Holds (w : World Unit) (φ : Desc Unit → Prop) : Prop :=
  ∃ d, w.os.fds (w.socks ()).fd = some d ∧ φ d

/-- While the socket is CREATED or BOUND the bit `f` says whether `φ` holds of
its descriptor. -/
def FlagTruth (f : SlSockFlag) (φ : Desc Unit → Prop) (w : World Unit) : Prop :=
  w.IsOpen () → (w.flag f = true ↔ w.Holds φ)

/-- The property does not depend on what the descriptor is bound to. -/
def IgnoresBinds (φ : Desc Unit → Prop) : Prop :=
  ∀ (d : Desc Unit) (binds : List (List UInt8 × UInt32)), φ { d with binds := binds } ↔ φ d

section Frame

variable {b : Build} {a : Answers} {w w' : World Unit} {op : SockOp Unit} {r : Int32}
  {f : SlSockFlag} {φ : Desc Unit → Prop}

/-- A new socket is not open, so its flags are true. -/
theorem FlagTruth.start (w : World Unit) (endpoint : Unit → SlEndpoint) :
    FlagTruth f φ (w.start endpoint) :=
  fun hopen => absurd hopen (w.start_not_isOpen _ ())

/-- Binding keeps flags and descriptor, and an open socket open. -/
theorem SockEffect.bind_flag (hv : w.Valid b) (hφ : IgnoresBinds φ)
    (h : SockEffect b a () w .bind r w') :
    w'.flag f = w.flag f ∧ (w.IsOpen () → w'.IsOpen ()) ∧ (w'.Holds φ ↔ w.Holds φ) := by
  cases h with
  | refused _ _ =>
      exact ⟨by simp [World.flag, SlSock.hasFlag], by simp [World.IsOpen],
        by simp [World.Holds]⟩
  | bindDone _ hd _ =>
      refine ⟨by simp [World.flag, SlSock.hasFlag], by simp [World.IsOpen], ?_⟩
      rw [hv.fd_eq] at hd ⊢
      simpa [World.Holds, hd] using hφ _ _

/-- Bound after a successful creation, a socket's flag is as true as it was. -/
theorem SockEffect.flagTruth_bind_iff (hv : w.Valid b) (hopen : w.IsOpen ())
    (hφ : IgnoresBinds φ) (h : SockEffect b a () w .bind r w') :
    FlagTruth f φ w' ↔ FlagTruth f φ w := by
  obtain ⟨hflag, hopen', hholds⟩ := SockEffect.bind_flag (f := f) hv hφ h
  unfold FlagTruth
  rw [hflag, hholds]
  exact ⟨fun h _ => h (hopen' hopen), fun h _ => h hopen⟩

/-- No operation but creation and the mode switch makes a flag untrue. -/
theorem FlagTruth.step (hv : w.Valid b) (hφ : IgnoresBinds φ)
    (hI : FlagTruth f φ w) (hbind : op = .bind → w.IsOpen ())
    (hcreate : ∀ type proto, op ≠ .create type proto)
    (hmode : ∀ nonblocking, op = .mode nonblocking → r = slErr)
    (he : SockEffect b a () w op r w') : FlagTruth f φ w' := by
  cases he with
  | createRefused | createHalf | createV6 | createOther => exact (hcreate _ _ rfl).elim
  | refused _ _ =>
      simpa [FlagTruth, World.IsOpen, World.flag, SlSock.hasFlag, World.Holds] using hI
  | bindDone hc hd ha =>
      exact (SockEffect.flagTruth_bind_iff hv (hbind rfl) hφ (.bindDone hc hd ha)).mpr hI
  | closeDone _ _ _ =>
      intro hopen
      simp only [World.IsOpen, World.setSock_self] at hopen
      exact absurd hopen (by decide)
  | @modeDone nonblocking => exact absurd (hmode nonblocking rfl) slOk_ne_slErr
  | sendDone _ _ _ => exact hI
  | recvDone _ _ _ =>
      simpa [FlagTruth, World.IsOpen, World.flag, SlSock.hasFlag, World.Holds] using hI

/-- A mode switch leaves every other bit of the flags alone. -/
theorem modeFlags_other {m : UInt32} (h : SlSockFlag.nonblocking.val &&& m = 0)
    (nonblocking : Bool) (flags : UInt32) : modeFlags nonblocking flags &&& m = flags &&& m := by
  cases nonblocking with
  | true => simp only [modeFlags, if_true, uint32_set_other _ h]
  | false => simp only [modeFlags, Bool.false_eq_true, if_false, uint32_clear_other _ h]

/-- A mode switch keeps the flags and properties that have nothing to do with
the mode. -/
theorem SockEffect.mode_flag {nonblocking : Bool} (hv : w.Valid b)
    (hmask : SlSockFlag.nonblocking.val &&& f.val = 0)
    (hφ : ∀ d, φ (w.modeDesc b a () nonblocking d) ↔ φ d)
    (h : SockEffect b a () w (.mode nonblocking) r w') :
    w'.flag f = w.flag f ∧ (w'.IsOpen () ↔ w.IsOpen ()) ∧ (w'.Holds φ ↔ w.Holds φ) := by
  cases h with
  | refused _ _ =>
      exact ⟨by simp [World.flag, SlSock.hasFlag], by simp [World.IsOpen],
        by simp [World.Holds]⟩
  | modeDone _ hd _ =>
      refine ⟨by simp [World.flag, SlSock.hasFlag, modeFlags_other hmask],
        by simp [World.IsOpen], ?_⟩
      rw [hv.fd_eq] at hd ⊢
      simp [World.Holds, hd, hφ]

end Frame

end SockLynx
