import SockLynx.Verified.ModeFlag
import SockLynx.Verified.Reply

/-!
# Sequences of mode switches

`socklynx_socket_nonblocking` reads the status flags of the descriptor, stores
them with `O_NONBLOCK` set or cleared, and writes the same to the bit
NONBLOCKING of `sock->flags` where that succeeded.  So the two bits are
registers that a successful call overwrites and a failing call leaves alone,
and all the other bits belong to the frame.

## Main results

* `SockEffect.switched` — one switch on POSIX: both bits, the frame, and the
  value returned.
* `mode_switches` — after any sequence of switches both bits are as the last
  successful one asked for, and nothing else has moved.
-/

namespace SockLynx

open SockLynx.Lib.Masks
open SockLynx.Lib.Runs

variable {ι : Type} [DecidableEq ι]

/-! ## Switches -/

/-- A call of `socklynx_socket_nonblocking` and the system's answers. -/
structure Switch where
  enabled : UInt32
  answers : Answers

/-- One switch of socket `i`, as a step of a session. -/
def switchStep (b : Build) (i : ι) (w : World ι) (s : Switch) : Option (Outcome × World ι) :=
  pluginStep b w ⟨i, .socketNonblocking s.enabled, s.answers⟩

/-- What a switch returns where the flags can be read: `SL_OK` exactly when
`F_SETFL` is granted. -/
def switchReturn (answer : Except Int32 Unit) : Int32 := if answer.isOk then slOk else slErr

/-- The mode a call that returned `r` has set. -/
def modeSet (nonblocking : Bool) (r : Int32) : Option Bool :=
  if r = slOk then some nonblocking else none

/-- The mode that the last successful call of a sequence asked for. -/
def lastMode (steps : List Switch) (outcomes : List Outcome) : Option Bool :=
  (writes (fun s o => modeSet (s.enabled != 0) o.ret) steps outcomes).getLast?

/-- `O_NONBLOCK` is set in the status flags of a descriptor. -/
def Desc.hasNonblock (p : Platform) (d : Desc ι) : Bool := d.status &&& p.oNonblock != 0

/-- Apart from the two mode bits and `sock->error` the socket, its descriptor
and everyone else's are in `w'` what they were in `w`. -/
structure OnlyMode (b : Build) (i : ι) (w w' : World ι) (d d' : Desc ι) : Prop where
  sock : w'.socks i =
    { w.socks i with flags := (w'.socks i).flags, error := (w'.socks i).error }
  flags : (w'.socks i).flags &&& ~~~SlSockFlag.nonblocking.val =
    (w.socks i).flags &&& ~~~SlSockFlag.nonblocking.val
  desc : d' = { d with status := d'.status }
  status : d'.status &&& ~~~b.platform.oNonblock = d.status &&& ~~~b.platform.oNonblock
  socks : ∀ j, j ≠ i → w'.socks j = w.socks j
  fds : ∀ x, x ≠ w.fd b i → w'.os.fds x = w.os.fds x

section Steps

variable {b : Build} {a : Answers} {i : ι} {w w₁ w' : World ι} {d d₁ d' : Desc ι} {r : Int32}
  {nonblocking : Bool}

omit [DecidableEq ι] in
theorem OnlyMode.refl (b : Build) (i : ι) (w : World ι) (d : Desc ι) : OnlyMode b i w w d d :=
  ⟨rfl, rfl, rfl, rfl, fun _ _ => rfl, fun _ _ => rfl⟩

omit [DecidableEq ι] in
theorem OnlyMode.fd_eq (h : OnlyMode b i w w' d d') : w'.fd b i = w.fd b i := by
  simp only [World.fd]
  rw [h.sock]

omit [DecidableEq ι] in
theorem OnlyMode.trans (h : OnlyMode b i w w₁ d d₁) (h' : OnlyMode b i w₁ w' d₁ d') :
    OnlyMode b i w w' d d' where
  sock := by
    rw [h'.sock, h.sock]
  flags := h'.flags.trans h.flags
  desc := by
    rw [h'.desc, h.desc]
  status := h'.status.trans h.status
  socks j hj := (h'.socks j hj).trans (h.socks j hj)
  fds x hx := (h'.fds x (h.fd_eq ▸ hx)).trans (h.fds x hx)

/-! ## One switch -/

/-- A mode switch leaves the other bits of `sock->flags` alone. -/
theorem modeFlags_rest (nonblocking : Bool) (flags : UInt32) :
    modeFlags nonblocking flags &&& ~~~SlSockFlag.nonblocking.val =
      flags &&& ~~~SlSockFlag.nonblocking.val :=
  modeFlags_other (by decide) nonblocking flags

omit [DecidableEq ι] in
/-- The argument of `F_SETFL` has the other status flags of the descriptor. -/
theorem setflArg_rest (hd : w.os.fds (w.fd b i) = some d) (hget : a.getfl = .ok ())
    (nonblocking : Bool) :
    w.setflArg b a i nonblocking &&& ~~~b.platform.oNonblock =
      d.status &&& ~~~b.platform.oNonblock := by
  have hvalue : w.getflValue b a i = d.status := by
    rw [World.getflValue, Os.onDesc_ok_iff.mpr ⟨hd, hget⟩]
  have hdisjoint : b.platform.oNonblock &&& ~~~b.platform.oNonblock = 0 := by
    cases b.platform <;> decide
  cases nonblocking with
  | true =>
      rw [World.setflArg, if_pos rfl, hvalue, Int32.or_comm]
      exact int32_set_other _ hdisjoint
  | false =>
      rw [World.setflArg, if_neg (by simp), hvalue, Int32.and_comm (~~~_)]
      exact int32_clear_other _ hdisjoint

omit [DecidableEq ι] in
/-- On POSIX a switch of an open descriptor is refused exactly when `F_SETFL`
is. -/
theorem mode_refusal_eq (hp : b.platform.winsock = false) (hd : w.os.fds (w.fd b i) = some d) :
    (.mode nonblocking : SockOp ι).refusal b a i w = refusedWith a.setfl := by
  simp only [SockOp.refusal, modeAnswer, hp, Bool.false_eq_true, if_false, Os.onDesc, hd]
  cases a.setfl <;> rfl

/-- What one switch does on POSIX, where the flags of the descriptor can be
read. -/
structure Switched (b : Build) (a : Answers) (i : ι) (w w' : World ι) (d d' : Desc ι)
    (nonblocking : Bool) (r : Int32) : Prop where
  ret : r = switchReturn a.setfl
  opened : w'.os.fds (w'.fd b i) = some d'
  frame : OnlyMode b i w w' d d'
  flag : (w'.socks i).hasFlag .nonblocking =
    (modeSet nonblocking r).getD ((w.socks i).hasFlag .nonblocking)
  mode : d'.hasNonblock b.platform = (modeSet nonblocking r).getD (d.hasNonblock b.platform)

theorem SockEffect.switched (hp : b.platform.winsock = false)
    (hd : w.os.fds (w.fd b i) = some d) (hget : a.getfl = .ok ())
    (h : SockEffect b a i w (.mode nonblocking) r w') :
    ∃ d', Switched b a i w w' d d' nonblocking r := by
  cases h with
  | @refused _ _ e hc hr =>
      rw [mode_refusal_eq hp hd] at hr
      have hset : a.setfl = .error e := refusedWith_eq_some.mp hr
      have hmode : modeSet nonblocking slErr = none := if_neg slOk_ne_slErr.symm
      refine ⟨d, {
        ret := ?_
        opened := by simpa using hd
        frame := {
          sock := by simp
          flags := by simp
          desc := rfl
          status := rfl
          socks := fun j hj => by simp [World.setSock_of_ne _ _ hj]
          fds := fun x _ => by simp }
        flag := by simp [hmode, SlSock.hasFlag]
        mode := ?_ }⟩
      · rw [hset]
        rfl
      · rw [hmode]
        rfl
  | @modeDone _ _ d₁ hc hd₁ ha =>
      obtain rfl : d = d₁ := Option.some.inj (hd.symm.trans hd₁)
      have hset : a.setfl = .ok () := by simpa [modeAnswer, hp] using ha
      have hmode : modeSet nonblocking slOk = some nonblocking := if_pos rfl
      have hdesc : w.modeDesc b a i nonblocking d =
          { d with status := w.setflArg b a i nonblocking } := by
        simp [World.modeDesc, hp]
      refine ⟨{ d with status := w.setflArg b a i nonblocking }, {
        ret := ?_
        opened := by simp [hdesc]
        frame := {
          sock := by simp
          flags := by simpa using modeFlags_rest nonblocking (w.socks i).flags
          desc := rfl
          status := setflArg_rest hd hget nonblocking
          socks := fun j hj => by simp [World.setSock_of_ne _ _ hj]
          fds := fun x hx => by simp [World.setDesc_of_ne _ _ hx] }
        flag := by simp [hmode, SlSock.hasFlag, modeFlags_mask]
        mode := ?_ }⟩
      · rw [hset]
        rfl
      · rw [hmode, Bool.eq_iff_iff, Desc.hasNonblock, bne_iff_ne]
        exact setflArg_mask nonblocking

/-- A switch of any socket returns. -/
theorem exists_switchStep (b : Build) (i : ι) (w : World ι) (s : Switch) :
    ∃ o w', switchStep b i w s = some (o, w') := by
  obtain ⟨r, w', he⟩ := SockOp.exists_effect b s.answers i w.clearLog (.mode (s.enabled != 0))
  exact ⟨⟨r, w'.os.log⟩, w', pluginStep_iff.mpr ⟨.op rfl rfl trivial he, rfl⟩⟩

theorem switchStep_switched {s : Switch} {o : Outcome} (hp : b.platform.winsock = false)
    (hd : w.os.fds (w.fd b i) = some d) (hget : s.answers.getfl = .ok ())
    (h : switchStep b i w s = some (o, w')) :
    ∃ d', Switched b s.answers i w w' d d' (s.enabled != 0) o.ret := by
  obtain ⟨ret, events⟩ := o
  cases (pluginStep_iff.mp h).1 with
  | guarded hnull => simp [Call.hasNull] at hnull
  | op hop _ _ he =>
      obtain rfl := Option.some.inj hop
      have hd : w.clearLog.os.fds (w.clearLog.fd b i) = some d := hd
      obtain ⟨d', hs⟩ := he.switched hp hd hget
      exact ⟨d', hs.ret, hs.opened, ⟨hs.frame.sock, hs.frame.flags, hs.frame.desc,
        hs.frame.status, hs.frame.socks, hs.frame.fds⟩, hs.flag, hs.mode⟩

end Steps

/-! ## Sequences -/

/-- The mode of the descriptor of socket `i`. -/
def World.descMode (w : World ι) (b : Build) (i : ι) : Bool :=
  (w.os.fds (w.fd b i)).any (Desc.hasNonblock b.platform)

/-- The invariant of a sequence of switches that starts in `w₀`, where the
descriptor is `d₀`. -/
def OnlyModeSince (b : Build) (i : ι) (w₀ : World ι) (d₀ : Desc ι) (w : World ι) : Prop :=
  ∃ d, w.os.fds (w.fd b i) = some d ∧ OnlyMode b i w₀ w d₀ d

section Sequences

variable {b : Build} {i : ι} {w₀ w w' : World ι} {d₀ : Desc ι} {s : Switch} {o : Outcome}

theorem OnlyModeSince.switched (hp : b.platform.winsock = false)
    (hI : OnlyModeSince b i w₀ d₀ w) (hget : s.answers.getfl = .ok ())
    (h : switchStep b i w s = some (o, w')) :
    ∃ d d', w.os.fds (w.fd b i) = some d ∧ OnlyMode b i w₀ w d₀ d ∧
      Switched b s.answers i w w' d d' (s.enabled != 0) o.ret := by
  obtain ⟨d, hd, hframe⟩ := hI
  obtain ⟨d', hs⟩ := switchStep_switched hp hd hget h
  exact ⟨d, d', hd, hframe, hs⟩

theorem OnlyModeSince.step (hp : b.platform.winsock = false)
    (hI : OnlyModeSince b i w₀ d₀ w) (hget : s.answers.getfl = .ok ())
    (h : switchStep b i w s = some (o, w')) : OnlyModeSince b i w₀ d₀ w' := by
  obtain ⟨d, d', _, hframe, hs⟩ := hI.switched hp hget h
  exact ⟨d', hs.opened, hframe.trans hs.frame⟩

/-- A switch overwrites the mode of the descriptor or leaves it alone. -/
theorem OnlyModeSince.descMode (hp : b.platform.winsock = false)
    (hI : OnlyModeSince b i w₀ d₀ w) (hget : s.answers.getfl = .ok ())
    (h : switchStep b i w s = some (o, w')) :
    w'.descMode b i = (modeSet (s.enabled != 0) o.ret).getD (w.descMode b i) := by
  obtain ⟨d, d', hd, _, hs⟩ := hI.switched hp hget h
  simpa only [World.descMode, hd, hs.opened, Option.any_some] using hs.mode

/-- A switch overwrites the bit NONBLOCKING or leaves it alone. -/
theorem OnlyModeSince.hasFlag (hp : b.platform.winsock = false)
    (hI : OnlyModeSince b i w₀ d₀ w) (hget : s.answers.getfl = .ok ())
    (h : switchStep b i w s = some (o, w')) :
    (w'.socks i).hasFlag .nonblocking =
      (modeSet (s.enabled != 0) o.ret).getD ((w.socks i).hasFlag .nonblocking) := by
  obtain ⟨d, d', _, _, hs⟩ := hI.switched hp hget h
  exact hs.flag

theorem OnlyModeSince.ret (hp : b.platform.winsock = false)
    (hI : OnlyModeSince b i w₀ d₀ w) (hget : s.answers.getfl = .ok ())
    (h : switchStep b i w s = some (o, w')) : o.ret = switchReturn s.answers.setfl := by
  obtain ⟨d, d', _, _, hs⟩ := hI.switched hp hget h
  exact hs.ret

end Sequences

/--
**Mode switches.**  On POSIX, with or without assertions, for a socket in any
state on an open descriptor, with any flags, and for any sequence of switches
with any arguments during which `F_GETFL` is granted: every call returns,
`SL_OK` exactly when its `F_SETFL` is granted.  At the end the bit NONBLOCKING
and `O_NONBLOCK` are what the last successful call asked for, each what it was
at the start if no call succeeded, and nothing but these two bits and
`sock->error` has changed.
-/
theorem mode_switches (b : Build) (hp : b.platform.winsock = false) (i : ι) (w : World ι)
    {d : Desc ι} (hd : w.os.fds (w.fd b i) = some d) (steps : List Switch)
    (hget : ∀ s ∈ steps, s.answers.getfl = .ok ()) :
    ∃ outcomes w' d', exec (switchStep b i) w steps = some (outcomes, w') ∧
      outcomes.map Outcome.ret = steps.map (fun s => switchReturn s.answers.setfl) ∧
      w'.os.fds (w'.fd b i) = some d' ∧
      (w'.socks i).hasFlag .nonblocking =
        (lastMode steps outcomes).getD ((w.socks i).hasFlag .nonblocking) ∧
      d'.hasNonblock b.platform =
        (lastMode steps outcomes).getD (d.hasNonblock b.platform) ∧
      OnlyMode b i w w' d d' := by
  have hstart : OnlyModeSince b i w d w := ⟨d, hd, OnlyMode.refl b i w d⟩
  obtain ⟨outcomes, w', hrun⟩ := exec_of_total (exists_switchStep b i) w steps
  have hinv : ∀ u s o u', OnlyModeSince b i w d u → s.answers.getfl = .ok () →
      switchStep b i u s = some (o, u') → OnlyModeSince b i w d u' :=
    fun _ _ _ _ hI hC h => hI.step hp hC h
  have hret := exec_answers hinv (fun _ _ _ _ hI hC h => hI.ret hp hC h) hstart hget hrun
  have hflag := exec_register hinv (fun _ _ _ _ hI hC h => hI.hasFlag hp hC h) hstart hget hrun
  have hmode := exec_register hinv (fun _ _ _ _ hI hC h => hI.descMode hp hC h) hstart hget hrun
  obtain ⟨d', hd', hframe⟩ := exec_invariant hinv hstart hget hrun
  refine ⟨outcomes, w', d', hrun, hret, hd', hflag, ?_, hframe⟩
  rw [World.descMode, World.descMode, hd, hd'] at hmode
  exact hmode

/-- The theorem at a socket that is switched to nonblocking, and then told to
block by a call that the system refuses. -/
theorem mode_switches_refused :
    ∃ outcomes w' d', exec (switchStep ⟨true, .posix⟩ ()) (World.listening .posix)
        [⟨1, Answers.granting 3⟩, ⟨0, { Answers.granting 3 with setfl := .error 5 }⟩] =
          some (outcomes, w') ∧
      outcomes.map Outcome.ret = [slOk, slErr] ∧
      w'.os.fds 3 = some d' ∧ (w'.socks ()).hasFlag .nonblocking = true ∧
      d'.hasNonblock .posix = true := by
  have hd : ∃ d, (World.listening .posix).os.fds
      ((World.listening .posix).fd ⟨true, .posix⟩ ()) = some d := ⟨_, rfl⟩
  obtain ⟨d, hd⟩ := hd
  obtain ⟨outcomes, w', d', hrun, hret, hd', hflag, hmode, hframe⟩ :=
    mode_switches ⟨true, .posix⟩ rfl () (World.listening .posix) hd
      [⟨1, Answers.granting 3⟩, ⟨0, { Answers.granting 3 with setfl := .error 5 }⟩]
      (by simp [Answers.granting])
  have hret : outcomes.map Outcome.ret = [slOk, slErr] := hret
  obtain ⟨o, rest, rfl, ho, hrest⟩ := List.map_eq_cons_iff.mp hret
  obtain ⟨o', rest', rfl, ho', hrest'⟩ := List.map_eq_cons_iff.mp hrest
  have hlast : lastMode [⟨1, Answers.granting 3⟩,
      ⟨0, { Answers.granting 3 with setfl := .error 5 }⟩] (o :: o' :: rest') = some true := by
    have hne : slErr ≠ slOk := slOk_ne_slErr.symm
    simp [lastMode, writes, modeSet, ho, ho', hne]
  rw [hlast] at hflag hmode
  rw [hframe.fd_eq] at hd'
  exact ⟨_, w', d', hrun, hret, hd', hflag, hmode⟩

end SockLynx
