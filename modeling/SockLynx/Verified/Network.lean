import Mathlib.Data.Finset.Card
import Mathlib.Data.Fintype.Basic
import SockLynx.Model.Plugin

/-!
# Start-up and shut-down are balanced

`WSAStartup` and `WSACleanup` count for the whole process, the contexts of
`sys.h` one by one.  A context that is already where a call would take it
returns early, and any other call changes the context's state exactly when the
system grants it, so the contexts that are STARTED account for the difference
between the two counters.

## Main results

* `SysCall.run_iff` — what a call of `sys.h` does.
* `NetworkInv` — the two counters and the fields of a STARTED context.
* `network_balanced` — the invariant at every point of a session, and what the
  value of each call says about its context.
-/

namespace SockLynx

open SockLynx.Lib.Runs

variable {ι : Type} [DecidableEq ι]

/-! ## What one call does -/

/-- The state a call takes its context to. -/
def SysCall.target : SysCall → UInt32
  | .setup => slSysStateStarted
  | .cleanup => slSysStateStopped

/-- The value the platform's own call returns; POSIX has none to make. -/
def SysCall.answer (b : Build) (a : Answers) : SysCall → Int32
  | .setup => if b.platform.winsock then a.wsaStartup else slOk
  | .cleanup => if b.platform.winsock then a.wsaCleanup else slOk

/-- The world after the platform's own call. -/
def SysCall.kernel (b : Build) (a : Answers) (w : World ι) : SysCall → World ι
  | .setup =>
      if b.platform.winsock then
        { w with os := { w.os with
            wsaStartups := if a.wsaStartup = 0 then w.os.wsaStartups + 1 else w.os.wsaStartups }
          }.note ⟨.wsaStartup, .ok a.wsaStartup.toInt64⟩
      else w
  | .cleanup =>
      if b.platform.winsock then
        { w with os := { w.os with
            wsaCleanups := if a.wsaCleanup = 0 then w.os.wsaCleanups + 1 else w.os.wsaCleanups }
          }.note ⟨.wsaCleanup, .ok a.wsaCleanup.toInt64⟩
      else w

/-- The context after the platform's call returned `rv`.  A start-up stores the
families even where it failed. -/
def SysCall.context (p : Platform) (rv : Int32) (s : SlSys) : SysCall → SlSys
  | .setup =>
      { state := if rv = slOk then slSysStateStarted else s.state
        afInet := p.afInet
        afInet6 := p.afInet6 }
  | .cleanup => { s with state := if rv = slOk then slSysStateStopped else s.state }

/-- Replace context `i`. -/
def World.setCtx (w : World ι) (i : ι) (s : SlSys) : World ι :=
  { w with ctxs := Function.update w.ctxs i s }

/-- How a call of `sys.h` on context `i` can end: at once, or after the
platform's own call. -/
inductive SysEffect (b : Build) (a : Answers) (i : ι) (w : World ι) :
    SysCall → Int32 → World ι → Prop
  | already {call : SysCall} (h : (w.ctxs i).state = call.target) :
      SysEffect b a i w call slOk w
  | called {call : SysCall} (h : (w.ctxs i).state ≠ call.target) :
      SysEffect b a i w call (call.answer b a)
        ((call.kernel b a w).setCtx i (call.context b.platform (call.answer b a) (w.ctxs i)))

section Specs

variable {b : Build} {a : Answers} {i : ι} {w w' : World ι} {call : SysCall} {r : Int32}

theorem SysCall.exists_effect (b : Build) (a : Answers) (i : ι) (w : World ι) (call : SysCall) :
    ∃ r w', SysEffect b a i w call r w' := by
  by_cases h : (w.ctxs i).state = call.target
  · exact ⟨_, _, .already h⟩
  · exact ⟨_, _, .called h⟩

@[simp] theorem assignSys_some (f : SlSys → SlSys) :
    assignSys (some i) f w = .ok ((), w.setCtx i (f (w.ctxs i))) := rfl

@[simp] theorem World.setCtx_setCtx (s t : SlSys) :
    (w.setCtx i s).setCtx i t = w.setCtx i t := by
  simp [World.setCtx]

@[simp] theorem World.setCtx_self (s : SlSys) : (w.setCtx i s).ctxs i = s := by
  simp [World.setCtx]

omit [DecidableEq ι] in
@[simp] theorem SysCall.kernel_ctxs : (call.kernel b a w).ctxs = w.ctxs := by
  cases call <;> simp only [SysCall.kernel] <;> split <;> rfl

omit [DecidableEq ι] in
@[simp] theorem SysCall.kernel_socks : (call.kernel b a w).socks = w.socks := by
  cases call <;> simp only [SysCall.kernel] <;> split <;> rfl

omit [DecidableEq ι] in
theorem sysWsaStartup_eq (hw : b.platform.winsock = true) :
    sysWsaStartup a w = .ok (SysCall.answer b a .setup, SysCall.kernel b a w .setup) := by
  simp [sysWsaStartup, SysCall.answer, SysCall.kernel, hw]

omit [DecidableEq ι] in
theorem sysWsaCleanup_eq (hw : b.platform.winsock = true) :
    sysWsaCleanup a w = .ok (SysCall.answer b a .cleanup, SysCall.kernel b a w .cleanup) := by
  simp [sysWsaCleanup, SysCall.answer, SysCall.kernel, hw]

omit [DecidableEq ι] in
/-- On POSIX there is no call to make. -/
theorem SysCall.of_not_winsock (hw : b.platform.winsock = false) :
    call.answer b a = slOk ∧ call.kernel b a w = w := by
  cases call <;> simp [SysCall.answer, SysCall.kernel, hw]

theorem World.setCtx_ctxs : w.setCtx i (w.ctxs i) = w := by
  simp [World.setCtx]

/-- `sl_sys_setup` -/
theorem slSysSetup_of_effect (h : SysEffect b a i w .setup r w') :
    slSysSetup b a (some i) w = .ok (r, w') := by
  cases h with
  | already h =>
      have h : (w.ctxs i).state = slSysStateStarted := h
      simp [slSysSetup, Sl.bind_apply, derefSys, h]
  | called h =>
      have h : (w.ctxs i).state ≠ slSysStateStarted := h
      cases hw : b.platform.winsock with
      | true =>
          have hk := sysWsaStartup_eq (a := a) (w := w) hw
          by_cases hr : SysCall.answer b a .setup = slOk <;>
            simp [slSysSetup, Sl.bind_apply, derefSys, h, hw, hk, hr, SysCall.context]
      | false =>
          obtain ⟨hr, hk⟩ : SysCall.answer b a .setup = slOk ∧ SysCall.kernel b a w .setup = w :=
            SysCall.of_not_winsock hw
          simp [slSysSetup, Sl.bind_apply, derefSys, h, hw, hr, hk, SysCall.context]

/-- `sl_sys_cleanup` -/
theorem slSysCleanup_of_effect (h : SysEffect b a i w .cleanup r w') :
    slSysCleanup b a (some i) w = .ok (r, w') := by
  cases h with
  | already h =>
      have h : (w.ctxs i).state = slSysStateStopped := h
      simp [slSysCleanup, Sl.bind_apply, derefSys, h]
  | called h =>
      have h : (w.ctxs i).state ≠ slSysStateStopped := h
      cases hw : b.platform.winsock with
      | true =>
          have hsame : (SysCall.kernel b a w .cleanup).setCtx i
              ((SysCall.kernel b a w .cleanup).ctxs i) = SysCall.kernel b a w .cleanup :=
            World.setCtx_ctxs
          rw [SysCall.kernel_ctxs] at hsame
          have hk := sysWsaCleanup_eq (a := a) (w := w) hw
          by_cases hr : SysCall.answer b a .cleanup = slOk <;>
            simp [slSysCleanup, Sl.bind_apply, derefSys, h, hw, hk, hr, SysCall.context, hsame]
      | false =>
          obtain ⟨hr, hk⟩ :
              SysCall.answer b a .cleanup = slOk ∧ SysCall.kernel b a w .cleanup = w :=
            SysCall.of_not_winsock hw
          simp [slSysCleanup, Sl.bind_apply, derefSys, h, hw, hr, hk, SysCall.context]

/-- **Inversion.**  A call of `sys.h` returns `r` and leaves `w'` exactly when
`SysEffect` says so. -/
theorem SysCall.run_iff : call.run b a i w = .ok (r, w') ↔ SysEffect b a i w call r w' := by
  have hrun : ∀ r w', SysEffect b a i w call r w' → call.run b a i w = .ok (r, w') := by
    intro r w' h
    cases call with
    | setup => exact slSysSetup_of_effect h
    | cleanup => exact slSysCleanup_of_effect h
  constructor
  · intro h
    obtain ⟨r', v, he⟩ := SysCall.exists_effect b a i w call
    have heq := hrun _ _ he
    rw [h, Except.ok.injEq, Prod.mk.injEq] at heq
    obtain ⟨rfl, rfl⟩ := heq
    exact he
  · exact hrun r w'

end Specs

/-! ## Sessions -/

section Sessions

variable [Fintype ι] {b : Build} {a : Answers} {i : ι} {w w' : World ι} {call : SysCall}
  {r : Int32}

/-- The contexts that are STARTED. -/
def World.started (w : World ι) : Finset ι :=
  Finset.univ.filter fun j => (w.ctxs j).state = slSysStateStarted

/-- On Winsock the successful start-ups exceed the successful shut-downs by the
number of contexts that are STARTED, and these have the platform's families. -/
structure NetworkTruth (b : Build) (w : World ι) : Prop where
  balance : b.platform.winsock = true →
    (w.os.wsaStartups : Int) - w.os.wsaCleanups = w.started.card
  families : ∀ j, (w.ctxs j).state = slSysStateStarted →
    (w.ctxs j).afInet = b.platform.afInet ∧ (w.ctxs j).afInet6 = b.platform.afInet6

/-- The invariant: no context is in a third state. -/
structure NetworkInv (b : Build) (w : World ι) : Prop extends NetworkTruth b w where
  known : ∀ j, (w.ctxs j).state = slSysStateStopped ∨ (w.ctxs j).state = slSysStateStarted

theorem slSysStateStarted_ne_stopped : slSysStateStarted ≠ slSysStateStopped := by decide

omit [Fintype ι] in
theorem World.setCtx_of_ne (s : SlSys) {j : ι} (h : j ≠ i) :
    (w.setCtx i s).ctxs j = w.ctxs j := by
  simp [World.setCtx, h]

omit [DecidableEq ι] in
theorem World.mem_started {j : ι} : j ∈ w.started ↔ (w.ctxs j).state = slSysStateStarted := by
  simp [World.started]

/-- A context that becomes STARTED is one more. -/
theorem World.card_started_insert (hctxs : ∀ j, j ≠ i → w'.ctxs j = w.ctxs j)
    (h : (w.ctxs i).state ≠ slSysStateStarted) (h' : (w'.ctxs i).state = slSysStateStarted) :
    w'.started.card = w.started.card + 1 := by
  have hinsert : w'.started = insert i w.started := by
    ext j
    rw [Finset.mem_insert, World.mem_started, World.mem_started]
    by_cases hj : j = i
    · simp [hj, h']
    · simp [hj, hctxs j hj]
  rw [hinsert, Finset.card_insert_of_notMem (by simpa [World.mem_started] using h)]

/-- A context that is no longer STARTED is one less. -/
theorem World.card_started_erase (hctxs : ∀ j, j ≠ i → w'.ctxs j = w.ctxs j)
    (h : (w.ctxs i).state = slSysStateStarted) (h' : (w'.ctxs i).state ≠ slSysStateStarted) :
    w.started.card = w'.started.card + 1 :=
  World.card_started_insert (fun j hj => (hctxs j hj).symm) h' h

/-- A call that leaves its context in the state it was in changes no count. -/
theorem World.card_started_same (hctxs : ∀ j, j ≠ i → w'.ctxs j = w.ctxs j)
    (h : (w'.ctxs i).state = (w.ctxs i).state) : w'.started.card = w.started.card := by
  congr 1
  ext j
  rw [World.mem_started, World.mem_started]
  by_cases hj : j = i
  · rw [hj, h]
  · rw [hctxs j hj]

omit [Fintype ι] in
/-- A call changes its own context only. -/
theorem SysEffect.ctx_of_ne (he : SysEffect b a i w call r w') {j : ι} (hj : j ≠ i) :
    w'.ctxs j = w.ctxs j := by
  cases he with
  | already _ => rfl
  | called _ => rw [World.setCtx_of_ne _ hj, SysCall.kernel_ctxs]

omit [Fintype ι] in
/-- `SL_OK` says that the context is where the call takes it, any other value
that it stayed where it was. -/
theorem SysEffect.state (he : SysEffect b a i w call r w') :
    (r = slOk ↔ (w'.ctxs i).state = call.target) ∧
      (r ≠ slOk → (w'.ctxs i).state = (w.ctxs i).state) := by
  cases he with
  | already h => exact ⟨iff_of_true rfl h, fun h => absurd rfl h⟩
  | called h =>
      cases call with
      | setup =>
          by_cases hr : SysCall.answer b a .setup = slOk
          · simp [SysCall.context, hr, SysCall.target]
          · simpa [SysCall.context, hr] using h
      | cleanup =>
          by_cases hr : SysCall.answer b a .cleanup = slOk
          · simp [SysCall.context, hr, SysCall.target]
          · simpa [SysCall.context, hr] using h

/-- The counters move with the number of STARTED contexts. -/
theorem SysEffect.balance (hw : b.platform.winsock = true)
    (hknown : ∀ j, (w.ctxs j).state = slSysStateStopped ∨ (w.ctxs j).state = slSysStateStarted)
    (he : SysEffect b a i w call r w') :
    (w'.os.wsaStartups : Int) - w'.os.wsaCleanups - w'.started.card =
      w.os.wsaStartups - w.os.wsaCleanups - w.started.card := by
  have hctxs : ∀ j, j ≠ i → w'.ctxs j = w.ctxs j := fun j hj => he.ctx_of_ne hj
  obtain ⟨hstate, hsame⟩ := he.state
  cases he with
  | already _ => rfl
  | called h =>
      cases call with
      | setup =>
          have hanswer : SysCall.answer b a .setup = a.wsaStartup := by simp [SysCall.answer, hw]
          by_cases hr : a.wsaStartup = slOk
          · have hcard := World.card_started_insert hctxs h (hstate.mp (hanswer.trans hr))
            have hzero : a.wsaStartup = 0 := hr
            rw [hcard]
            simp only [World.setCtx, SysCall.kernel, hw, if_true, World.note, hzero]
            omega
          · have hcard := World.card_started_same hctxs (hsame (hanswer ▸ hr))
            have hzero : ¬a.wsaStartup = 0 := hr
            rw [hcard]
            simp only [World.setCtx, SysCall.kernel, hw, if_true, World.note, hzero, if_false]
      | cleanup =>
          have hanswer : SysCall.answer b a .cleanup = a.wsaCleanup := by
            simp [SysCall.answer, hw]
          by_cases hr : a.wsaCleanup = slOk
          · have hstopped := hstate.mp (hanswer.trans hr)
            have hcard := World.card_started_erase hctxs ((hknown i).resolve_left h)
              (hstopped ▸ slSysStateStarted_ne_stopped.symm)
            have hzero : a.wsaCleanup = 0 := hr
            rw [hcard]
            simp only [World.setCtx, SysCall.kernel, hw, if_true, World.note, hzero]
            omega
          · have hcard := World.card_started_same hctxs (hsame (hanswer ▸ hr))
            have hzero : ¬a.wsaCleanup = 0 := hr
            rw [hcard]
            simp only [World.setCtx, SysCall.kernel, hw, if_true, World.note, hzero, if_false]

omit [Fintype ι] in
/-- A call leaves its context with the families if it is STARTED, and in one of
the two states. -/
theorem SysEffect.context (hfamilies : (w.ctxs i).state = slSysStateStarted →
      (w.ctxs i).afInet = b.platform.afInet ∧ (w.ctxs i).afInet6 = b.platform.afInet6)
    (hknown : (w.ctxs i).state = slSysStateStopped ∨ (w.ctxs i).state = slSysStateStarted)
    (he : SysEffect b a i w call r w') :
    ((w'.ctxs i).state = slSysStateStarted →
      (w'.ctxs i).afInet = b.platform.afInet ∧ (w'.ctxs i).afInet6 = b.platform.afInet6) ∧
    ((w'.ctxs i).state = slSysStateStopped ∨ (w'.ctxs i).state = slSysStateStarted) := by
  cases he with
  | already _ => exact ⟨hfamilies, hknown⟩
  | called _ =>
      rw [World.setCtx_self]
      cases call with
      | setup =>
          refine ⟨fun _ => ⟨rfl, rfl⟩, ?_⟩
          by_cases hr : SysCall.answer b a .setup = slOk
          · simp [SysCall.context, hr]
          · simpa [SysCall.context, hr] using hknown
      | cleanup =>
          by_cases hr : SysCall.answer b a .cleanup = slOk
          · simp [SysCall.context, hr, slSysStateStarted_ne_stopped.symm]
          · simpa [SysCall.context, hr] using ⟨hfamilies, hknown⟩

/-- What one call preserves. -/
theorem NetworkInv.step (hI : NetworkInv b w) (he : SysEffect b a i w call r w') :
    NetworkInv b w' := by
  have hcontext := he.context (hI.families i) (hI.known i)
  refine ⟨⟨fun hw => ?_, fun j => ?_⟩, fun j => ?_⟩
  · have hmoves := he.balance hw hI.known
    have hbefore := hI.balance hw
    omega
  · by_cases hj : j = i
    · exact hj ▸ hcontext.1
    · rw [he.ctx_of_ne hj]
      exact hI.families j
  · by_cases hj : j = i
    · exact hj ▸ hcontext.2
    · rw [he.ctx_of_ne hj]
      exact hI.known j

/-- What holds of a step: the truth about the counters and contexts afterwards,
what the returned value says, and that other contexts are left alone. -/
def NetworkStep (b : Build) (w : World ι) (e : Step ι SysCall) (o : Outcome) (w' : World ι) :
    Prop :=
  NetworkTruth b w' ∧ (o.ret = slOk ↔ (w'.ctxs e.sock).state = e.call.target) ∧
    (o.ret ≠ slOk → (w'.ctxs e.sock).state = (w.ctxs e.sock).state) ∧
    ∀ j, j ≠ e.sock → w'.ctxs j = w.ctxs j

omit [Fintype ι] in
theorem sysStep_iff {e : Step ι SysCall} {o : Outcome} :
    sysStep b w e = some (o, w') ↔
      SysEffect b e.answers e.sock w.clearLog e.call o.ret w' ∧ o.events = w'.os.log := by
  rw [sysStep, callStep_eq_some_iff, SysCall.run_iff]

/-- One call, from the invariant. -/
theorem NetworkInv.sysStep {e : Step ι SysCall} {o : Outcome} (hI : NetworkInv b w)
    (h : sysStep b w e = some (o, w')) : NetworkStep b w e o w' ∧ NetworkInv b w' := by
  obtain ⟨he, _⟩ := sysStep_iff.mp h
  have hI₀ : NetworkInv b w.clearLog := ⟨⟨hI.balance, hI.families⟩, hI.known⟩
  have hI' := hI₀.step he
  obtain ⟨hret, hfailed⟩ := he.state
  exact ⟨⟨hI'.toNetworkTruth, hret, hfailed, fun j hj => he.ctx_of_ne hj⟩, hI'⟩

omit [DecidableEq ι] in
theorem NetworkInv.start (b : Build) (w : World ι) : NetworkInv b w.startNetwork := by
  have hnone : w.startNetwork.started = ∅ := by
    ext j
    simp [World.mem_started, World.startNetwork, slSysStateStarted_ne_stopped.symm]
  refine ⟨⟨fun _ => ?_, fun j hj => ?_⟩, fun _ => Or.inl rfl⟩
  · rw [hnone]
    rfl
  · exact absurd hj slSysStateStarted_ne_stopped.symm

end Sessions

/--
**Start-up and shut-down are balanced.**  For any number of zeroed contexts,
any sequence of `sl_sys_setup` and `sl_sys_cleanup` on them and any results of
`WSAStartup` and `WSACleanup`: the session runs through, and at every point of
it `NetworkStep` holds.
-/
theorem network_balanced [Fintype ι] (b : Build) (w : World ι)
    (steps : List (Step ι SysCall)) :
    NetworkTruth b w.startNetwork ∧
      (∃ outcomes v, exec (sysStep b) w.startNetwork steps = some (outcomes, v)) ∧
      Along (sysStep b) (NetworkStep b) w.startNetwork steps := by
  have hI := NetworkInv.start b w
  refine ⟨hI.toNetworkTruth, exec_of_total (fun w e => ?_) _ steps, ?_⟩
  · obtain ⟨r, w', he⟩ := SysCall.exists_effect b e.answers e.sock w.clearLog e.call
    exact ⟨⟨r, w'.os.log⟩, w', sysStep_iff.mpr ⟨he, rfl⟩⟩
  · exact along_of_invariant (C := fun _ _ _ _ => True) (fun _ _ _ _ hI h _ => hI.sysStep h) hI
      (along_of_forall_mem fun _ _ => trivial)

end SockLynx
