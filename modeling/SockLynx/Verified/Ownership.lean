import SockLynx.Verified.Holding

/-!
# Calls act on their own descriptors

The struct keeps no record of whether it holds a descriptor: a socket that
holds none has `fd = 0`, and 0 is a descriptor like any other.  A close, mode
switch or transfer on such a socket therefore acts on descriptor 0, whosever
it is (`Stray`).

## Main results

* `SockEffect.acts` — what one operation does to the rest of the process.
* `OwnInv` — each socket owns the descriptor in `sock->fd`, or holds nothing.
* `ownership_iff` — the calls of a session act on their own descriptors
  exactly as long as none of them is stray.
-/

namespace SockLynx

open SockLynx.Lib.Runs

variable {ι : Type} [DecidableEq ι]

/-! ## Acting on a descriptor -/

/-- The descriptor a system call closes, switches the mode of, or transfers
data through. -/
def Syscall.target : Syscall → Option Int64
  | .close fd => some fd
  | .setfl fd _ => some fd
  | .ioctlFionbio fd _ => some fd
  | .sendmsg fd _ _ _ _ => some fd
  | .recvmsg fd _ _ _ => some fd
  | _ => none

/-- The system granted a call that acts on `d`. -/
def Event.ActsOn (ev : Event) (d : Int64) : Prop :=
  ev.call.target = some d ∧ ∃ v, ev.result = .ok v

section Acts

variable {b : Build} {a : Answers} {i : ι} {w w' : World ι} {op : SockOp ι} {r : Int32}

omit [DecidableEq ι] in
theorem SockOp.decisive_target {call : Syscall} (hop : op ≠ .bind)
    (hc : op.decisive b a i w = some call) : call.target = some (w.fd b i) := by
  cases op with
  | create type proto => simp [SockOp.decisive] at hc
  | bind => exact absurd rfl hop
  | mode nonblocking =>
      obtain rfl := Option.some.inj hc
      split <;> rfl
  | close | send | recv =>
      obtain rfl := Option.some.inj hc
      rfl

omit [DecidableEq ι] in
/-- The mode switch's first question acts on nothing. -/
theorem SockOp.not_actsOn_of_prelude {ev : Event} {d : Int64} (hlog : w.os.log = [])
    (hev : ev ∈ (op.prelude b a i w).os.log) : ¬ev.ActsOn d := by
  obtain ⟨_, hcall⟩ := SockOp.mem_prelude_log hlog hev
  simp [Event.ActsOn, Syscall.target, hcall]

omit [DecidableEq ι] in
/-- The system calls of a refused operation act on nothing. -/
theorem not_actsOn_of_refused {call : Syscall} {e : Int32} (hlog : w.os.log = [])
    (hlog' : w'.os.log = (op.prelude b a i w).os.log ++ [⟨call, .error e⟩]) {ev : Event}
    (hev : ev ∈ w'.os.log) (d : Int64) : ¬ev.ActsOn d := by
  rw [hlog', List.mem_append, List.mem_singleton] at hev
  rcases hev with hev | rfl
  · exact SockOp.not_actsOn_of_prelude hlog hev
  · rintro ⟨_, v, hv⟩
    simp at hv

omit [DecidableEq ι] in
/-- The system calls of a granted operation act on its descriptor alone. -/
theorem actsOn_of_granted {call : Syscall} {v : Int64} (hlog : w.os.log = [])
    (hbind : op ≠ .bind) (hc : op.decisive b a i w = some call)
    (hlog' : w'.os.log = (op.prelude b a i w).os.log ++ [⟨call, .ok v⟩]) :
    (∃ ev ∈ w'.os.log, ev.ActsOn (w.fd b i)) ∧
      ∀ ev ∈ w'.os.log, ∀ d, ev.ActsOn d → d = w.fd b i := by
  have htarget := SockOp.decisive_target hbind hc
  constructor
  · exact ⟨⟨call, .ok v⟩, by simp [hlog'], htarget, v, rfl⟩
  · intro ev hev d hd
    rw [hlog', List.mem_append, List.mem_singleton] at hev
    rcases hev with hev | rfl
    · exact absurd hd (SockOp.not_actsOn_of_prelude hlog hev)
    · exact Option.some.inj (hd.1.symm.trans htarget)

/-- What a call on the descriptor did to the rest of the process: refused, it
acted on nothing; granted, it acted on the descriptor in `sock->fd` and on no
other. -/
theorem SockEffect.acts (hlog : w.os.log = []) (hbind : op ≠ .bind)
    (hcreate : ∀ type proto, op ≠ .create type proto) (h : SockEffect b a i w op r w') :
    (op.refusal b a i w ≠ none ∧ (∀ ev ∈ w'.os.log, ∀ d, ¬ev.ActsOn d) ∧
        w'.os.fds = w.os.fds) ∨
      (op.refusal b a i w = none ∧
        ((∃ ev ∈ w'.os.log, ev.ActsOn (w.fd b i)) ∧
          ∀ ev ∈ w'.os.log, ∀ d, ev.ActsOn d → d = w.fd b i) ∧
        ∀ d, d ≠ w.fd b i → w'.os.fds d = w.os.fds d) := by
  cases h with
  | createRefused | createHalf | createV6 | createOther => exact (hcreate _ _ rfl).elim
  | refused hc hr =>
      exact Or.inl ⟨by simp [hr], fun ev hev => not_actsOn_of_refused hlog rfl hev, by simp⟩
  | bindDone => exact absurd rfl hbind
  | closeDone hc hd ha =>
      exact Or.inr ⟨refusedWith_eq_none hd ha, actsOn_of_granted hlog hbind hc rfl,
        fun _ hx => by simp [World.setDesc_of_ne _ _ hx]⟩
  | modeDone hc hd ha =>
      exact Or.inr ⟨refusedWith_eq_none hd ha, actsOn_of_granted hlog hbind hc rfl,
        fun _ hx => by simp [World.setDesc_of_ne _ _ hx]⟩
  | sendDone hc hd ha =>
      exact Or.inr ⟨refusedWith_eq_none hd ha, actsOn_of_granted hlog hbind hc rfl,
        fun _ _ => rfl⟩
  | recvDone hc hd ha =>
      refine Or.inr ⟨refusedWith_eq_none hd ha,
        actsOn_of_granted hlog hbind hc (by simp [SockOp.prelude]; rfl), fun _ _ => by simp⟩

/-- Creation acts on no descriptor and leaves the open ones alone; the one it
adds was not open. -/
theorem SockEffect.create_acts {type proto : UInt32} (hlog : w.os.log = [])
    (h : SockEffect b a i w (.create type proto) r w') :
    (∀ ev ∈ w'.os.log, ∀ d, ¬ev.ActsOn d) ∧
      (∀ d desc, w.os.fds d = some desc → w'.os.fds d = some desc) ∧
      (r = slOk → w.os.fds (w'.fd b i) = none) := by
  have hadd : ∀ {d₀ d : Int64} {desc : Desc ι}, w.os.onSocket b.platform a = .ok d₀ →
      w.os.fds d = some desc → d ≠ d₀ := by
    rintro d₀ d desc hs hd rfl
    simp [(Os.onSocket_ok hs).2] at hd
  refine ⟨?_, ?_⟩
  · intro ev hev d
    rcases h.log_cases hlog with ⟨_, hcalls⟩ | ⟨_, _, hc, _⟩
    · rcases hcalls ev hev with ⟨_, _, _, hcall⟩ | ⟨_, _, hcall⟩ <;>
        simp [Event.ActsOn, Syscall.target, hcall]
    · simp [SockOp.decisive] at hc
  · cases h with
    | createRefused hs =>
        exact ⟨fun _ _ hd => by simpa using hd, fun h => absurd h.symm slOk_ne_slErr⟩
    | createHalf hs h6 ho =>
        refine ⟨fun d desc hd => ?_, fun h => absurd h.symm slOk_ne_slErr⟩
        simpa [World.openFor_fds_of_ne (hadd hs hd)] using hd
    | createV6 hs h6 ho =>
        refine ⟨fun d desc hd => ?_, fun _ => ?_⟩
        · simpa [World.setDesc_of_ne _ _ (hadd hs hd), World.openFor_fds_of_ne (hadd hs hd)]
            using hd
        · simpa [Platform.sockType_of_isDescriptor (Os.onSocket_ok hs).1] using
            (Os.onSocket_ok hs).2
    | createOther hs h6 =>
        refine ⟨fun d desc hd => ?_, fun _ => ?_⟩
        · simpa [World.openFor_fds_of_ne (hadd hs hd)] using hd
        · simpa [Platform.sockType_of_isDescriptor (Os.onSocket_ok hs).1] using
            (Os.onSocket_ok hs).2
    | refused hc _ => simp [SockOp.decisive] at hc

/-- Binding acts on no descriptor and changes at most its own. -/
theorem SockEffect.bind_acts (h : SockEffect b a i w .bind r w') :
    (∀ ev ∈ w'.os.log, ev ∈ w.os.log ∨ ∀ d, ¬ev.ActsOn d) ∧
      ∀ d, d ≠ w.fd b i → w'.os.fds d = w.os.fds d := by
  cases h with
  | refused hc hr =>
      obtain rfl := Option.some.inj hc
      refine ⟨fun ev hev => ?_, fun _ _ => by simp⟩
      simp only [World.setSock_os, World.note_log, SockOp.prelude, List.mem_append,
        List.mem_singleton] at hev
      exact hev.imp_right fun h d => by simp [h, Event.ActsOn, Syscall.target]
  | bindDone hc hd ha =>
      obtain rfl := Option.some.inj hc
      refine ⟨fun ev hev => ?_, fun _ hx => by simp [World.setDesc_of_ne _ _ hx]⟩
      simp only [World.setSock_os, World.note_log, World.setDesc_log, List.mem_append,
        List.mem_singleton] at hev
      exact hev.imp_right fun h d => by simp [h, Event.ActsOn, Syscall.target]

/-- Opening acts on no descriptor and leaves the open ones alone. -/
theorem CallEffect.open_acts (hlog : w.os.log = [])
    (h : CallEffect b a i w .socketOpen r w') :
    (∀ ev ∈ w'.os.log, ∀ d, ¬ev.ActsOn d) ∧
      ∀ d desc, w.os.fds d = some desc → w'.os.fds d = some desc := by
  cases h with
  | guarded hnull => simp [Call.hasNull] at hnull
  | notCreated _ he _ =>
      obtain ⟨hev, hfds, _⟩ := SockEffect.create_acts hlog he
      exact ⟨hev, hfds⟩
  | @created _ _ w₁ _ _ hc hr he =>
      obtain ⟨hev, hfds, hfree⟩ := SockEffect.create_acts hlog hc
      obtain ⟨hev', hfds'⟩ := he.bind_acts
      refine ⟨fun ev h => (hev' ev h).elim (hev ev) id, fun d desc hd => ?_⟩
      have hne : d ≠ w₁.fd b i := by
        rintro rfl
        simp [hfree hr] at hd
      rw [hfds' d hne]
      exact hfds d desc hd
  | op hop _ _ _ => simp [Call.op] at hop

end Acts

/-! ## Sessions -/

section Sessions

variable {b : Build} {a : Answers} {i : ι} {w w' : World ι} {op : SockOp ι} {r : Int32}

/-- Socket `j` holds nothing: the placeholder 0 in a state that comes before
or after having a descriptor. -/
def World.Empty (w : World ι) (j : ι) : Prop :=
  (w.socks j).fd = 0 ∧
    ((w.socks j).state = SlSockState.new.val ∨ (w.socks j).state = SlSockState.closed.val)

/-- Each socket owns the descriptor in `sock->fd`, or holds nothing. -/
structure OwnInv (b : Build) (w : World ι) : Prop where
  valid : w.Valid b
  held : ∀ j, w.os.Owns j (w.socks j).fd ∨ w.Empty j

/-- The calls of a step act on descriptors its socket owns, and every open
descriptor it does not own stays as it is. -/
def ActsOnOwn (w : World ι) (e : Step ι (Call ι)) (o : Outcome) (w' : World ι) : Prop :=
  (∀ ev ∈ o.events, ∀ d, ev.ActsOn d → w.os.Owns e.sock d) ∧
    ∀ d desc, w.os.fds d = some desc → ¬w.os.Owns e.sock d → w'.os.fds d = some desc

/-- A close, mode switch or transfer that the system grants, on a socket that
holds nothing, while descriptor 0 is not its own. -/
def Stray (b : Build) (w : World ι) (e : Step ι (Call ι)) : Prop :=
  ∃ op, e.call.op = some op ∧ e.call.hasNull = false ∧
    op.refusal b e.answers e.sock w = none ∧ w.Empty e.sock ∧ ¬w.os.Owns e.sock 0

/-- An operation keeps the invariant if a bind, and a close that the system
grants, are made on an owned descriptor. -/
theorem OwnInv.step (hI : OwnInv b w) (he : SockEffect b a i w op r w')
    (hbind : op = .bind → w.os.Owns i (w.fd b i))
    (hclose : op = .close → op.refusal b a i w = none → w.os.Owns i (w.fd b i)) :
    OwnInv b w' := by
  have hfd := hI.valid.fd_eq i
  refine ⟨he.valid hI.valid, fun j => ?_⟩
  cases he.holding with
  | keep owns fd state =>
      by_cases hj : j = i
      · subst hj
        rw [owns, fd]
        rcases hI.held j with hown | hempty
        · exact Or.inl hown
        · rcases state with hst | ⟨hop, _⟩
          · exact Or.inr ⟨by rw [fd, hempty.1], by rw [hst]; exact hempty.2⟩
          · exact Or.inl (hfd ▸ hbind hop)
      · rw [owns, he.fd_of_ne hj, World.Empty, he.fd_of_ne hj, he.state_of_ne hj]
        exact hI.held j
  | acquire owns fd state =>
      by_cases hj : j = i
      · exact Or.inl ((owns j _).mpr (Or.inl ⟨hj, hj ▸ fd⟩))
      · rw [owns, he.fd_of_ne hj, World.Empty, he.fd_of_ne hj, he.state_of_ne hj]
        exact (hI.held j).imp_left Or.inr
  | release granted owns fd state =>
      by_cases hj : j = i
      · subst hj
        exact Or.inr ⟨fd, Or.inr state⟩
      · rw [owns, he.fd_of_ne hj, World.Empty, he.fd_of_ne hj, he.state_of_ne hj]
        refine (hI.held j).imp_left fun hown => ⟨?_, hown⟩
        rintro hsame
        exact hj (Os.Owns.unique (hsame ▸ hown) (hclose rfl granted))

omit [DecidableEq ι] in
/-- A socket that holds something owns what a granted call acts on. -/
theorem OwnInv.owns_of_not_stray {e : Step ι (Call ι)} (hI : OwnInv b w)
    (hop : e.call.op = some op) (hnull : e.call.hasNull = false) (hstray : ¬Stray b w e)
    (hgrant : op.refusal b e.answers e.sock w = none) :
    w.os.Owns e.sock (w.fd b e.sock) := by
  rw [hI.valid.fd_eq]
  rcases hI.held e.sock with hown | hempty
  · exact hown
  · by_contra h
    rw [hempty.1] at h
    exact hstray ⟨op, hop, hnull, hgrant, hempty, h⟩

omit [DecidableEq ι] in
/-- A created socket owns its descriptor. -/
theorem OwnInv.owns_of_created (hI : OwnInv b w)
    (h : (w.socks i).state = SlSockState.created.val) : w.os.Owns i (w.fd b i) := by
  rw [hI.valid.fd_eq]
  refine (hI.held i).resolve_right fun hempty => ?_
  rw [World.Empty, h] at hempty
  exact absurd hempty.2 (by decide)

/-- A call that is not stray keeps the invariant. -/
theorem OwnInv.pluginStep {e : Step ι (Call ι)} {o : Outcome} (hI : OwnInv b w)
    (h : pluginStep b w e = some (o, w')) (hstray : ¬Stray b w e) : OwnInv b w' := by
  obtain ⟨i, call, a⟩ := e
  obtain ⟨ret, events⟩ := o
  have hI₀ : OwnInv b w.clearLog := ⟨hI.valid, hI.held⟩
  cases (pluginStep_iff.mp h).1 with
  | guarded _ => exact hI₀
  | notCreated _ he _ => exact hI₀.step he (fun h => nomatch h) (fun h => nomatch h)
  | created _ hc hr he =>
      have hI₁ := hI₀.step hc (fun h => nomatch h) (fun h => nomatch h)
      exact hI₁.step he (fun _ => hI₁.owns_of_created (hc.created_state hr))
        (fun h => nomatch h)
  | op hop hnull _ he =>
      exact hI₀.step he (fun h => absurd h (Call.op_ne hop).1) fun _ hgrant =>
        hI.owns_of_not_stray hop hnull hstray hgrant

omit [DecidableEq ι] in
/-- A step that acts on no descriptor and leaves the open ones alone. -/
theorem ActsOnOwn.of_idle {e : Step ι (Call ι)} {o : Outcome}
    (hev : ∀ ev ∈ o.events, ∀ d, ¬ev.ActsOn d)
    (hfds : ∀ d desc, w.os.fds d = some desc → w'.os.fds d = some desc) :
    ActsOnOwn w e o w' :=
  ⟨fun ev hmem d hd => absurd hd (hev ev hmem d), fun d desc hd _ => hfds d desc hd⟩

/-- On states of the invariant, a step acts on its own descriptors exactly when
it is not stray. -/
theorem OwnInv.actsOnOwn_iff {e : Step ι (Call ι)} {o : Outcome} (hI : OwnInv b w)
    (h : SockLynx.pluginStep b w e = some (o, w')) : ActsOnOwn w e o w' ↔ ¬Stray b w e := by
  obtain ⟨i, call, a⟩ := e
  obtain ⟨ret, events⟩ := o
  obtain ⟨he, hlog⟩ := pluginStep_iff.mp h
  obtain rfl : events = w'.os.log := hlog
  cases hop : call.op with
  | none =>
      obtain rfl : call = .socketOpen := by
        cases call <;> simp [Call.op] at hop ⊢
      obtain ⟨hev, hfds⟩ := CallEffect.open_acts rfl he
      refine iff_of_true (.of_idle hev hfds) ?_
      rintro ⟨op, hop', _⟩
      simp [Call.op] at hop'
  | some op =>
      obtain ⟨hbind, hcreate⟩ := Call.op_ne hop
      cases he with
      | guarded hnull =>
          refine iff_of_true (.of_idle (by simp [World.clearLog]) fun _ _ hd => hd) ?_
          rintro ⟨_, _, hnull', _⟩
          simp [hnull] at hnull'
      | notCreated _ _ _ => simp [Call.op] at hop
      | created _ _ _ _ => simp [Call.op] at hop
      | op hop' hnull _ he =>
          obtain rfl := Option.some.inj (hop.symm.trans hop')
          rcases SockEffect.acts rfl hbind hcreate he with
            ⟨hrefused, hev, hfds⟩ | ⟨hgrant, ⟨⟨ev, hmem, hact⟩, hacts⟩, hfds⟩
          · refine iff_of_true (.of_idle hev fun d desc hd => ?_) ?_
            · rw [hfds]
              exact hd
            · rintro ⟨op', hop', _, hgrant, _⟩
              obtain rfl := Option.some.inj (hop.symm.trans hop')
              exact hrefused hgrant
          · constructor
            · rintro ⟨hown, _⟩ ⟨_, _, _, _, hempty, hzero⟩
              have h0 := hown ev hmem _ hact
              rw [show w.clearLog.fd b i = w.fd b i from rfl, hI.valid.fd_eq, hempty.1] at h0
              exact hzero h0
            · intro hstray
              have hown := hI.owns_of_not_stray hop hnull hstray hgrant
              refine ⟨fun ev hmem d hd => hacts ev hmem d hd ▸ hown, fun d desc hd hd' => ?_⟩
              rw [hfds d (by rintro rfl; exact hd' hown)]
              exact hd

omit [DecidableEq ι] in
/-- Before the first call nothing is owned and every socket is empty. -/
theorem OwnInv.start (b : Build) (w : World ι) (endpoint : ι → SlEndpoint) :
    OwnInv b (w.start endpoint) :=
  ⟨fun _ => b.platform.isDescriptor_zero, fun _ => Or.inr ⟨rfl, Or.inl rfl⟩⟩

/--
**Descriptor ownership.**  For any number of sockets, any interleaving of the
five calls and any answers, with and without assertions: the calls of a
session act on descriptors of their own socket only, and leave all others
alone, exactly as long as no call is stray.
-/
theorem ownership_iff (b : Build) (w : World ι) (endpoint : ι → SlEndpoint)
    (steps : List (Step ι (Call ι))) :
    Along (pluginStep b) ActsOnOwn (w.start endpoint) steps ↔
      Along (pluginStep b) (fun w e _ _ => ¬Stray b w e) (w.start endpoint) steps :=
  along_iff_of_invariant (fun _ _ _ _ hI h => hI.actsOnOwn_iff h)
    (fun _ _ _ _ hI h hC => hI.pluginStep h hC) (OwnInv.start b w endpoint)

end Sessions

/-- The failing session: closing a socket that was never opened closes
standard input. -/
theorem ownership_stray_close :
    ¬Along (pluginStep ⟨true, .posix⟩) ActsOnOwn (World.small.start fun _ => anyEndpoint 2)
      [⟨(), .socketClose, Answers.granting 3⟩] := by
  intro h
  obtain ⟨⟨_, hrest⟩, _⟩ := h ⟨slOk, [⟨.close 0, .ok 0⟩]⟩ _ rfl
  have hforeign : ¬(World.small.start fun _ => anyEndpoint 2).os.Owns () 0 := by
    rintro ⟨d, hd, howner⟩
    obtain rfl := Option.some.inj hd
    exact nomatch howner
  exact nomatch hrest 0 Desc.stdin rfl hforeign

end SockLynx
