import Mathlib.Data.Finset.Card
import SockLynx.Verified.Refinement

/-!
# The specification promises nothing that the library does not keep

`SockLynx.Verified.Refinement` shows that sessions follow the specification.
Here every path of the specification is the path of a session: no phase is out
of reach and no act that the specification offers is refused by the library of
its own accord.  What it takes is a system that grants what it is asked, fails
a `bind()` where the path wants a socket without a name, and has descriptors
left.

## Main results

* `exists_showing` — an act that a phase offers is shown by a proper call.
* `exists_next` — it leaves the sockets in the phases that the act leads to.
* `pluginStep_grows` — a call opens at most one descriptor.
* `realizes` — every path is the path of a session of proper calls.
-/

namespace SockLynx

open SockLynx.Lib.Runs
open SockLynx.Lib.Simulation

variable {ι : Type} [DecidableEq ι]

/-! ## Calls that show an act -/

/-- A call of socket `i` that shows the act `x`, where `d` is not open. -/
def showing (i : ι) (d : Int64) : Spec.Act Name → Step ι (Call ι)
  | .bound _ => ⟨i, .socketOpen, Answers.granting d⟩
  | .unnamed => ⟨i, .socketOpen, { Answers.granting d with bind := .error ebadf }⟩
  | .closed => ⟨i, .socketClose, Answers.granting d⟩
  | .switched nonblocking =>
      ⟨i, .socketNonblocking (if nonblocking then 1 else 0), Answers.granting d⟩
  | .transferred => ⟨i, .socketSend (some [⟨64, 1⟩]) 1 (.ofSock i), Answers.taking d 1⟩

section Acts

variable {b : Build} {a : Answers} {i : ι} {w w' : World ι} {op : SockOp ι} {r : Int32}
  {desc : Desc ι} {name : Option Name} {m : Bool}

omit [DecidableEq ι] in
/-- A socket is bound to its own endpoint. -/
theorem World.ownName_eq (w : World ι) (b : Build) (i : ι) :
    w.ownName b i = (w.socks i).endpoint.sockaddr b.platform := rfl

omit [DecidableEq ι] in
theorem World.Creates.not_optionRefused (h : w.Creates b a i) : ¬w.OptionRefused b a i := by
  rintro ⟨h6, _, e, ho⟩
  exact nomatch ho.symm.trans (h.2 h6)

/-- An open that the system lets create its descriptor shows a name, or that
there is none. -/
theorem exists_opening (hs : Represents b w i .idle)
    (hcreates : w.Creates b a i) :
    ∃ r w', CallEffect b a i w .socketOpen r w' ∧
      w'.os.log.getLast?.bind Event.opening =
        some (if a.bind.isOk then .bound ((w.socks i).endpoint.sockaddr b.platform)
          else .unnamed) := by
  have hstate : (w.socks i).state = SlSockState.new.val ∨
      (w.socks i).state = SlSockState.closed.val := by
    cases hs with
    | idle empty _ _ => exact empty.2
  obtain ⟨r, w', he, _⟩ := exists_openEffect b a hstate
  refine ⟨r, w', he, ?_⟩
  cases he with
  | guarded hnull => simp [Call.hasNull] at hnull
  | notCreated _ hc hr =>
      exact absurd (hr.symm.trans (hc.create_ok_iff.mpr hcreates)) slOk_ne_slErr.symm
  | created hready hc hr he =>
      have hopen := (hc.represents_create hs hcreates.not_optionRefused).resolve_left fun h =>
        slOk_ne_slErr (hr.symm.trans h.1)
      obtain ⟨d, desc, hnew⟩ := hc.created hr
      obtain ⟨flags, hsock⟩ := hnew.sock
      rw [(he.represents_bind hopen.2).1, List.getLast?_concat, Option.bind_some,
        Event.opening_bind, World.ownName_eq, hsock]
      cases a.bind <;> rfl
  | op hop _ _ _ => simp [Call.op] at hop

/-- A call on an open descriptor that the system grants succeeds. -/
theorem exists_granted (hbind : op ≠ .bind) (hcreate : ∀ type proto, op ≠ .create type proto)
    (hgrant : op.refusal b a i w = none) :
    ∃ r w', SockEffect b a i w op r w' ∧ r ≠ slErr := by
  obtain ⟨r, w', he⟩ := SockOp.exists_effect b a i w op
  refine ⟨r, w', he, ?_⟩
  cases he with
  | createRefused | createHalf | createV6 | createOther => exact absurd rfl (hcreate _ _)
  | bindDone => exact absurd rfl hbind
  | refused _ hr => exact nomatch hgrant.symm.trans hr
  | closeDone | modeDone => exact slOk_ne_slErr
  | @sendDone _ _ _ _ _ n _ _ _ => exact transferred_ne_slErr n.isLt
  | @recvDone _ _ _ _ _ dg _ _ _ => exact transferred_ne_slErr (by have := dg.payload_lt; omega)

/-- A call other than open that the system grants, on a descriptor of its own,
shows its act. -/
theorem exists_shown_op (op : SockOp ι) {e : Step ι (Call ι)} (hop : e.call.op = some op)
    (hnull : e.call.hasNull = false) (hready : op.Ready b (w.socks e.sock))
    (hgrant : op.refusal b e.answers e.sock w = none) (hown : w.os.Owns e.sock (w.fd b e.sock)) :
    ∃ o w', pluginStep b w e = some (o, w') ∧ e.call.act o = op.act ∧ Proper b w e := by
  obtain ⟨hbind, hcreate⟩ := Call.op_ne hop
  have hgrant₀ : op.refusal b e.answers e.sock w.clearLog = none := by
    cases op <;> exact hgrant
  obtain ⟨r, w', he, hr⟩ := exists_granted hbind hcreate hgrant₀
  refine ⟨⟨r, w'.os.log⟩, w', pluginStep_iff.mpr ⟨.op hop hnull hready he, rfl⟩, ?_, ?_⟩
  · simp only [Call.act, hop, if_neg hr]
  · refine .of_owns (fun hopen => ?_) hown
    simp [hopen, Call.op] at hop

/-- An open that the system grants shows its act. -/
theorem exists_shown_open {d : Int64} (hs : Represents b w i .idle)
    (hd : b.platform.isDescriptor d = true) (hfree : w.os.fds d = none)
    (answer : Except Int32 Unit) :
    ∃ o w', pluginStep b w ⟨i, .socketOpen, { Answers.granting d with bind := answer }⟩ =
        some (o, w') ∧
      (.socketOpen : Call ι).act o =
        some (if answer.isOk then .bound ((w.socks i).endpoint.sockaddr b.platform)
          else .unnamed) ∧
      Proper b w ⟨i, .socketOpen, { Answers.granting d with bind := answer }⟩ := by
  have hcreates : w.clearLog.Creates b { Answers.granting d with bind := answer } i := by
    refine ⟨⟨d, ?_⟩, fun _ => rfl⟩
    simp [Os.onSocket, Answers.granting, World.clearLog, hd, hfree]
  have hs₀ : Represents b w.clearLog i .idle := hs.of_same rfl rfl rfl rfl
  obtain ⟨r, w', he, hact⟩ := exists_opening hs₀ hcreates
  refine ⟨⟨r, w'.os.log⟩, w', pluginStep_iff.mpr ⟨he, rfl⟩, hact, not_trespasses_open rfl, ?_⟩
  rintro ⟨_, href⟩
  exact hcreates.not_optionRefused href

/-- **Progress.**  An act that the phase of a socket offers is shown by a
proper call, if a descriptor is free and a name is the socket's own. -/
theorem exists_showing {s s' : Spec.Phase Name} {x : Spec.Act Name} {d : Int64}
    (hs : Represents b w i s) (hmoves : Spec.Moves s x s')
    (hname : ∀ name, x = .bound name → name = (w.socks i).endpoint.sockaddr b.platform)
    (hd : b.platform.isDescriptor d = true) (hfree : w.os.fds d = none) :
    ∃ o w', pluginStep b w (showing i d x) = some (o, w') ∧
      (showing i d x).act o = some (i, x) ∧ Proper b w (showing i d x) := by
  have hshown : ∀ {o : Outcome}, (showing i d x).call.act o = some x →
      (showing i d x).act o = some (i, x) := by
    intro o hact
    cases x <;> exact congrArg (Option.map fun y => (i, y)) hact
  suffices ∃ o w', pluginStep b w (showing i d x) = some (o, w') ∧
      (showing i d x).call.act o = some x ∧ Proper b w (showing i d x) by
    obtain ⟨o, w', hstep, hact, hproper⟩ := this
    exact ⟨o, w', hstep, hshown hact, hproper⟩
  cases hmoves with
  | bound name =>
      obtain rfl := hname name rfl
      exact exists_shown_open hs hd hfree (.ok ())
  | unnamed => exact exists_shown_open hs hd hfree (.error ebadf)
  | closed name m =>
      cases hs with
      | opened on =>
          exact exists_shown_op .close rfl rfl trivial
            (refusedWith_onDesc_of_found on.found _) ⟨_, on.found, on.owner⟩
  | switched name m m' =>
      cases hs with
      | opened on =>
          have hgrant : refusedWith (modeAnswer b (Answers.granting d)) = none := by
            unfold modeAnswer
            split <;> rfl
          exact exists_shown_op (.mode m') (by cases m' <;> rfl) rfl trivial
            ((refusedWith_onDesc_of_found on.found _).trans hgrant) ⟨_, on.found, on.owner⟩
  | transferred name m =>
      cases hs with
      | opened on =>
          exact exists_shown_op (.send (some [⟨64, 1⟩]) 1 (.ofSock i)) rfl rfl
            ⟨rfl, fun _ => ⟨rfl, by decide, on.state⟩⟩
            (refusedWith_onDesc_of_found on.found _) ⟨_, on.found, on.owner⟩

/-! ## Descriptors are used up one at a time -/

omit [DecidableEq ι] in
/-- An operation opens at most one descriptor, and only a creation does. -/
theorem TableStep.grows (h : TableStep b i w w' op) :
    ∃ d, ∀ x, w'.os.fds x ≠ none → (x = d ∧ ∃ type proto, op = .create type proto) ∨
      w.os.fds x ≠ none := by
  cases h with
  | same fds => exact ⟨0, fun x hx => Or.inr (fds ▸ hx)⟩
  | @added type proto d _ _ _ fds =>
      refine ⟨d, fun x hx => ?_⟩
      by_cases hne : x = d
      · exact Or.inl ⟨hne, type, proto, rfl⟩
      · rw [fds, Function.update_of_ne hne] at hx
        exact Or.inr hx
  | changed _ opened _ fds =>
      refine ⟨0, fun x hx => Or.inr ?_⟩
      by_cases hne : x = w.fd b i
      · simp [hne, opened]
      · rwa [fds, Function.update_of_ne hne] at hx

/-- A call opens at most one descriptor. -/
theorem pluginStep_grows {e : Step ι (Call ι)} {o : Outcome}
    (h : pluginStep b w e = some (o, w')) :
    ∃ d, ∀ x, w'.os.fds x ≠ none → x = d ∨ w.os.fds x ≠ none := by
  obtain ⟨i, call, a⟩ := e
  obtain ⟨ret, events⟩ := o
  cases (pluginStep_iff.mp h).1 with
  | guarded _ => exact ⟨0, fun x hx => Or.inr hx⟩
  | notCreated _ he _ =>
      obtain ⟨d, hd⟩ := he.tableStep.grows
      exact ⟨d, fun x hx => (hd x hx).imp_left And.left⟩
  | created _ hc _ he =>
      obtain ⟨d, hd⟩ := hc.tableStep.grows
      obtain ⟨_, hd'⟩ := he.tableStep.grows
      refine ⟨d, fun x hx => ?_⟩
      rcases hd' x hx with ⟨_, _, _, hop⟩ | hx
      · exact nomatch hop
      · exact (hd x hx).imp_left And.left
  | op _ _ _ he =>
      obtain ⟨d, hd⟩ := he.tableStep.grows
      exact ⟨d, fun x hx => (hd x hx).imp_left And.left⟩

end Acts

/-! ## Paths -/

/-- Beyond any `n` descriptors there is one more that is not open. -/
def World.Spare (w : World ι) (p : Platform) (n : Nat) : Prop :=
  ∀ used : Finset Int64, used.card ≤ n →
    ∃ d, d ∉ used ∧ p.isDescriptor d = true ∧ w.os.fds d = none

section Paths

variable {b : Build} {w w' : World ι}

omit [DecidableEq ι] in
/-- More than `n` free descriptors leave one beyond any `n`. -/
theorem World.Spare.of_free {p : Platform} {n : Nat} {F : Finset Int64}
    (hfree : ∀ d ∈ F, p.isDescriptor d = true ∧ w.os.fds d = none) (hn : n < F.card) :
    w.Spare p n := by
  intro used hused
  obtain ⟨d, hd, hnot⟩ := Finset.exists_mem_notMem_of_card_lt_card (hused.trans_lt hn)
  exact ⟨d, hnot, hfree d hd⟩

omit [DecidableEq ι] in
theorem World.Spare.step {p : Platform} {n : Nat} {d : Int64} (h : w.Spare p (n + 1))
    (hgrows : ∀ x, w'.os.fds x ≠ none → x = d ∨ w.os.fds x ≠ none) : w'.Spare p n := by
  intro used hused
  obtain ⟨x, hx, hdesc, hfree⟩ := h (insert d used)
    ((Finset.card_insert_le d used).trans (Nat.add_le_add_right hused 1))
  obtain ⟨hne, hnot⟩ := not_or.mp (Finset.mem_insert.not.mp hx)
  refine ⟨x, hnot, hdesc, Classical.byContradiction fun hopen => ?_⟩
  exact (hgrows x hopen).elim hne fun h => h hfree

omit [DecidableEq ι] in
/-- The act of a step is one of its socket. -/
theorem Step.act_eq_some {e : Step ι (Call ι)} {o : Outcome} {x : ι × Spec.Act Name}
    (h : e.act o = some x) : e.sock = x.1 ∧ e.call.act o = some x.2 := by
  obtain ⟨y, hy, rfl⟩ := Option.map_eq_some_iff.mp h
  exact ⟨rfl, hy⟩

/-- The call that shows an act leaves the sockets in the phases after it, with
their endpoints. -/
theorem exists_next (hb : b.asserts = true) {s s' : ι → Spec.Phase Name}
    {x : ι × Spec.Act Name} {d : Int64} (hs : ∀ j, Represents b w j (s j))
    (hstep : Spec.Step s x s')
    (hname : ∀ name, x.2 = .bound name → name = (w.socks x.1).endpoint.sockaddr b.platform)
    (hd : b.platform.isDescriptor d = true) (hfree : w.os.fds d = none) :
    ∃ e o w', pluginStep b w e = some (o, w') ∧ e.act o = some x ∧ Proper b w e ∧
      (∀ j, Represents b w' j (s' j)) ∧ ∀ j, (w'.socks j).endpoint = (w.socks j).endpoint := by
  obtain ⟨i, x⟩ := x
  obtain ⟨hmoves, hothers⟩ := hstep
  obtain ⟨o, w', hrun, hact, hproper⟩ := exists_showing (hs i) hmoves hname hd hfree
  obtain ⟨t, hfollows, ht⟩ := pluginStep_represents hb hs hrun hproper
  obtain ⟨hsock, hcall⟩ := Step.act_eq_some hact
  rw [hcall, hsock] at hfollows
  obtain rfl : t = s' i := Spec.Moves.unique hfollows hmoves
  have hkeeps : ∀ op, (showing i d x).call.op = some op → op.KeepsEndpoints := by
    intro op hop
    cases x with
    | bound | unnamed => exact nomatch hop
    | closed | switched | transferred =>
        obtain rfl := Option.some.inj hop
        trivial
  refine ⟨_, o, w', hrun, hact, hproper, fun j => ?_,
    fun j => (pluginStep_iff.mp hrun).1.endpoint_eq hkeeps j⟩
  have hj := ht j
  rw [hsock] at hj
  by_cases hne : j = i
  · subst hne
    rwa [Function.update_self] at hj
  · rwa [Function.update_of_ne hne, ← hothers j hne] at hj

/-- A path from represented phases is the path of a session. -/
theorem exists_session (hb : b.asserts = true) {endpoint : ι → SlEndpoint}
    {s t : ι → Spec.Phase Name} {acts : List (ι × Spec.Act Name)}
    (hpath : Path Spec.Step s acts t)
    (hnames : ∀ j name, (j, .bound name) ∈ acts → name = (endpoint j).sockaddr b.platform)
    (hs : ∀ j, Represents b w j (s j)) (hendpoint : ∀ j, (w.socks j).endpoint = endpoint j)
    (hspare : w.Spare b.platform acts.length) :
    ∃ steps outcomes v, exec (pluginStep b) w steps = some (outcomes, v) ∧
      Along (pluginStep b) (fun w e _ _ => Proper b w e) w steps ∧
      steps.map Step.sock = acts.map Prod.fst ∧
      writes Step.act steps outcomes = acts ∧ ∀ j, Represents b v j (t j) := by
  induction hpath generalizing w with
  | nil s => exact ⟨[], [], w, rfl, trivial, rfl, rfl, hs⟩
  | @cons s s₁ t x acts hstep _ ih =>
      obtain ⟨d, _, hd, hfree⟩ := hspare ∅ (Nat.zero_le _)
      have hname : ∀ name, x.2 = .bound name →
          name = (w.socks x.1).endpoint.sockaddr b.platform := by
        obtain ⟨i, x⟩ := x
        rintro name rfl
        rw [hendpoint i]
        exact hnames i name List.mem_cons_self
      obtain ⟨e, o, w₁, hrun, hact, hproper, hs₁, hkept⟩ :=
        exists_next hb hs hstep hname hd hfree
      obtain ⟨d₁, hgrows⟩ := pluginStep_grows hrun
      obtain ⟨steps, outcomes, v, hrest, halong, hsocks, hwrites, ht⟩ := ih
        (fun j name hmem => hnames j name (List.mem_cons_of_mem _ hmem)) hs₁
        (fun j => (hkept j).trans (hendpoint j)) (hspare.step hgrows)
      refine ⟨e :: steps, o :: outcomes, v, exec_cons_iff.mpr ⟨o, w₁, outcomes, hrun, hrest, rfl⟩,
        (along_cons_iff hrun).mpr ⟨hproper, halong⟩, ?_, ?_, ht⟩
      · rw [List.map_cons, List.map_cons, (Step.act_eq_some hact).1, hsocks]
      · rw [writes_cons, hact, hwrites]
        rfl

/--
**Realization.**  In a build with assertions, on every platform and for any
number of sockets: every path of the specification from all idle, in which
sockets are named by their own endpoints, is shown by a session of proper calls,
which ends in the phases of the path, if the process has a descriptor to spare
for every act and the system grants the calls of the session (a `bind()` that
leaves a socket without a name aside).
-/
theorem realizes (p : Platform) (w : World ι) (endpoint : ι → SlEndpoint)
    {acts : List (ι × Spec.Act Name)} {t : ι → Spec.Phase Name}
    (hpath : Path Spec.Step (fun _ => Spec.Phase.idle) acts t)
    (hnames : ∀ j name, (j, .bound name) ∈ acts → name = (endpoint j).sockaddr p)
    (hspare : w.Spare p acts.length) :
    ∃ steps outcomes v,
      exec (pluginStep ⟨true, p⟩) (w.start endpoint) steps = some (outcomes, v) ∧
      Along (pluginStep ⟨true, p⟩) (fun w e _ _ => Proper ⟨true, p⟩ w e)
        (w.start endpoint) steps ∧
      writes Step.act steps outcomes = acts ∧ ∀ j, Represents ⟨true, p⟩ v j (t j) := by
  have hstart : (w.start endpoint).Spare p acts.length := by
    intro used hused
    obtain ⟨d, hd, hdesc, hfree⟩ := hspare used hused
    exact ⟨d, hd, hdesc, by simp [World.start, hfree]⟩
  have hendpoint : ∀ j, ((w.start endpoint).socks j).endpoint = endpoint j := fun _ => rfl
  have hidle : ∀ j, Represents ⟨true, p⟩ (w.start endpoint) j .idle :=
    fun j => .start _ w endpoint j
  obtain ⟨steps, outcomes, v, hrun, hproper, _, hwrites, ht⟩ :=
    exists_session (b := ⟨true, p⟩) rfl hpath hnames hidle hendpoint hstart
  exact ⟨steps, outcomes, v, hrun, hproper, hwrites, ht⟩

end Paths

/-! ### A path of two sockets -/

/-- One socket gets its name and sends, the other is left without one. -/
def outing : List (Bool × Spec.Act Name) :=
  [(true, .bound ((anyEndpoint 2).sockaddr .posix)), (true, .transferred), (false, .unnamed)]

theorem outing_path :
    Path Spec.Step (fun _ => Spec.Phase.idle) outing fun i =>
      .opened (if i then some ((anyEndpoint 2).sockaddr .posix) else none) false := by
  let name := (anyEndpoint 2).sockaddr .posix
  let one : Bool → Spec.Phase Name := fun i => if i then .opened (some name) false else .idle
  have hbound : Spec.Step (fun _ => .idle) (true, .bound name) one :=
    ⟨.bound name, fun i hi => if_neg hi⟩
  have hsent : Spec.Step one (true, .transferred) one := ⟨.transferred name false, fun _ _ => rfl⟩
  have hopened : Spec.Step one (false, .unnamed) fun i =>
      .opened (if i then some name else none) false := by
    refine ⟨.unnamed, fun i hi => ?_⟩
    obtain rfl : i = true := by cases i <;> simp_all
    rfl
  exact .cons hbound (.cons hsent (.cons hopened (.nil _)))

theorem World.pair_spare : World.pair.Spare .posix 3 := by
  refine World.Spare.of_free (F := {1, 2, 3, 4}) ?_ (by decide)
  intro d hd
  simp only [Finset.mem_insert, Finset.mem_singleton] at hd
  rcases hd with rfl | rfl | rfl | rfl <;> exact ⟨rfl, rfl⟩

/-- The theorem at that path. -/
theorem realizes_outing :
    ∃ steps outcomes v, exec (pluginStep ⟨true, .posix⟩)
        (World.pair.start fun _ => anyEndpoint 2) steps = some (outcomes, v) ∧
      Along (pluginStep ⟨true, .posix⟩) (fun w e _ _ => Proper ⟨true, .posix⟩ w e)
        (World.pair.start fun _ => anyEndpoint 2) steps ∧
      writes Step.act steps outcomes = outing ∧
      ∀ j, Represents ⟨true, .posix⟩ v j
        (.opened (if j then some ((anyEndpoint 2).sockaddr .posix) else none) false) := by
  refine realizes .posix World.pair (fun _ => anyEndpoint 2) outing_path (fun j name hmem => ?_)
    World.pair_spare
  rcases List.mem_cons.mp hmem with heq | hmem
  · exact Spec.Act.bound.inj (Prod.mk.inj heq).2
  · simp at hmem

end SockLynx
