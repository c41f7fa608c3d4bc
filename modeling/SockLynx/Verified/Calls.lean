import SockLynx.Verified.Effects

/-!
# What one plugin call can do

The entry points of the plugin add two things to the operations of `sock.h`:
guards against null pointers, and `socklynx_socket_open`, which creates and
then binds.  `CallEffect` is `SockEffect` with these two.

## Main results

* `Call.run_iff` — a plugin call ends in `(r, w')` exactly when `CallEffect`
  says so.
* `pluginStep_iff` — the same for a step of a session.
* `CallEffect.preserves` — what the operations preserve, a plugin call
  preserves.
-/

namespace SockLynx

variable {ι : Type} [DecidableEq ι]

/-! ## Effects of a call -/

/-- A pointer argument of the call is null. -/
def Call.hasNull : Call ι → Bool
  | .socketSend buf _ endpoint => buf.isNone || !endpoint.nonNull
  | .socketRecv buf _ endpoint => buf.isNone || !endpoint.nonNull
  | _ => false

/-- The operation a call other than open hands its arguments to. -/
def Call.op : Call ι → Option (SockOp ι)
  | .socketOpen => none
  | .socketClose => some .close
  | .socketNonblocking enabled => some (.mode (enabled != 0))
  | .socketSend buf bufcount endpoint => some (.send buf bufcount endpoint)
  | .socketRecv buf bufcount endpoint => some (.recv buf bufcount endpoint)

/-- The creation that opens a socket. -/
def createUdp : SockOp ι := .create slSockTypeDgram slSockProtoUdp

/-- How a plugin call on socket `i` can end: at a null guard, in the creation,
in the bind after it, or as the one operation it consists of. -/
inductive CallEffect (b : Build) (a : Answers) (i : ι) (w : World ι) :
    Call ι → Int32 → World ι → Prop
  | guarded {call : Call ι} (hnull : call.hasNull = true) : CallEffect b a i w call slErr w
  | notCreated {r : Int32} {w' : World ι} (hready : (createUdp : SockOp ι).Ready b (w.socks i))
      (he : SockEffect b a i w createUdp r w') (hr : r = slErr) :
      CallEffect b a i w .socketOpen r w'
  | created {r r₁ : Int32} {w₁ w' : World ι} (hready : (createUdp : SockOp ι).Ready b (w.socks i))
      (hc : SockEffect b a i w createUdp r₁ w₁) (hr : r₁ = slOk)
      (he : SockEffect b a i w₁ .bind r w') : CallEffect b a i w .socketOpen r w'
  | op {call : Call ι} {op : SockOp ι} {r : Int32} {w' : World ι} (hop : call.op = some op)
      (hnull : call.hasNull = false) (hready : op.Ready b (w.socks i))
      (he : SockEffect b a i w op r w') : CallEffect b a i w call r w'

/-! ## Every call is one of its effects -/

section Specs

variable {b : Build} {a : Answers} {i : ι} {w w' : World ι} {r : Int32}

/-- Creation ends in `SL_ERR`, or in `SL_OK` with the socket created. -/
theorem SockEffect.create_cases {type proto : UInt32}
    (h : SockEffect b a i w (.create type proto) r w') :
    r = slErr ∨ r = slOk ∧ (w'.socks i).state = SlSockState.created.val := by
  cases h with
  | createRefused _ => exact Or.inl rfl
  | createHalf _ _ _ => exact Or.inl rfl
  | createV6 _ _ _ => exact Or.inr ⟨rfl, by simp⟩
  | createOther _ _ => exact Or.inr ⟨rfl, by simp⟩
  | refused hc _ => simp [SockOp.decisive] at hc

theorem SockEffect.created_state {type proto : UInt32}
    (h : SockEffect b a i w (.create type proto) r w') (hr : r = slOk) :
    (w'.socks i).state = SlSockState.created.val :=
  (h.create_cases.resolve_left (hr ▸ slOk_ne_slErr)).2

/-- Creation succeeds exactly when the system grants what it asks for. -/
theorem SockEffect.create_ok_iff {type proto : UInt32}
    (h : SockEffect b a i w (.create type proto) r w') : r = slOk ↔ w.Creates b a i := by
  cases h with
  | createRefused hs =>
      refine iff_of_false slOk_ne_slErr.symm fun hc => ?_
      simp [World.Creates, hs] at hc
  | createHalf hs h6 ho =>
      exact iff_of_false slOk_ne_slErr.symm fun hc => by simp [World.Creates, ho, h6] at hc
  | createV6 hs _ ho => exact iff_of_true rfl ⟨⟨_, hs⟩, fun _ => ho⟩
  | createOther hs h6 => exact iff_of_true rfl ⟨⟨_, hs⟩, fun h => by simp [h6] at h⟩
  | refused hc _ => simp [SockOp.decisive] at hc

/-- Binding ends in `SL_ERR`, or in `SL_OK` with the socket bound. -/
theorem SockEffect.bind_cases (h : SockEffect b a i w .bind r w') :
    r = slErr ∨ r = slOk ∧ (w'.socks i).state = SlSockState.bound.val := by
  cases h with
  | refused _ _ => exact Or.inl rfl
  | bindDone _ _ _ => exact Or.inr ⟨rfl, by simp⟩

private theorem open_of_not_created (h : createUdp.run b a i w = .ok (slErr, w')) :
    socklynxSocketOpen b a (some i) w = .ok (slErr, w') := by
  have h : slSockCreate b a (some i) slSockTypeDgram slSockProtoUdp w = .ok (slErr, w') := h
  have hne : slErr ≠ 0 := by decide
  simp [socklynxSocketOpen, Sl.bind_apply, h, hne]

private theorem open_of_created {w₁ : World ι} (h : createUdp.run b a i w = .ok (slOk, w₁))
    (hb : (.bind : SockOp ι).run b a i w₁ = .ok (r, w')) (hr : r = slErr ∨ r = slOk) :
    socklynxSocketOpen b a (some i) w = .ok (r, w') := by
  have h : slSockCreate b a (some i) slSockTypeDgram slSockProtoUdp w = .ok (slOk, w₁) := h
  have hb : slSockBind b a (some i) w₁ = .ok (r, w') := hb
  have hne : slErr ≠ 0 := by decide
  rcases hr with rfl | rfl
  · simp [socklynxSocketOpen, Sl.bind_apply, h, hb, slOk, hne]
  · simp [socklynxSocketOpen, Sl.bind_apply, h, hb, slOk]

/-- `socklynx_socket_open` -/
theorem socklynxSocketOpen_iff :
    socklynxSocketOpen b a (some i) w = .ok (r, w') ↔ CallEffect b a i w .socketOpen r w' := by
  constructor
  · intro h
    cases hc : createUdp.run b a i w with
    | error stop =>
        have hc : slSockCreate b a (some i) slSockTypeDgram slSockProtoUdp w = .error stop := hc
        simp [socklynxSocketOpen, Sl.bind_apply, hc] at h
    | ok p =>
        obtain ⟨r₁, w₁⟩ := p
        obtain ⟨hready, hce⟩ := SockOp.run_iff.mp hc
        rcases hce.create_cases with rfl | ⟨rfl, hstate⟩
        · obtain ⟨rfl, rfl⟩ : slErr = r ∧ w₁ = w' := by
            simpa [h] using (open_of_not_created hc).symm
          exact .notCreated hready hce rfl
        · obtain ⟨r₂, w₂, hbe⟩ := SockOp.exists_effect b a i w₁ .bind
          have hready₁ : (.bind : SockOp ι).Ready b (w₁.socks i) := fun _ => hstate
          have hb := SockOp.run_of_effect hready₁ hbe
          have hr := hbe.bind_cases.imp_right And.left
          obtain ⟨rfl, rfl⟩ : r₂ = r ∧ w₂ = w' := by
            simpa [h] using (open_of_created hc hb hr).symm
          exact .created hready hce rfl hbe
  · intro h
    cases h with
    | guarded hnull => simp [Call.hasNull] at hnull
    | notCreated hready he hr =>
        subst hr
        exact open_of_not_created (SockOp.run_of_effect hready he)
    | created hready hc hr he =>
        subst hr
        have hstate := hc.create_cases.resolve_left slOk_ne_slErr
        exact open_of_created (SockOp.run_of_effect hready hc)
          (SockOp.run_of_effect (fun _ => hstate.2) he) (he.bind_cases.imp_right And.left)
    | op hop _ _ _ => simp [Call.op] at hop

omit [DecidableEq ι] in
/-- Only an open creates or binds. -/
theorem Call.op_ne {call : Call ι} {op : SockOp ι} (h : call.op = some op) :
    op ≠ .bind ∧ ∀ type proto, op ≠ .create type proto := by
  cases call <;> simp [Call.op] at h <;> simp [← h]

/-- A call without a null argument runs its operation. -/
theorem Call.run_op {call : Call ι} {op : SockOp ι} (hop : call.op = some op)
    (hnull : call.hasNull = false) : call.run b a i w = op.run b a i w := by
  cases call with
  | socketOpen => simp [Call.op] at hop
  | socketClose =>
      obtain rfl := Option.some.inj hop
      simp [Call.run, socklynxSocketClose, SockOp.run]
  | socketNonblocking enabled =>
      obtain rfl := Option.some.inj hop
      by_cases h : enabled = 0
      · simp [Call.run, socklynxSocketNonblocking, SockOp.run, h]
      · have h' : (enabled != 0) = true := by simpa using h
        simp [Call.run, socklynxSocketNonblocking, SockOp.run, h, h']
  | socketSend buf bufcount endpoint =>
      obtain rfl := Option.some.inj hop
      simp only [Call.hasNull, Bool.or_eq_false_iff] at hnull
      simp [Call.run, socklynxSocketSend, SockOp.run, hnull]
  | socketRecv buf bufcount endpoint =>
      obtain rfl := Option.some.inj hop
      simp only [Call.hasNull, Bool.or_eq_false_iff] at hnull
      simp [Call.run, socklynxSocketRecv, SockOp.run, hnull]

/-- A call with a null argument returns at its guard. -/
theorem Call.run_hasNull {call : Call ι} (hnull : call.hasNull = true) :
    call.run b a i w = .ok (slErr, w) := by
  cases call with
  | socketOpen => simp [Call.hasNull] at hnull
  | socketClose => simp [Call.hasNull] at hnull
  | socketNonblocking enabled => simp [Call.hasNull] at hnull
  | socketSend buf bufcount endpoint =>
      cases hb : buf.isNone <;> simp_all [Call.hasNull, Call.run, socklynxSocketSend]
  | socketRecv buf bufcount endpoint =>
      cases hb : buf.isNone <;> simp_all [Call.hasNull, Call.run, socklynxSocketRecv]

/-- **Inversion.**  A plugin call returns `r` and leaves `w'` exactly when
`CallEffect` says so. -/
theorem Call.run_iff {call : Call ι} :
    call.run b a i w = .ok (r, w') ↔ CallEffect b a i w call r w' := by
  cases hop : call.op with
  | none =>
      obtain rfl : call = .socketOpen := by cases call <;> simp [Call.op] at hop ⊢
      exact socklynxSocketOpen_iff
  | some op =>
      constructor
      · intro h
        cases hnull : call.hasNull with
        | true =>
            rw [Call.run_hasNull hnull, Except.ok.injEq, Prod.mk.injEq] at h
            obtain ⟨rfl, rfl⟩ := h
            exact .guarded hnull
        | false =>
            rw [Call.run_op hop hnull] at h
            obtain ⟨hready, he⟩ := SockOp.run_iff.mp h
            exact .op hop hnull hready he
      · intro h
        cases h with
        | guarded hnull => exact Call.run_hasNull hnull
        | notCreated _ _ _ => simp [Call.op] at hop
        | created _ _ _ _ => simp [Call.op] at hop
        | op hop' hnull hready he =>
            rw [Call.run_op hop' hnull]
            exact SockOp.run_of_effect hready he

/-- A step of a session, as an effect on the world with an empty log. -/
theorem pluginStep_iff {e : Step ι (Call ι)} {o : Outcome} :
    pluginStep b w e = some (o, w') ↔
      CallEffect b e.answers e.sock w.clearLog e.call o.ret w' ∧ o.events = w'.os.log := by
  rw [pluginStep, callStep_eq_some_iff, Call.run_iff]

/-- From NEW and CLOSED an open returns. -/
theorem exists_openEffect (b : Build) (a : Answers) {i : ι} {w : World ι}
    (hstate : (w.socks i).state = SlSockState.new.val ∨
      (w.socks i).state = SlSockState.closed.val) :
    ∃ r w', CallEffect b a i w .socketOpen r w' ∧ (r = slErr ∨ r = slOk) := by
  have hready : (createUdp : SockOp ι).Ready b (w.socks i) := fun _ => hstate
  obtain ⟨r, w₁, hc⟩ := SockOp.exists_effect b a i w createUdp
  rcases hc.create_cases with hr | ⟨hr, _⟩
  · exact ⟨r, w₁, .notCreated hready hc hr, Or.inl hr⟩
  · obtain ⟨r', w', he⟩ := SockOp.exists_effect b a i w₁ .bind
    exact ⟨r', w', .created hready hc hr he, he.bind_cases.imp_right And.left⟩

/-- What creation and the operations preserve, a plugin call preserves. -/
theorem CallEffect.preserves {I : World ι → Prop} {call : Call ι}
    (hstep : ∀ op w r w', I w → SockOp.Ready b (w.socks i) op → SockEffect b a i w op r w' →
      I w') (hI : I w) (h : CallEffect b a i w call r w') : I w' := by
  cases h with
  | guarded _ => exact hI
  | notCreated hready he _ => exact hstep _ _ _ _ hI hready he
  | created hready hc hr he =>
      have hready₁ : (.bind : SockOp ι).Ready b _ := fun _ => hc.created_state hr
      exact hstep _ _ _ _ (hstep _ _ _ _ hI hready hc) hready₁ he
  | op _ _ hready he => exact hstep _ _ _ _ hI hready he

end Specs

end SockLynx
