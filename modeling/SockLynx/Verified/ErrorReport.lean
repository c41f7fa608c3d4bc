import SockLynx.Verified.Frame

/-!
# `sock->error` after a call

Every exit on a failed system call stores `errno` in `sock->error`, except
one: where `setsockopt` is refused, `SL_GUARD` returns without storing
anything, and `error` keeps whatever value it had.

## Main results

* `Reports` — on `SL_ERR` the last system call failed and `error` is its
  `errno`; otherwise `error` is unchanged.
* `errorReport_iff` — a call reports exactly when it is not an open refused
  `IPV6_V6ONLY` with an `errno` other than the old `error`.
-/

namespace SockLynx

variable {ι : Type} [DecidableEq ι]

/-- The socket of a step reports what happened in it. -/
def Reports (w : World ι) (i : ι) (o : Outcome) (w' : World ι) : Prop :=
  (o.ret = slErr → ∃ call e, o.events.getLast? = some ⟨call, .error e⟩ ∧
    (w'.socks i).error = e.toUInt32) ∧
    (o.ret ≠ slErr → (w'.socks i).error = (w.socks i).error)

/-- The call is an open that is refused `IPV6_V6ONLY`, and `error` is not
already the `errno` of that. -/
def StaleError (b : Build) (w : World ι) (e : Step ι (Call ι)) : Prop :=
  e.call = .socketOpen ∧ w.isV6 b e.sock = true ∧
    (∃ d, w.os.onSocket b.platform e.answers = .ok d) ∧
    ∃ err, e.answers.setsockopt = .error err ∧ err.toUInt32 ≠ (w.socks e.sock).error

section Steps

variable {b : Build} {a : Answers} {i : ι} {w w' : World ι} {op : SockOp ι} {r : Int32}

omit [DecidableEq ι] in
/-- An exit with a failed last call reports if it stored that call's
`errno`. -/
theorem reports_of_failed {call : Syscall} {e : Int32} {log : List Event} {o : Outcome}
    (hret : o.ret = slErr) (hlog : o.events = log ++ [⟨call, .error e⟩])
    (herror : (w'.socks i).error = e.toUInt32) : Reports w i o w' :=
  ⟨fun _ => ⟨call, e, by simp [hlog], herror⟩, fun h => absurd hret h⟩

omit [DecidableEq ι] in
/-- An exit with success reports if it left the error alone. -/
theorem reports_of_success {o : Outcome} (hret : o.ret ≠ slErr)
    (herror : (w'.socks i).error = (w.socks i).error) : Reports w i o w' :=
  ⟨fun h => absurd h hret, fun _ => herror⟩

/-- Creation aside, every operation reports. -/
theorem SockEffect.reports (hcreate : ∀ type proto, op ≠ .create type proto)
    (h : SockEffect b a i w op r w') : Reports w i ⟨r, w'.os.log⟩ w' := by
  cases h with
  | createRefused | createHalf | createV6 | createOther => exact (hcreate _ _ rfl).elim
  | refused _ _ => exact reports_of_failed rfl rfl (by simp)
  | bindDone _ _ _ => exact reports_of_success slOk_ne_slErr (by simp)
  | closeDone _ _ _ => exact reports_of_success slOk_ne_slErr (by simp)
  | modeDone _ _ _ => exact reports_of_success slOk_ne_slErr (by simp)
  | @sendDone _ _ _ _ _ n _ _ _ => exact reports_of_success (transferred_ne_slErr n.isLt) rfl
  | @recvDone _ _ _ _ _ dg _ _ _ =>
      have hlt := dg.payload_lt
      exact reports_of_success (transferred_ne_slErr (by omega)) (by simp)

/-- A failed creation in an open reports exactly when the error is not
stale. -/
theorem SockEffect.reports_create_iff {type proto : UInt32} (hr : r = slErr)
    (h : SockEffect b a i w (.create type proto) r w') :
    Reports w i ⟨r, w'.os.log⟩ w' ↔ ¬StaleError b w ⟨i, .socketOpen, a⟩ := by
  cases h with
  | createRefused hs =>
      refine iff_of_true (reports_of_failed rfl rfl (by simp)) ?_
      rintro ⟨_, _, ⟨d, hd⟩, _⟩
      simp [hs] at hd
  | @createHalf _ _ _ e hs h6 ho =>
      constructor
      · rintro hreports ⟨_, _, _, err, herr, hne⟩
        obtain rfl : e = err := by simpa [ho] using herr
        obtain ⟨call, e', hlast, herror⟩ := hreports.1 rfl
        obtain ⟨_, rfl⟩ : _ ∧ e = e' := by simpa using hlast
        exact hne (by simpa using herror.symm)
      · intro hstale
        have herror : e.toUInt32 = (w.socks i).error := by
          by_contra hne
          exact hstale ⟨rfl, h6, ⟨_, hs⟩, e, ho, hne⟩
        exact reports_of_failed rfl rfl (by simp [herror])
  | createV6 _ _ _ => exact absurd hr slOk_ne_slErr
  | createOther _ _ => exact absurd hr slOk_ne_slErr
  | refused hc _ => simp [SockOp.decisive] at hc

/-- A call without a null argument reports exactly when its error is not
stale. -/
theorem CallEffect.reports_iff {call : Call ι} (hnull : call.hasNull = false)
    (h : CallEffect b a i w call r w') :
    Reports w i ⟨r, w'.os.log⟩ w' ↔ ¬StaleError b w ⟨i, call, a⟩ := by
  cases h with
  | guarded hnull' => simp [hnull] at hnull'
  | notCreated _ he hr => exact he.reports_create_iff hr
  | @created _ _ w₁ _ _ hc hr he =>
      obtain ⟨d, desc, hnew⟩ := hc.created hr
      obtain ⟨flags, hsock⟩ := hnew.sock
      have herror : (w₁.socks i).error = (w.socks i).error := by rw [hsock]
      refine iff_of_true ?_ ?_
      · obtain ⟨hfailed, hsuccess⟩ := he.reports SockOp.bind_ne_create
        exact ⟨hfailed, fun h => (hsuccess h).trans herror⟩
      · rintro ⟨_, h6, _, err, ho, _⟩
        have hgranted := ((SockEffect.create_ok_iff hc).mp hr).2 h6
        simp only at ho
        simp [hgranted] at ho
  | op hop _ _ he =>
      refine iff_of_true (he.reports (Call.op_ne hop).2) ?_
      rintro ⟨hcall, _⟩
      simp only at hcall
      simp [hcall, Call.op] at hop

end Steps

/--
**Error codes.**  In every state in which the call's assertions hold, for every
non-null argument and every answer: a call reports its failing system call's
`errno`, and leaves `error` alone on success, exactly when it is not an open
whose `setsockopt` fails with an `errno` that `error` does not hold already.
-/
theorem errorReport_iff (b : Build) (w : World ι) (e : Step ι (Call ι))
    (hnull : e.call.hasNull = false) {o : Outcome} {w' : World ι}
    (h : pluginStep b w e = some (o, w')) :
    Reports w e.sock o w' ↔ ¬StaleError b w e := by
  obtain ⟨he, hlog⟩ := pluginStep_iff.mp h
  obtain ⟨ret, events⟩ := o
  obtain rfl : events = w'.os.log := hlog
  have hiff := CallEffect.reports_iff hnull he
  exact hiff

/-- The rule at a close that the system refuses. -/
theorem errorReport_iff_refused_close :
    (.socketClose : Call Unit).hasNull = false ∧
      ∃ o w', pluginStep ⟨true, .posix⟩ World.small
          ⟨(), .socketClose, { Answers.granting 3 with close := .error 5 }⟩ = some (o, w') ∧
        (Reports World.small () o w' ↔ ¬StaleError ⟨true, .posix⟩ World.small
          ⟨(), .socketClose, { Answers.granting 3 with close := .error 5 }⟩) :=
  ⟨rfl, ⟨slErr, _⟩, _, rfl, errorReport_iff ⟨true, .posix⟩ World.small
    ⟨(), .socketClose, { Answers.granting 3 with close := .error 5 }⟩ rfl rfl⟩

/-- The failing call: a refused `setsockopt` (92) leaves `error` at 0. -/
theorem errorReport_refused_option :
    ∃ o w', pluginStep ⟨true, .posix⟩ (World.small.start fun _ => anyEndpoint 10)
        ⟨(), .socketOpen, { Answers.granting 3 with setsockopt := .error 92 }⟩ = some (o, w') ∧
      ¬Reports (World.small.start fun _ => anyEndpoint 10) () o w' := by
  refine ⟨⟨slErr, _⟩, _, rfl, fun h => ?_⟩
  obtain ⟨call, e, hlast, herror⟩ := h.1 rfl
  obtain ⟨_, he⟩ := Event.mk.inj (Option.some.inj hlast)
  obtain rfl := Except.error.inj he
  exact absurd herror (by decide)

end SockLynx
