import SockLynx.Verified.Entries
import SockLynx.Verified.Frame

/-!
# Misuse through the plugin

The plugin guards against null pointers with an error code and leaves the state
of the socket and the buffer count to the assertions of `sock.h`: a build with
assertions aborts on such a call, a build without carries on with it.  Up to
the first call that aborts the two builds do the same.

## Main results

* `PluginCall.Permitted` — what the assertions ask of a call.
* `PluginCall.contained` — guards, assertions, and the two builds, for one
  call.
* `misuse_contained` — the same at the end of any session.
-/

namespace SockLynx

open SockLynx.Lib.Runs

variable {ι : Type} [DecidableEq ι]

/-- A pointer argument is null and its entry point checks it. -/
def PluginCall.returnsAtGuard : PluginCall ι → Bool
  | .socket none (.socketNonblocking _) => false
  | .socket none _ => true
  | .socket (some _) call => call.hasNull
  | _ => false

/-- The state of the socket and the buffer count are as the assertions of the
call ask. -/
def PluginCall.Permitted (w : World ι) : PluginCall ι → Prop
  | .socket (some i) .socketOpen =>
      (w.socks i).state = SlSockState.new.val ∨ (w.socks i).state = SlSockState.closed.val
  | .socket (some i) (.socketSend _ bufcount _) =>
      0 < bufcount ∧ (w.socks i).state = SlSockState.bound.val
  | .socket (some i) (.socketRecv _ bufcount _) =>
      bufcount ≠ 0 ∧ (w.socks i).state = SlSockState.bound.val
  | _ => True

/-! ## The two builds -/

section Builds

variable {p : Platform} {a : Answers} {i : ι} {w w' : World ι} {r : Int32}

/-- The effects of an operation do not depend on the assertions. -/
theorem SockEffect.without_asserts {op : SockOp ι} (h : SockEffect ⟨true, p⟩ a i w op r w') :
    SockEffect ⟨false, p⟩ a i w op r w' := by
  cases h with
  | createRefused hs => exact .createRefused hs
  | createHalf hs h6 ho => exact .createHalf hs h6 ho
  | createV6 hs h6 ho => exact .createV6 hs h6 ho
  | createOther hs h6 => exact .createOther hs h6
  | refused hc hr => exact .refused hc hr
  | bindDone hc hd ha => exact .bindDone hc hd ha
  | closeDone hc hd ha => exact .closeDone hc hd ha
  | modeDone hc hd ha => exact .modeDone hc hd ha
  | sendDone hc hd ha => exact .sendDone hc hd ha
  | recvDone hc hd ha => exact .recvDone hc hd ha

theorem CallEffect.without_asserts {call : Call ι} (h : CallEffect ⟨true, p⟩ a i w call r w') :
    CallEffect ⟨false, p⟩ a i w call r w' := by
  cases h with
  | guarded hnull => exact .guarded hnull
  | notCreated hready he hr => exact .notCreated hready.of_asserting he.without_asserts hr
  | created hready hc hr he =>
      exact .created hready.of_asserting hc.without_asserts hr he.without_asserts
  | op hop hnull hready he => exact .op hop hnull hready.of_asserting he.without_asserts

theorem SysEffect.without_asserts {call : SysCall} (h : SysEffect ⟨true, p⟩ a i w call r w') :
    SysEffect ⟨false, p⟩ a i w call r w' := by
  cases h with
  | already h => exact .already h
  | called h => exact .called h

theorem EntryEffect.without_asserts {c : PluginCall ι} (h : EntryEffect ⟨true, p⟩ a w c r w') :
    EntryEffect ⟨false, p⟩ a w c r w' := by
  cases h with
  | setup he => exact .setup he.without_asserts
  | cleanup he => exact .cleanup he.without_asserts
  | noSocket h => exact .noSocket h
  | socket he => exact .socket he.without_asserts

/-! ## Which calls abort -/

omit [DecidableEq ι] in
/-- A failing assertion stops a build with assertions. -/
theorem slAssert_false_bind {α : Type} {f : Unit → Sl ι α} {cond : Bool} (h : cond = false) :
    (slAssert ⟨true, p⟩ cond >>= f) w = .error .assertion := by
  simp [Sl.bind_apply, slAssert, h]

omit [DecidableEq ι] in
theorem slAssert_true_bind {α : Type} {b : Build} {f : Unit → Sl ι α} {cond : Bool}
    (h : cond = true) : (slAssert b cond >>= f) w = f () w := by
  rw [Sl.bind_apply, h, slAssert_true]

omit [DecidableEq ι] in
theorem slAssertState_false_bind {α : Type} {f : Unit → Sl ι α} {cond : UInt32 → Bool}
    (h : cond (w.socks i).state = false) :
    (slAssertState ⟨true, p⟩ (some i) cond >>= f) w = .error .assertion := by
  simp [Sl.bind_apply, slAssertState, deref, slAssert, h]

omit [DecidableEq ι] in
/-- The null guards of send and receive let buffers and an endpoint through. -/
theorem pointers_not_null_iff {buf : Option (List SlBuf)} {endpoint : EndpointPtr ι} :
    (buf.isNone || !endpoint.nonNull) = false ↔
      buf.isSome = true ∧ endpoint.nonNull = true := by
  rw [Bool.or_eq_false_iff, Option.isNone_eq_false_iff, Bool.not_eq_false']

/-- A call that is not permitted aborts. -/
theorem Call.run_not_permitted {call : Call ι} (hnull : call.hasNull = false)
    (h : ¬(PluginCall.socket (some i) call).Permitted w) :
    call.run ⟨true, p⟩ a i w = .error .assertion := by
  cases call with
  | socketOpen =>
      have hcreate : slSockCreate ⟨true, p⟩ a (some i) slSockTypeDgram slSockProtoUdp w =
          .error .assertion := by
        rw [slSockCreate, slAssert_true_bind Option.isSome_some]
        refine slAssertState_false_bind ?_
        simpa [PluginCall.Permitted] using h
      simp [Call.run, socklynxSocketOpen, Sl.bind_apply, hcreate]
  | socketClose => exact absurd trivial h
  | socketNonblocking enabled => exact absurd trivial h
  | socketSend buf bufcount endpoint =>
      rw [Call.run_op rfl hnull, SockOp.run, slSockSend, slAssert_true_bind Option.isSome_some]
      rw [Call.hasNull, pointers_not_null_iff] at hnull
      by_cases hcount : 0 < bufcount
      · rw [slAssert_true_bind (by simp [hnull.1, hcount]), slAssert_true_bind hnull.2]
        refine slAssertState_false_bind ?_
        simpa [PluginCall.Permitted, hcount] using h
      · exact slAssert_false_bind (by simp [hcount])
  | socketRecv buf bufcount endpoint =>
      rw [Call.run_op rfl hnull, SockOp.run, slSockRecv, slAssert_true_bind Option.isSome_some]
      rw [Call.hasNull, pointers_not_null_iff] at hnull
      by_cases hcount : bufcount = 0
      · exact slAssert_false_bind (by simp [hcount])
      · rw [slAssert_true_bind (by simp [hnull.1, hcount]), slAssert_true_bind hnull.2]
        refine slAssertState_false_bind ?_
        simpa [PluginCall.Permitted, hcount] using h

/-- A call that is permitted returns. -/
theorem Call.exists_effect_of_permitted {call : Call ι} (hnull : call.hasNull = false)
    (h : (PluginCall.socket (some i) call).Permitted w) :
    ∃ r w', CallEffect ⟨true, p⟩ a i w call r w' := by
  cases hop : call.op with
  | none =>
      obtain rfl : call = .socketOpen := by cases call <;> simp [Call.op] at hop ⊢
      obtain ⟨r, w', he, _⟩ := exists_openEffect ⟨true, p⟩ a h
      exact ⟨r, w', he⟩
  | some op =>
      obtain ⟨r, w', he⟩ := SockOp.exists_effect ⟨true, p⟩ a i w op
      refine ⟨r, w', .op hop hnull ?_ he⟩
      cases call with
      | socketOpen => simp [Call.op] at hop
      | socketClose | socketNonblocking =>
          obtain rfl := Option.some.inj hop
          trivial
      | socketSend buf bufcount endpoint =>
          obtain rfl := Option.some.inj hop
          rw [Call.hasNull, pointers_not_null_iff] at hnull
          exact ⟨hnull.2, fun _ => ⟨hnull.1, h⟩⟩
      | socketRecv buf bufcount endpoint =>
          obtain rfl := Option.some.inj hop
          rw [Call.hasNull, pointers_not_null_iff] at hnull
          exact fun _ => ⟨hnull.1, h.1, hnull.2, h.2⟩

end Builds

/-! ## What becomes of a call -/

/-- What becomes of a call: at a null guard it returns `SL_ERR` and changes
nothing; past the guards it fails an assertion exactly when it is not permitted,
and otherwise it returns, with or without assertions alike. -/
structure Contained (p : Platform) (a : Answers) (w : World ι) (c : PluginCall ι) : Prop where
  guarded : c.returnsAtGuard = true → ∀ asserts, c.run ⟨asserts, p⟩ a w = .ok (slErr, w)
  aborts : c.returnsAtGuard = false →
    (c.run ⟨true, p⟩ a w = .error .assertion ↔ ¬c.Permitted w)
  alike : c.returnsAtGuard = false → c.Permitted w →
    ∃ r w', c.run ⟨true, p⟩ a w = .ok (r, w') ∧ c.run ⟨false, p⟩ a w = .ok (r, w')

section Containment

variable {p : Platform} {a : Answers} {w : World ι} {c : PluginCall ι}

/-- A call whose effect is known returns alike in both builds. -/
theorem Contained.of_effect {r : Int32} {w' : World ι} (hguard : c.returnsAtGuard = false)
    (hpermitted : c.Permitted w) (he : EntryEffect ⟨true, p⟩ a w c r w') :
    Contained p a w c := by
  have hrun := PluginCall.run_iff.mpr he
  refine ⟨fun h => absurd (hguard.symm.trans h) (by simp), fun _ => ?_, fun _ _ =>
    ⟨r, w', hrun, PluginCall.run_iff.mpr he.without_asserts⟩⟩
  exact iff_of_false (by simp [hrun]) (not_not_intro hpermitted)

/-- A call that returns at a guard does so in both builds. -/
theorem Contained.of_guard (hguard : c.returnsAtGuard = true)
    (h : ∀ asserts, c.run ⟨asserts, p⟩ a w = .ok (slErr, w)) : Contained p a w c :=
  ⟨fun _ => h, fun hf => absurd (hf.symm.trans hguard) (by simp),
    fun hf => absurd (hf.symm.trans hguard) (by simp)⟩

/-- Unless it hands on a null pointer, every call is contained. -/
theorem PluginCall.contained (hnull : c.handsNull = false) : Contained p a w c := by
  cases c with
  | setup sys =>
      obtain ⟨i, rfl⟩ := Option.isSome_iff_exists.mp (by simpa [handsNull] using hnull)
      obtain ⟨r, w', he⟩ := SysCall.exists_effect ⟨true, p⟩ a i w .setup
      exact .of_effect rfl trivial (.setup he)
  | cleanup sys =>
      obtain ⟨i, rfl⟩ := Option.isSome_iff_exists.mp (by simpa [handsNull] using hnull)
      obtain ⟨r, w', he⟩ := SysCall.exists_effect ⟨true, p⟩ a i w .cleanup
      exact .of_effect rfl trivial (.cleanup he)
  | socket sock call =>
      cases sock with
      | none =>
          have hne := ne_nonblocking hnull
          refine .of_guard ?_ fun _ => Call.runAt_none hne
          cases call with
          | socketNonblocking enabled => exact absurd rfl (hne enabled)
          | socketOpen | socketClose | socketSend | socketRecv => rfl
      | some i =>
          cases hguard : call.hasNull with
          | true =>
              refine .of_guard hguard fun asserts => ?_
              rw [run_socket, Call.run_hasNull hguard]
          | false =>
              by_cases hpermitted : (PluginCall.socket (some i) call).Permitted w
              · obtain ⟨r, w', he⟩ :=
                  Call.exists_effect_of_permitted (p := p) (a := a) hguard hpermitted
                exact .of_effect hguard hpermitted (.socket he)
              · refine ⟨fun hf => absurd (hguard.symm.trans hf) (by simp), fun _ => ?_,
                  fun _ h => absurd h hpermitted⟩
                rw [run_socket]
                exact iff_of_true (Call.run_not_permitted hguard hpermitted) hpermitted

end Containment

/--
**Misuse.**  Any sequence of calls of the seven entry points on any number of
contexts and sockets, with any arguments and answers: as far as a build with
assertions gets, the build without does the same, and the next call, unless it
hands a null pointer to `socklynx_setup`, `socklynx_cleanup` or
`socklynx_socket_nonblocking`, is contained.
-/
theorem misuse_contained (p : Platform) {w v : World ι} (steps : List (Entry ι))
    {outcomes : List Outcome} (hrun : exec (entryStep ⟨true, p⟩) w steps = some (outcomes, v))
    (e : Entry ι) (hnull : e.call.handsNull = false) :
    exec (entryStep ⟨false, p⟩) w steps = some (outcomes, v) ∧
      Contained p e.answers v.clearLog e.call :=
  ⟨exec_mono (fun _ _ _ _ h => entryStep_iff.mpr ((entryStep_iff.mp h).imp_left
    EntryEffect.without_asserts)) hrun, PluginCall.contained hnull⟩

/-- The theorem at a socket that is open, and a send of no buffers. -/
theorem misuse_contained_open :
    ∃ outcomes v, exec (entryStep ⟨false, .posix⟩) (World.small.start fun _ => anyEndpoint 2)
        [⟨.socket (some ()) .socketOpen, Answers.granting 3⟩] = some (outcomes, v) ∧
      (v.socks ()).state = SlSockState.bound.val ∧
      Contained .posix (Answers.granting 3) v.clearLog
        (.socket (some ()) (.socketSend (some []) 0 (.addr 64))) := by
  have hrun : ∃ outcomes v,
      exec (entryStep ⟨true, .posix⟩) (World.small.start fun _ => anyEndpoint 2)
        [⟨.socket (some ()) .socketOpen, Answers.granting 3⟩] = some (outcomes, v) ∧
      (v.socks ()).state = SlSockState.bound.val := ⟨_, _, rfl, rfl⟩
  obtain ⟨outcomes, v, hrun, hstate⟩ := hrun
  obtain ⟨hrun', hcontained⟩ := misuse_contained .posix _ hrun
    ⟨.socket (some ()) (.socketSend (some []) 0 (.addr 64)), Answers.granting 3⟩ rfl
  exact ⟨outcomes, v, hrun', hstate, hcontained⟩

/-- An abort: opening a socket twice aborts a build with
assertions. -/
theorem misuse_second_open :
    ∃ outcomes v, exec (entryStep ⟨true, .posix⟩) (World.small.start fun _ => anyEndpoint 2)
        [⟨.socket (some ()) .socketOpen, Answers.granting 3⟩] = some (outcomes, v) ∧
      (PluginCall.socket (some ()) .socketOpen).run ⟨true, .posix⟩ (Answers.granting 4) v =
        .error .assertion :=
  ⟨_, _, rfl, rfl⟩

end SockLynx
