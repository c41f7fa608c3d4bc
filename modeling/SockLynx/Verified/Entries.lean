import SockLynx.Verified.Calls
import SockLynx.Verified.Network

/-!
# All seven entry points

The entry points with the pointers they may be given.  Four of them return at
a guard when the socket is null; the other three hand the null pointer on, and
the process stops at the assertion inside, or at the first access where
assertions are compiled out.

## Main results

* `PluginCall.run_handsNull` — a null pointer that is handed on stops the
  process.
* `PluginCall.run_iff`, `entryStep_iff` — an entry point ends in `(r, w')`
  exactly when `EntryEffect` says so.
-/

namespace SockLynx

variable {ι : Type} [DecidableEq ι]

/-- The call is handed a null pointer that its entry point does not guard
against. -/
def PluginCall.handsNull : PluginCall ι → Bool
  | .setup sys => sys.isNone
  | .cleanup sys => sys.isNone
  | .socket sock (.socketNonblocking _) => sock.isNone
  | .socket _ _ => false

section Null

variable {b : Build} {a : Answers} {w : World ι}

/-- How the process stops when an asserted pointer is null. -/
def nullStop (b : Build) : Stop := if b.asserts then .assertion else .nullPointer

omit [DecidableEq ι] in
/-- The assertion that a pointer is not null stops the process, or what follows
it does. -/
theorem slAssert_null_bind {α : Type} {f : Unit → Sl ι α}
    (h : b.asserts = false → f () w = .error .nullPointer) :
    (slAssert b false >>= f) w = .error (nullStop b) := by
  cases hb : b.asserts with
  | true => simp [Sl.bind_apply, slAssert, hb, nullStop]
  | false => simp [Sl.bind_apply, slAssert, hb, nullStop, h hb]

omit [DecidableEq ι] in
/-- Without assertions the descriptor is read through the null pointer. -/
theorem slSockFdGet_null (hb : b.asserts = false) :
    slSockFdGet b (none : Option ι) w = .error .nullPointer := by
  simp [slSockFdGet, Sl.bind_apply, slAssert, hb, deref]

/-- A null pointer that is handed on stops the process. -/
theorem PluginCall.run_handsNull {c : PluginCall ι} (h : c.handsNull = true) :
    c.run b a w = .error (nullStop b) := by
  cases c with
  | setup sys =>
      obtain rfl : sys = none := by simpa [handsNull] using h
      exact slAssert_null_bind fun _ => rfl
  | cleanup sys =>
      obtain rfl : sys = none := by simpa [handsNull] using h
      exact slAssert_null_bind fun _ => rfl
  | socket sock call =>
      cases call with
      | socketNonblocking enabled =>
          obtain rfl : sock = none := by simpa [handsNull] using h
          by_cases he : enabled = 0
          · have hoff : slSockBlockingSet b a (none : Option ι) w = .error (nullStop b) := by
              refine slAssert_null_bind fun hb => ?_
              cases hw : b.platform.winsock <;> simp [Sl.bind_apply, slSockFdGet_null hb]
            simp [run, Call.runAt, socklynxSocketNonblocking, he, hoff]
          · have hon : slSockNonblockingSet b a (none : Option ι) w = .error (nullStop b) := by
              refine slAssert_null_bind fun hb => ?_
              cases hw : b.platform.winsock <;> simp [Sl.bind_apply, slSockFdGet_null hb]
            simp [run, Call.runAt, socklynxSocketNonblocking, he, hon]
      | socketOpen | socketClose | socketSend | socketRecv => simp [handsNull] at h

/-- Every other entry point guards against a null socket. -/
theorem Call.runAt_none {call : Call ι} (h : ∀ enabled, call ≠ .socketNonblocking enabled) :
    call.runAt b a none w = .ok (slErr, w) := by
  cases call with
  | socketNonblocking enabled => exact absurd rfl (h enabled)
  | socketOpen | socketClose | socketSend | socketRecv => rfl

end Null

/-! ## Every call is one of its effects -/

/-- How a call of an entry point can end. -/
inductive EntryEffect (b : Build) (a : Answers) (w : World ι) :
    PluginCall ι → Int32 → World ι → Prop
  | setup {i : ι} {r : Int32} {w' : World ι} (he : SysEffect b a i w .setup r w') :
      EntryEffect b a w (.setup (some i)) r w'
  | cleanup {i : ι} {r : Int32} {w' : World ι} (he : SysEffect b a i w .cleanup r w') :
      EntryEffect b a w (.cleanup (some i)) r w'
  | noSocket {call : Call ι} (h : ∀ enabled, call ≠ .socketNonblocking enabled) :
      EntryEffect b a w (.socket none call) slErr w
  | socket {i : ι} {call : Call ι} {r : Int32} {w' : World ι}
      (he : CallEffect b a i w call r w') : EntryEffect b a w (.socket (some i) call) r w'

section Effects

variable {b : Build} {a : Answers} {w w' : World ι} {c : PluginCall ι} {r : Int32}

theorem PluginCall.run_setup (i : ι) :
    (PluginCall.setup (some i)).run b a = SysCall.run b a i .setup := rfl

theorem PluginCall.run_cleanup (i : ι) :
    (PluginCall.cleanup (some i)).run b a = SysCall.run b a i .cleanup := rfl

theorem PluginCall.run_socket (i : ι) (call : Call ι) :
    (PluginCall.socket (some i) call).run b a = call.run b a i :=
  Call.runAt_some b a i call

omit [DecidableEq ι] in
/-- A null socket that is not handed on was not given to the mode switch. -/
theorem PluginCall.ne_nonblocking {call : Call ι}
    (hnull : (PluginCall.socket none call).handsNull = false) (enabled : UInt32) :
    call ≠ .socketNonblocking enabled := by
  rintro rfl
  simp [handsNull] at hnull

/-- **Inversion.**  An entry point returns `r` and leaves `w'` exactly when
`EntryEffect` says so. -/
theorem PluginCall.run_iff : c.run b a w = .ok (r, w') ↔ EntryEffect b a w c r w' := by
  constructor
  · intro h
    have hnull : c.handsNull = false := by
      cases hnull : c.handsNull with
      | false => rfl
      | true =>
          rw [PluginCall.run_handsNull hnull] at h
          exact nomatch h
    cases c with
    | setup sys =>
        obtain ⟨i, rfl⟩ := Option.isSome_iff_exists.mp (by simpa [handsNull] using hnull)
        exact .setup (SysCall.run_iff.mp h)
    | cleanup sys =>
        obtain ⟨i, rfl⟩ := Option.isSome_iff_exists.mp (by simpa [handsNull] using hnull)
        exact .cleanup (SysCall.run_iff.mp h)
    | socket sock call =>
        cases sock with
        | none =>
            have hne := PluginCall.ne_nonblocking hnull
            have hguard := (Call.runAt_none (b := b) (a := a) (w := w) hne).symm.trans h
            rw [Except.ok.injEq, Prod.mk.injEq] at hguard
            obtain ⟨rfl, rfl⟩ := hguard
            exact .noSocket hne
        | some i =>
            rw [PluginCall.run_socket] at h
            exact .socket (Call.run_iff.mp h)
  · intro h
    cases h with
    | setup he =>
        rw [PluginCall.run_setup]
        exact SysCall.run_iff.mpr he
    | cleanup he =>
        rw [PluginCall.run_cleanup]
        exact SysCall.run_iff.mpr he
    | noSocket h => exact Call.runAt_none h
    | socket he =>
        rw [PluginCall.run_socket]
        exact Call.run_iff.mpr he

/-- A step of a session of all entry points, as an effect on the world with an
empty log. -/
theorem entryStep_iff {e : Entry ι} {o : Outcome} :
    entryStep b w e = some (o, w') ↔
      EntryEffect b e.answers w.clearLog e.call o.ret w' ∧ o.events = w'.os.log := by
  rw [entryStep, callStep_eq_some_iff, PluginCall.run_iff]

theorem SysEffect.socks {i : ι} {call : SysCall} (h : SysEffect b a i w call r w') :
    w'.socks = w.socks := by
  cases h with
  | already _ => rfl
  | called _ => exact SysCall.kernel_socks

end Effects

end SockLynx
