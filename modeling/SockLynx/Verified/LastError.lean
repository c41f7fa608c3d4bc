import SockLynx.Verified.Entries
import SockLynx.Verified.Frame

/-!
# What `sock->error` holds

Calls that succeed do not touch `sock->error`, nor do calls on other sockets;
calls that fail overwrite it with the `errno` of their last system call, except
where that is the refused `setsockopt` of a half-finished open.  After a session
the field is therefore a matter of its history alone: the last failure that was
stored, however long ago, or what the field held at first.

Nothing is assumed here of the session, the system or the build.

## Main results

* `SockEffect.error_eq` — what one operation stores.
* `last_error` — the error of a socket after any session.
-/

namespace SockLynx

open SockLynx.Lib.Runs

variable {ι : Type} [DecidableEq ι]

/-- The `errno` that a failed system call leaves in `sock->error`. -/
def Event.stored : Event → Option UInt32
  | ⟨.setsockoptV6only _ _, _⟩ => none
  | ⟨_, .error e⟩ => some e.toUInt32
  | ⟨_, .ok _⟩ => none

/-- The `errno` that a call leaves in `sock->error`. -/
def Outcome.stored (o : Outcome) : Option UInt32 := o.events.getLast?.bind Event.stored

/-- The error that a step stores in socket `i`. -/
def storedIn (i : ι) (e : Entry ι) (o : Outcome) : Option UInt32 :=
  match e.call with
  | .socket (some j) _ => if j = i then o.stored else none
  | _ => none

section Steps

variable {b : Build} {a : Answers} {i : ι} {w w' : World ι} {op : SockOp ι} {r : Int32}

omit [DecidableEq ι] in
/-- The decisive call of an operation is not `setsockopt`. -/
theorem Event.stored_decisive {call : Syscall} (hc : op.decisive b a i w = some call)
    (e : Int32) : Event.stored ⟨call, .error e⟩ = some e.toUInt32 := by
  cases op with
  | create type proto => exact nomatch hc
  | bind | close | send | recv =>
      obtain rfl := Option.some.inj hc
      rfl
  | mode nonblocking =>
      obtain rfl := Option.some.inj hc
      cases b.platform.winsock <;> rfl

theorem Event.stored_ok (call : Syscall) (v : Int64) : Event.stored ⟨call, .ok v⟩ = none := by
  cases call <;> rfl

/-- The system calls end with one whose `errno`, if it is stored, is the
socket's error. -/
theorem SockEffect.error_eq (h : SockEffect b a i w op r w') :
    (w'.socks i).error =
      (w'.os.log.getLast?.bind Event.stored).getD (w.socks i).error := by
  cases h with
  | createRefused _ => simp [Event.stored]
  | createHalf _ _ _ => simp [Event.stored]
  | createV6 _ _ _ => simp [Event.stored]
  | createOther _ _ => simp [Event.stored]
  | refused hc _ => simp [Event.stored_decisive hc]
  | bindDone _ _ _ => simp [Event.stored_ok]
  | closeDone _ _ _ => simp [Event.stored_ok]
  | modeDone _ _ _ => simp [Event.stored_ok]
  | sendDone _ _ _ => simp [Event.stored_ok]
  | recvDone _ _ _ => simp [Event.stored_ok]

/-- What a plugin call stores. -/
theorem CallEffect.error_eq {call : Call ι} (hlog : w.os.log = [])
    (h : CallEffect b a i w call r w') :
    (w'.socks i).error =
      (w'.os.log.getLast?.bind Event.stored).getD (w.socks i).error := by
  cases h with
  | guarded _ => simp [hlog]
  | notCreated _ he _ => exact he.error_eq
  | @created _ _ w₁ _ _ hc hr he =>
      obtain ⟨d, desc, hnew⟩ := hc.created hr
      obtain ⟨flags, hsock⟩ := hnew.sock
      have herror : (w₁.socks i).error = (w.socks i).error := by rw [hsock]
      rw [← herror]
      exact he.error_eq
  | op _ _ _ he => exact he.error_eq

/-- A plugin call leaves the errors of other sockets alone. -/
theorem CallEffect.error_of_ne {call : Call ι} {j : ι} (hj : j ≠ i)
    (h : CallEffect b a i w call r w') : (w'.socks j).error = (w.socks j).error :=
  h.preserves (I := fun v => (v.socks j).error = (w.socks j).error)
    (fun _ _ _ _ hI _ he => by rw [he.sock_of_ne hj, hI]) rfl

/-- One step of a session. -/
theorem entryStep_error {e : Entry ι} {o : Outcome} (h : entryStep b w e = some (o, w')) :
    (w'.socks i).error = (storedIn i e o).getD (w.socks i).error := by
  obtain ⟨call, answers⟩ := e
  obtain ⟨ret, events⟩ := o
  obtain ⟨he, hlog⟩ := entryStep_iff.mp h
  obtain rfl : events = w'.os.log := hlog
  have hsocks : w.clearLog.socks = w.socks := rfl
  cases he with
  | setup he => exact congrArg (fun socks => (socks i).error) he.socks
  | cleanup he => exact congrArg (fun socks => (socks i).error) he.socks
  | noSocket _ => rfl
  | @socket j call _ _ he =>
      by_cases hj : j = i
      · subst hj
        have herror := he.error_eq rfl
        rw [hsocks] at herror
        simpa [storedIn, Outcome.stored] using herror
      · have herror := he.error_of_ne (Ne.symm hj)
        rw [hsocks] at herror
        simpa [storedIn, hj] using herror

end Steps

/--
**The last error.**  From any world, after any session of the seven entry points
on any number of sockets, with any answers, in any build: `sock->error` is the
`errno` stored by the last call on that socket that stored one, and what it was
before the session if none did.
-/
theorem last_error (b : Build) {w v : World ι} {steps : List (Entry ι)}
    {outcomes : List Outcome} (hrun : exec (entryStep b) w steps = some (outcomes, v)) (i : ι) :
    (v.socks i).error =
      (writes (storedIn i) steps outcomes).getLast?.getD (w.socks i).error :=
  @exec_register _ _ _ _ (entryStep b) (fun _ => True) (fun _ => True) (fun w => (w.socks i).error)
    _ (fun _ _ _ _ _ _ _ => trivial) (fun _ _ _ _ _ _ h => entryStep_error h) _ _ _ _ trivial
    (fun _ _ => trivial) hrun

/-- One socket fails to open, the other too, the first is closed and opened. -/
def retry : List (Entry Bool) :=
  [⟨.socket (some true) .socketOpen, { Answers.granting 3 with bind := .error 98 }⟩,
    ⟨.socket (some false) .socketOpen, { Answers.granting 4 with bind := .error 13 }⟩,
    ⟨.socket (some true) .socketClose, Answers.granting 3⟩,
    ⟨.socket (some true) .socketOpen, Answers.granting 3⟩]

/-- The old error is still there. -/
theorem last_error_retry :
    ∃ outcomes v, exec (entryStep ⟨true, .posix⟩) (World.pair.start fun _ => anyEndpoint 2)
        retry = some (outcomes, v) ∧
      (v.socks true).error = (writes (storedIn true) retry outcomes).getLast?.getD
        ((World.pair.start fun _ => anyEndpoint 2).socks true).error ∧
      (v.socks true).error = 98 :=
  ⟨_, _, rfl, last_error ⟨true, .posix⟩ rfl true, rfl⟩

end SockLynx
