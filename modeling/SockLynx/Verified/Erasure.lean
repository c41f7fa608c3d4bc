import SockLynx.Verified.Frame

/-!
# Failed calls can be erased

No function of the library reads `sock->error` or `errno` except to store the
one in the other.  Two worlds that differ in these alone (`World.smudge`)
therefore run alike, and a call that fails after its decisive system call has
changed nothing else: it can be deleted from a session.

## Main results

* `SockEffect.smudge`, `CallEffect.smudge` — errors do not influence a call.
* `CallEffect.failed` — a call other than open that returns `SL_ERR` changes
  errors only.
* `failed_calls_erasable` — deleting such calls from a session leaves every
  other call's value and system calls as they were.
-/

namespace SockLynx

open SockLynx.Lib.Runs

variable {ι : Type} [DecidableEq ι]

/-- Replace the error of every socket, and `errno`. -/
def World.smudge (w : World ι) (error : ι → UInt32) (errno : Int32) : World ι :=
  { w with
    socks := fun j => { w.socks j with error := error j }
    os := { w.os with errno := errno } }

section Smudge

variable {b : Build} {a : Answers} {i : ι} {w w' : World ι} {op : SockOp ι} {r : Int32}
  {error : ι → UInt32} {errno : Int32}

/-- Storing a socket over a smudged world stores its error over the smudge. -/
theorem World.setSock_smudge (s : SlSock) (e : UInt32) :
    (w.smudge error errno).setSock i { s with error := e } =
      (w.setSock i s).smudge (Function.update error i e) errno := by
  have hsocks : (w.smudge error errno).setSock i { s with error := e } =
      { w.smudge error errno with
        socks := ((w.setSock i s).smudge (Function.update error i e) errno).socks } := by
    simp only [World.setSock, World.smudge]
    congr 1
    funext j
    by_cases hj : j = i
    · subst hj
      simp
    · simp [hj]
  exact hsocks

theorem World.putName_smudge (endpoint : EndpointPtr ι) (bs : List UInt8) :
    (w.smudge error errno).putName endpoint bs =
      (w.putName endpoint bs).smudge error errno := by
  cases endpoint with
  | null => rfl
  | addr p => rfl
  | ofSock j =>
      have h : (w.smudge error errno).putName (.ofSock j) bs =
          (w.putName (.ofSock j) bs).smudge (Function.update error j (error j)) errno :=
        World.setSock_smudge { w.socks j with endpoint := (w.socks j).endpoint.put bs } (error j)
      rw [h, Function.update_eq_self]

omit [DecidableEq ι] in
theorem World.putPayload_smudge (bufs : List SlBuf) (bs : List UInt8) :
    (w.smudge error errno).putPayload bufs bs =
      (w.putPayload bufs bs).smudge error errno := rfl

omit [DecidableEq ι] in
theorem SockOp.decisive_smudge (op : SockOp ι) (error : ι → UInt32) (errno : Int32) :
    op.decisive b a i (w.smudge error errno) = op.decisive b a i w := by
  cases op <;> rfl

omit [DecidableEq ι] in
theorem SockOp.refusal_smudge (op : SockOp ι) (error : ι → UInt32) (errno : Int32) :
    op.refusal b a i (w.smudge error errno) = op.refusal b a i w := by
  cases op <;> rfl

omit [DecidableEq ι] in
theorem SockOp.prelude_smudge (op : SockOp ι) (error : ι → UInt32) (errno : Int32) :
    op.prelude b a i (w.smudge error errno) =
      (op.prelude b a i w).smudge error (op.prelude b a i (w.smudge error errno)).os.errno := by
  unfold SockOp.prelude
  split
  · split <;> rfl
  · rfl

/-- The outcome of an operation on a smudged world, from that on the world
itself. -/
private theorem smudged {v v' : World ι} {s : SlSock} {e : UInt32} {errno' : Int32}
    (hv : v' = v.smudge error errno')
    (h : SockEffect b a i (w.smudge error errno) op r (v'.setSock i { s with error := e })) :
    ∃ error' errno', SockEffect b a i (w.smudge error errno) op r
      ((v.setSock i s).smudge error' errno') := by
  rw [hv, World.setSock_smudge] at h
  exact ⟨_, _, h⟩

/-- Errors do not influence an operation. -/
theorem SockEffect.smudge (error : ι → UInt32) (errno : Int32) (h : SockEffect b a i w op r w') :
    ∃ error' errno', SockEffect b a i (w.smudge error errno) op r
      (w'.smudge error' errno') := by
  cases h with
  | createRefused hs => exact smudged rfl (.createRefused hs)
  | createHalf hs h6 ho => exact smudged rfl (.createHalf hs h6 ho)
  | createV6 hs h6 ho => exact smudged rfl (.createV6 hs h6 ho)
  | createOther hs h6 => exact smudged rfl (.createOther hs h6)
  | @refused _ call e hc hr =>
      rw [← SockOp.decisive_smudge op error errno] at hc
      rw [← SockOp.refusal_smudge op error errno] at hr
      have hv : (op.prelude b a i (w.smudge error errno)).note ⟨call, .error e⟩ =
          ((op.prelude b a i w).note ⟨call, .error e⟩).smudge error e := by
        rw [SockOp.prelude_smudge]
        rfl
      exact smudged hv (.refused hc hr)
  | bindDone hc hd ha => exact smudged rfl (.bindDone hc hd ha)
  | closeDone hc hd ha => exact smudged rfl (.closeDone hc hd ha)
  | @modeDone nonblocking call d hc hd ha =>
      have hv := SockOp.prelude_smudge (b := b) (a := a) (i := i) (w := w) (.mode nonblocking)
        error errno
      exact smudged (congrArg (fun v => (v.setDesc (w.fd b i)
        (some (w.modeDesc b a i nonblocking d))).note ⟨call, .ok 0⟩) hv) (.modeDone hc hd ha)
  | sendDone hc hd ha => exact ⟨_, _, .sendDone hc hd ha⟩
  | @recvDone buf bufcount endpoint call d dg hc hd ha =>
      have hc : (.recv buf bufcount endpoint : SockOp ι).decisive b a i
          (w.smudge error errno) = some call := hc
      have he := SockEffect.recvDone hc hd ha
      rw [World.putPayload_smudge, World.putName_smudge] at he
      exact ⟨_, _, he⟩

/-- Errors do not influence a plugin call. -/
theorem CallEffect.smudge {call : Call ι} (error : ι → UInt32) (errno : Int32)
    (h : CallEffect b a i w call r w') :
    ∃ error' errno', CallEffect b a i (w.smudge error errno) call r
      (w'.smudge error' errno') := by
  cases h with
  | guarded hnull => exact ⟨error, errno, .guarded hnull⟩
  | notCreated hready he hr =>
      obtain ⟨error', errno', he'⟩ := he.smudge error errno
      exact ⟨error', errno', .notCreated hready he' hr⟩
  | created hready hc hr he =>
      obtain ⟨error₁, errno₁, hc'⟩ := hc.smudge error errno
      obtain ⟨error', errno', he'⟩ := he.smudge error₁ errno₁
      exact ⟨error', errno', .created hready hc' hr he'⟩
  | @op _ op _ _ hop hnull hready he =>
      obtain ⟨error', errno', he'⟩ := he.smudge error errno
      have hready' : op.Ready b ((w.smudge error errno).socks i) := by
        cases op <;> exact hready
      exact ⟨error', errno', .op hop hnull hready' he'⟩

/-- A stored error is lost under the smudge. -/
theorem World.smudge_setSock_error (e : UInt32) :
    (w.setSock i { w.socks i with error := e }).smudge error errno = w.smudge error errno := by
  have hsocks : (fun j => { (Function.update w.socks i { w.socks i with error := e }) j with
      error := error j }) = fun j => { w.socks j with error := error j } := by
    funext j
    by_cases hj : j = i
    · subst hj
      simp
    · simp [hj]
  simp only [World.setSock, World.smudge, hsocks]

omit [DecidableEq ι] in
/-- So is the system call of a prelude, once the log is cleared. -/
theorem SockOp.prelude_clearLog_smudge :
    (op.prelude b a i w).clearLog.smudge error errno = w.clearLog.smudge error errno := by
  unfold SockOp.prelude
  split
  · split <;> rfl
  · rfl

/-- An operation other than creation that fails changes errors only. -/
theorem SockEffect.failed (hcreate : ∀ type proto, op ≠ .create type proto) (hr : r = slErr)
    (h : SockEffect b a i w op r w') (error : ι → UInt32) (errno : Int32) :
    w'.clearLog.smudge error errno = w.clearLog.smudge error errno := by
  cases h with
  | createRefused | createHalf | createV6 | createOther => exact (hcreate _ _ rfl).elim
  | @refused _ call e _ _ =>
      have hstored : ∀ v : World ι, v.socks = w.socks →
          (v.setSock i { w.socks i with error := e.toUInt32 }).smudge error errno =
            v.smudge error errno := by
        intro v hv
        rw [← hv]
        exact World.smudge_setSock_error e.toUInt32
      exact (hstored ((op.prelude b a i w).note ⟨call, .error e⟩).clearLog
        SockOp.prelude_socks).trans SockOp.prelude_clearLog_smudge
  | bindDone _ _ _ => exact absurd hr slOk_ne_slErr
  | closeDone _ _ _ => exact absurd hr slOk_ne_slErr
  | modeDone _ _ _ => exact absurd hr slOk_ne_slErr
  | @sendDone _ _ _ _ _ n _ _ _ => exact absurd hr (transferred_ne_slErr n.isLt)
  | @recvDone _ _ _ _ _ dg _ _ _ =>
      have hlt := dg.payload_lt
      exact absurd hr (transferred_ne_slErr (by omega))

/-- A call other than open that returns `SL_ERR` changes errors only. -/
theorem CallEffect.failed {call : Call ι} (hcall : call ≠ .socketOpen) (hr : r = slErr)
    (h : CallEffect b a i w call r w') (error : ι → UInt32) (errno : Int32) :
    w'.clearLog.smudge error errno = w.clearLog.smudge error errno := by
  cases h with
  | guarded _ => rfl
  | notCreated _ _ _ => exact absurd rfl hcall
  | created _ _ _ _ => exact absurd rfl hcall
  | op hop _ _ he => exact he.failed (Call.op_ne hop).2 hr error errno

end Smudge

/-! ## Sessions -/

/-- A close, mode switch, send or receive that returned `SL_ERR`. -/
def failedCall (e : Step ι (Call ι)) (o : Outcome) : Bool :=
  match e.call with
  | .socketOpen => false
  | _ => o.ret == slErr

/-- The worlds of two sessions agree in all but errors and logs. -/
def AlikeUpToErrors (s t : World ι) : Prop :=
  ∃ error errno, t.clearLog = s.clearLog.smudge error errno

section Sessions

variable {b : Build} {s s' t : World ι} {e : Step ι (Call ι)} {o : Outcome}

/-- A step can be taken from every world that differs in errors, with the same
outcome. -/
theorem AlikeUpToErrors.keep (hR : AlikeUpToErrors s t) (h : pluginStep b s e = some (o, s')) :
    ∃ t', pluginStep b t e = some (o, t') ∧ AlikeUpToErrors s' t' := by
  obtain ⟨error, errno, ht⟩ := hR
  obtain ⟨he, hlog⟩ := pluginStep_iff.mp h
  obtain ⟨error', errno', he'⟩ := he.smudge error errno
  rw [← ht] at he'
  exact ⟨s'.smudge error' errno', pluginStep_iff.mpr ⟨he', hlog⟩, error', errno', rfl⟩

/-- A failed call need not be taken at all. -/
theorem AlikeUpToErrors.drop (hR : AlikeUpToErrors s t) (h : pluginStep b s e = some (o, s'))
    (hfailed : failedCall e o = true) : AlikeUpToErrors s' t := by
  obtain ⟨error, errno, ht⟩ := hR
  obtain ⟨he, _⟩ := pluginStep_iff.mp h
  have hcall : e.call ≠ .socketOpen := by
    intro hopen
    simp [failedCall, hopen] at hfailed
  have hr : o.ret = slErr := by
    unfold failedCall at hfailed
    split at hfailed
    · exact absurd hfailed (by simp)
    · simpa using hfailed
  exact ⟨error, errno, ht.trans (he.failed hcall hr error errno).symm⟩

end Sessions

/--
**Erasing failed calls.**  For any number of sockets, any sequence of calls and
any answers, in a run in which no assertion fails: without its failed calls
other than opens the session runs through, every remaining call returns the
same value and makes the same system calls with the same results, and it ends
with the same sockets, except for their errors, and the same descriptor table.
-/
theorem failed_calls_erasable (b : Build) (w v : World ι) (endpoint : ι → SlEndpoint)
    (steps : List (Step ι (Call ι))) (outcomes : List Outcome)
    (h : exec (pluginStep b) (w.start endpoint) steps = some (outcomes, v)) :
    ∃ v', exec (pluginStep b) (w.start endpoint)
        ((erase failedCall steps outcomes).map Prod.fst) =
          some ((erase failedCall steps outcomes).map Prod.snd, v') ∧
      (∀ i, v'.socks i = { v.socks i with error := (v'.socks i).error }) ∧
      v'.os.fds = v.os.fds := by
  have hstart : AlikeUpToErrors (w.start endpoint) (w.start endpoint) :=
    ⟨fun i => ((w.start endpoint).socks i).error, (w.start endpoint).os.errno, rfl⟩
  obtain ⟨v', hrun, error, errno, hv⟩ := exec_erase
    (fun _ _ _ _ _ hR hs _ => hR.keep hs) (fun _ _ _ _ _ hR hs hd => hR.drop hs hd) hstart h
  have hsock : ∀ i, v'.socks i = { v.socks i with error := error i } := fun i =>
    congrFun (congrArg World.socks hv) i
  refine ⟨v', hrun, fun i => ?_, congrArg (fun w => w.os.fds) hv⟩
  rw [hsock]

/-- The session that opens, fails to close and closes, without the failure. -/
theorem failed_calls_erasable_close :
    ∃ o₁ o₂ o₃ v, exec (pluginStep ⟨true, .posix⟩) (World.small.start fun _ => anyEndpoint 2)
        [⟨(), .socketOpen, Answers.granting 3⟩,
          ⟨(), .socketClose, { Answers.granting 3 with close := .error 5 }⟩,
          ⟨(), .socketClose, Answers.granting 3⟩] = some ([o₁, o₂, o₃], v) ∧
      ∃ v', exec (pluginStep ⟨true, .posix⟩) (World.small.start fun _ => anyEndpoint 2)
          [⟨(), .socketOpen, Answers.granting 3⟩, ⟨(), .socketClose, Answers.granting 3⟩] =
            some ([o₁, o₃], v') ∧
        (∀ i, v'.socks i = { v.socks i with error := (v'.socks i).error }) ∧
        v'.os.fds = v.os.fds :=
  ⟨⟨slOk, _⟩, ⟨slErr, _⟩, ⟨slOk, _⟩, _, rfl, failed_calls_erasable ⟨true, .posix⟩ World.small _
    (fun _ => anyEndpoint 2)
    [⟨(), .socketOpen, Answers.granting 3⟩,
      ⟨(), .socketClose, { Answers.granting 3 with close := .error 5 }⟩,
      ⟨(), .socketClose, Answers.granting 3⟩] _ rfl⟩

end SockLynx
