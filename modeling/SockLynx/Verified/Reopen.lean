import SockLynx.Verified.Entries
import SockLynx.Verified.Frame

/-!
# A closed socket reopens like a new one

A close that succeeds clears descriptor, state and flags; type and protocol are
written by the next creation, and direction and endpoint by nothing.  What is
left of a socket's old life is its error and the difference between CLOSED and
NEW, and an open reads neither.

## Main results

* `SockEffect.keeps` — no operation writes the direction, or the endpoint
  unless a receive is told to.
* `SockEffect.create_twin`, `SockEffect.bind_twin` — creation and binding on
  two sockets that differ in error and state.
* `reopen_like_new` — an open after a close is an open of a new socket.
-/

namespace SockLynx

open SockLynx.Lib.Runs

variable {ι : Type} [DecidableEq ι]

/-! ## What a history leaves alone -/

/-- The endpoint argument of the call is not that of socket `j`. -/
def Call.NoAlias (j : ι) : Call ι → Prop
  | .socketSend _ _ endpoint => endpoint ≠ .ofSock j
  | .socketRecv _ _ endpoint => endpoint ≠ .ofSock j
  | _ => True

/-- The endpoint argument of the call is not that of socket `j`. -/
def PluginCall.NoAlias (j : ι) : PluginCall ι → Prop
  | .socket _ call => call.NoAlias j
  | _ => True

/-- Socket `j` has direction NONE and endpoint `e`. -/
def World.Keeps (w : World ι) (j : ι) (e : SlEndpoint) : Prop :=
  (w.socks j).dir = slSockDirNone ∧ (w.socks j).endpoint = e

section History

variable {b : Build} {a : Answers} {i j : ι} {w w' : World ι} {op : SockOp ι} {r : Int32}
  {e : SlEndpoint}

theorem World.Keeps.setSock (hI : w.Keeps j e) {v : World ι} {s : SlSock}
    (hv : v.socks = w.socks) (hdir : s.dir = (w.socks i).dir)
    (hendpoint : s.endpoint = (w.socks i).endpoint) : (v.setSock i s).Keeps j e := by
  by_cases hj : j = i
  · subst hj
    simpa [World.Keeps, hdir, hendpoint] using hI
  · simpa [World.Keeps, World.setSock_of_ne _ _ hj, hv] using hI

/-- No operation writes the direction, and only a receive an endpoint. -/
theorem SockEffect.keeps (halias : ∀ buf n, op ≠ .recv buf n (.ofSock j))
    (h : SockEffect b a i w op r w') (hI : w.Keeps j e) : w'.Keeps j e := by
  cases h with
  | createRefused _ => exact hI.setSock rfl rfl rfl
  | createHalf _ _ _ => exact hI.setSock rfl rfl rfl
  | createV6 _ _ _ => exact hI.setSock rfl rfl rfl
  | createOther _ _ => exact hI.setSock rfl rfl rfl
  | refused _ _ => exact hI.setSock SockOp.prelude_socks rfl rfl
  | bindDone _ _ _ => exact hI.setSock rfl rfl rfl
  | closeDone _ _ _ => exact hI.setSock rfl rfl rfl
  | modeDone _ _ _ => exact hI.setSock SockOp.prelude_socks rfl rfl
  | sendDone _ _ _ => exact hI
  | @recvDone buf n endpoint _ _ _ _ _ _ =>
      have hne : endpoint ≠ .ofSock j := fun heq => halias buf n (heq ▸ rfl)
      simpa [World.Keeps, World.putName_socks_of_ne hne] using hI

theorem CallEffect.keeps {call : Call ι} (halias : call.NoAlias j)
    (h : CallEffect b a i w call r w') (hI : w.Keeps j e) : w'.Keeps j e := by
  cases h with
  | guarded _ => exact hI
  | notCreated _ he _ => exact he.keeps (by simp [createUdp]) hI
  | created _ hc _ he => exact he.keeps (by simp) (hc.keeps (by simp [createUdp]) hI)
  | op hop _ _ he =>
      refine he.keeps (fun buf n heq => ?_) hI
      subst heq
      cases call <;> simp [Call.op] at hop
      simp [Call.NoAlias, hop] at halias

/-- One step of a session keeps the direction and the endpoint. -/
theorem World.Keeps.step {s : Entry ι} {o : Outcome} (hI : w.Keeps j e)
    (halias : s.call.NoAlias j) (h : entryStep b w s = some (o, w')) : w'.Keeps j e := by
  obtain ⟨call, answers⟩ := s
  obtain ⟨ret, events⟩ := o
  have hI₀ : w.clearLog.Keeps j e := hI
  cases (entryStep_iff.mp h).1 with
  | setup he => simpa only [World.Keeps, he.socks] using hI₀
  | cleanup he => simpa only [World.Keeps, he.socks] using hI₀
  | noSocket _ => exact hI₀
  | socket he => exact he.keeps halias hI₀

end History

/-! ## Two sockets that differ in error and state -/

/-- The sockets agree in all that a close leaves, or a creation reads. -/
structure SameRest (s t : SlSock) : Prop where
  fd : s.fd = t.fd
  dir : s.dir = t.dir
  flags : s.flags = t.flags
  endpoint : s.endpoint = t.endpoint

/-- The sockets agree in all but error and state. -/
structure LikeNew (s t : SlSock) : Prop extends SameRest s t where
  type : s.type = t.type
  proto : s.proto = t.proto

section Twins

variable {b : Build} {a : Answers} {i : ι} {w w' v : World ι} {r : Int32}

/-- Creation on two sockets that agree in descriptor, direction, flags and
endpoint, where `socket()` gives the same answer. -/
theorem SockEffect.create_twin {type proto : UInt32}
    (hsock : SameRest (w.socks i) (v.socks i)) (hlog : w.os.log = v.os.log)
    (hos : v.os.onSocket b.platform a = w.os.onSocket b.platform a)
    (h : SockEffect b a i w (.create type proto) r w') :
    ∃ v', SockEffect b a i v (.create type proto) r v' ∧
      LikeNew (w'.socks i) (v'.socks i) ∧ w'.os.log = v'.os.log ∧
      (r = slErr → (w'.socks i).state = (w.socks i).state ∧
        (v'.socks i).state = (v.socks i).state) := by
  obtain ⟨hfd, hdir, hflags, hendpoint⟩ := hsock
  cases h with
  | createRefused hs =>
      refine ⟨_, .createRefused (hos.trans hs), ?_, ?_, fun _ => by simp⟩
      · exact ⟨by simpa using ⟨hfd, hdir, hflags, hendpoint⟩, by simp, by simp⟩
      · simp [hlog, hendpoint]
  | createHalf hs h6 ho =>
      have h6 : v.isV6 b i = true := by simpa [World.isV6, hendpoint] using h6
      refine ⟨_, .createHalf (hos.trans hs) h6 ho, ?_, ?_, fun _ => by simp⟩
      · exact ⟨⟨by simp, by simpa using hdir, by simp [hflags], by simpa using hendpoint⟩,
          by simp, by simp⟩
      · simp [hlog, hendpoint]
  | createV6 hs h6 ho =>
      have h6 : v.isV6 b i = true := by simpa [World.isV6, hendpoint] using h6
      refine ⟨_, .createV6 (hos.trans hs) h6 ho, ?_, ?_, fun h => absurd h slOk_ne_slErr⟩
      · exact ⟨⟨by simp, by simpa using hdir, by simp [hflags], by simpa using hendpoint⟩,
          by simp, by simp⟩
      · simp [hlog, hendpoint]
  | createOther hs h6 =>
      have h6 : v.isV6 b i = false := by simpa [World.isV6, hendpoint] using h6
      refine ⟨_, .createOther (hos.trans hs) h6, ?_, ?_, fun h => absurd h slOk_ne_slErr⟩
      · exact ⟨⟨by simp, by simpa using hdir, by simp [hflags], by simpa using hendpoint⟩,
          by simp, by simp⟩
      · simp [hlog, hendpoint]
  | refused hc _ => simp [SockOp.decisive] at hc

/-- Binding two sockets that agree in all but error, on open descriptors. -/
theorem SockEffect.bind_twin (hsock : LikeNew (w.socks i) (v.socks i))
    (hstate : (w.socks i).state = (v.socks i).state) (hlog : w.os.log = v.os.log)
    {d d' : Desc ι} (hw : w.os.fds (w.fd b i) = some d) (hv : v.os.fds (v.fd b i) = some d')
    (h : SockEffect b a i w .bind r w') :
    ∃ v', SockEffect b a i v .bind r v' ∧ LikeNew (w'.socks i) (v'.socks i) ∧
      w'.os.log = v'.os.log ∧ (w'.socks i).state = (v'.socks i).state := by
  obtain ⟨⟨hfd, hdir, hflags, hendpoint⟩, htype, hproto⟩ := hsock
  have hfd' : v.fd b i = w.fd b i := by simp only [World.fd, hfd]
  have hname : v.ownName b i = w.ownName b i := by
    simp only [World.ownName, World.nameAt, World.nameLen, World.endpointAt, hendpoint]
  have hdecisive : (.bind : SockOp ι).decisive b a i v = (.bind : SockOp ι).decisive b a i w := by
    simp only [SockOp.decisive, hfd', hname]
  cases h with
  | @refused _ _ e hc hr =>
      have ha : a.bind = .error e := by
        cases hbind : a.bind with
        | error e' => simpa [SockOp.refusal, Os.onDesc, hw, hbind, Except.map, refusedWith] using hr
        | ok u => simp [SockOp.refusal, Os.onDesc, hw, hbind, Except.map, refusedWith] at hr
      have hr' : (.bind : SockOp ι).refusal b a i v = some e := by
        simp [SockOp.refusal, Os.onDesc, hv, ha, Except.map, refusedWith]
      refine ⟨_, .refused (hdecisive.trans hc) hr', ?_, ?_, ?_⟩
      · exact ⟨⟨by simpa using hfd, by simpa using hdir, by simpa using hflags,
          by simpa using hendpoint⟩, by simpa using htype, by simpa using hproto⟩
      · simp [SockOp.prelude, hlog]
      · simpa using hstate
  | bindDone hc hd ha =>
      refine ⟨_, .bindDone (hdecisive.trans hc) hv ha, ?_, ?_, ?_⟩
      · exact ⟨⟨by simpa using hfd, by simpa using hdir, by simpa using hflags,
          by simpa using hendpoint⟩, by simpa using htype, by simpa using hproto⟩
      · simp [hlog]
      · simp

end Twins

/-! ## Closing and opening -/

section Reopening

variable {b : Build} {a : Answers} {i : ι} {w w' v : World ι} {o : Outcome}

/-- The step that closes socket `i`. -/
def closing (i : ι) (a : Answers) : Entry ι := ⟨.socket (some i) .socketClose, a⟩

/-- The step that opens socket `i`. -/
def opening (i : ι) (a : Answers) : Entry ι := ⟨.socket (some i) .socketOpen, a⟩

/-- What a close that succeeds leaves. -/
theorem socks_of_closing (h : entryStep b w (closing i a) = some (o, w')) (hr : o.ret = slOk) :
    w'.socks i =
      { w.socks i with fd := 0, state := SlSockState.closed.val, flags := 0 } := by
  obtain ⟨ret, events⟩ := o
  cases (entryStep_iff.mp h).1 with
  | socket he =>
      cases he with
      | guarded hnull => simp [Call.hasNull] at hnull
      | op hop _ _ he =>
          obtain rfl := Option.some.inj hop
          cases he with
          | refused _ _ => exact absurd hr.symm slOk_ne_slErr
          | closeDone _ _ _ => exact World.setSock_self _ _ _

/-- An open of a CLOSED socket and an open of a NEW one with the same
descriptor, direction, flags and endpoint do the same. -/
theorem opening_twin (hsock : SameRest (w.socks i) (v.socks i))
    (hclosed : (w.socks i).state = SlSockState.closed.val)
    (hnew : (v.socks i).state = SlSockState.new.val)
    (hos : v.os.onSocket b.platform a = w.os.onSocket b.platform a) :
    ∃ o w' v', entryStep b w (opening i a) = some (o, w') ∧
      entryStep b v (opening i a) = some (o, v') ∧ LikeNew (w'.socks i) (v'.socks i) ∧
      ((w'.socks i).state = (v'.socks i).state ∨
        o.ret = slErr ∧ (w'.socks i).state = SlSockState.closed.val ∧
          (v'.socks i).state = SlSockState.new.val) := by
  obtain ⟨r, w', he, _⟩ := exists_openEffect b a (i := i) (w := w.clearLog) (Or.inr hclosed)
  have hready : (createUdp : SockOp ι).Ready b (v.clearLog.socks i) := fun _ => Or.inl hnew
  have hsock : SameRest (w.clearLog.socks i) (v.clearLog.socks i) := hsock
  have hos : v.clearLog.os.onSocket b.platform a = w.clearLog.os.onSocket b.platform a := hos
  have hstep : ∀ v', CallEffect b a i v.clearLog .socketOpen r v' → w'.os.log = v'.os.log →
      entryStep b w (opening i a) = some (⟨r, w'.os.log⟩, w') ∧
        entryStep b v (opening i a) = some (⟨r, w'.os.log⟩, v') := fun v' hv hlog =>
    ⟨entryStep_iff.mpr ⟨.socket he, rfl⟩, entryStep_iff.mpr ⟨.socket hv, hlog⟩⟩
  cases he with
  | guarded hnull => simp [Call.hasNull] at hnull
  | notCreated _ hc hr =>
      obtain ⟨v', hc', hlike, hlog, hstate⟩ := hc.create_twin hsock rfl hos
      obtain ⟨hw, hv⟩ := hstate hr
      obtain ⟨hrun, hrun'⟩ := hstep v' (.notCreated hready hc' hr) hlog
      exact ⟨_, w', v', hrun, hrun', hlike, Or.inr ⟨hr, hw.trans hclosed, hv.trans hnew⟩⟩
  | @created _ _ w₁ _ _ hc hr hb =>
      obtain ⟨v₁, hc', hlike, hlog, _⟩ := hc.create_twin hsock rfl hos
      have hstate := (hc.created_state hr).trans (hc'.created_state hr).symm
      obtain ⟨d, desc, hnew₁⟩ := hc.created hr
      obtain ⟨d', desc', hnew₂⟩ := hc'.created hr
      obtain ⟨v', hb', hlike', hlog', hstate'⟩ := hb.bind_twin hlike hstate hlog
        (hnew₁.fd_eq ▸ hnew₁.opened) (hnew₂.fd_eq ▸ hnew₂.opened)
      obtain ⟨hrun, hrun'⟩ := hstep v' (.created hready hc' hr hb') hlog'
      exact ⟨_, w', v', hrun, hrun', hlike', Or.inl hstate'⟩
  | op hop _ _ _ => simp [Call.op] at hop

end Reopening

/--
**Reopening.**  A zeroed socket of any type and protocol, any sequence of
plugin calls whose endpoint arguments are not the socket's own, any answers, in
a run in which no assertion fails: after a close that succeeds, an open returns
what an open of a new socket with the same endpoint returns and makes the same
system calls, where `socket()` gives both the same answer, and the two sockets
differ at most in error, and in CLOSED for NEW where the open failed before it
reached CREATED.
-/
theorem reopen_like_new (b : Build) (i : ι) (type proto : UInt32) (e : SlEndpoint)
    {w₀ w w₁ v : World ι} (hstart : w₀.socks i = SlSock.zeroed type proto e)
    (steps : List (Entry ι)) (halias : ∀ s ∈ steps, s.call.NoAlias i) {outcomes : List Outcome}
    (hrun : exec (entryStep b) w₀ steps = some (outcomes, w)) (aClose a : Answers) {o : Outcome}
    (hclose : entryStep b w (closing i aClose) = some (o, w₁)) (hok : o.ret = slOk)
    (hfresh : v.socks i = SlSock.zeroed slSockTypeDgram slSockProtoUdp e)
    (hos : v.os.onSocket b.platform a = w₁.os.onSocket b.platform a) :
    ∃ o' w₂ v₂, entryStep b w₁ (opening i a) = some (o', w₂) ∧
      entryStep b v (opening i a) = some (o', v₂) ∧ LikeNew (w₂.socks i) (v₂.socks i) ∧
      ((w₂.socks i).state = (v₂.socks i).state ∨
        o'.ret = slErr ∧ (w₂.socks i).state = SlSockState.closed.val ∧
          (v₂.socks i).state = SlSockState.new.val) := by
  have hkeeps : w₀.Keeps i e := by
    rw [World.Keeps, hstart]
    exact ⟨rfl, rfl⟩
  obtain ⟨hdir, hendpoint⟩ :=
    exec_invariant (fun _ _ _ _ hI hC h => World.Keeps.step hI hC h) hkeeps halias hrun
  have hclosed := socks_of_closing hclose hok
  refine opening_twin ⟨?_, ?_, ?_, ?_⟩ ?_ ?_ hos
  · rw [hclosed, hfresh]
    rfl
  · rw [hclosed, hfresh]
    exact hdir
  · rw [hclosed, hfresh]
    rfl
  · rw [hclosed, hfresh]
    exact hendpoint
  · rw [hclosed]
  · rw [hfresh]
    rfl

/-- The theorem at a socket that was opened, switched and closed, against a
process that has done nothing yet. -/
theorem reopen_like_new_switched :
    ∃ w o w₁, entryStep ⟨true, .posix⟩ w (closing () (Answers.granting 3)) = some (o, w₁) ∧
      o.ret = slOk ∧ (w.socks ()).flags = 9 ∧
      ∃ o' w₂ v₂, entryStep ⟨true, .posix⟩ w₁ (opening () (Answers.granting 4)) = some (o', w₂) ∧
        entryStep ⟨true, .posix⟩ (World.small.start fun _ => anyEndpoint 10)
          (opening () (Answers.granting 4)) = some (o', v₂) ∧
        LikeNew (w₂.socks ()) (v₂.socks ()) ∧
        ((w₂.socks ()).state = (v₂.socks ()).state ∨
          o'.ret = slErr ∧ (w₂.socks ()).state = SlSockState.closed.val ∧
            (v₂.socks ()).state = SlSockState.new.val) := by
  have hrun : ∃ outcomes w o w₁,
      exec (entryStep ⟨true, .posix⟩) (World.small.start fun _ => anyEndpoint 10)
        [opening () (Answers.granting 3),
          ⟨.socket (some ()) (.socketNonblocking 1), Answers.granting 3⟩] = some (outcomes, w) ∧
      entryStep ⟨true, .posix⟩ w (closing () (Answers.granting 3)) = some (o, w₁) ∧
      o.ret = slOk ∧ (w.socks ()).flags = 9 ∧
      (World.small.start fun _ => anyEndpoint 10).os.onSocket .posix (Answers.granting 4) =
        w₁.os.onSocket .posix (Answers.granting 4) :=
    ⟨_, _, ⟨slOk, _⟩, _, rfl, rfl, rfl, rfl, rfl⟩
  obtain ⟨outcomes, w, o, w₁, hrun, hclose, hok, hflags, hos⟩ := hrun
  refine ⟨w, o, w₁, hclose, hok, hflags, reopen_like_new ⟨true, .posix⟩ () slSockTypeDgram
    slSockProtoUdp (anyEndpoint 10) rfl _ (fun s hs => ?_) hrun _ _ hclose hok rfl hos⟩
  rcases List.mem_cons.mp hs with rfl | hs
  · trivial
  · obtain rfl := List.mem_singleton.mp hs
    trivial

end SockLynx
