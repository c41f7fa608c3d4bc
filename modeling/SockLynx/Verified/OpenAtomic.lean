import SockLynx.Verified.Frame

/-!
# Opening is all or nothing, or not

`socklynx_socket_open` makes up to three system calls.  If `socket()` is
refused nothing has happened; if all are granted the socket is BOUND on one
new descriptor.  If a later call is refused, none of the exits closes the
descriptor or takes the fields back.

## Main results

* `AllOrNothing` — an open that fails has changed nothing the caller can see,
  one that succeeds has added one descriptor.
* `open_allOrNothing_iff` — from NEW and CLOSED an open is all or nothing
  exactly when `socket()` is refused or every call is granted.
-/

namespace SockLynx

variable {ι : Type} [DecidableEq ι]

/-- The same descriptors are open. -/
def World.SameOpen (w w' : World ι) : Prop :=
  ∀ d, (w'.os.fds d).isSome = (w.os.fds d).isSome

/-- Opening socket `i` returned `r`: on `SL_ERR` descriptor, state, flags and
endpoint of the socket and the set of open descriptors are as before, on
`SL_OK` the socket is BOUND and `sock->fd` is the one descriptor added. -/
def AllOrNothing (i : ι) (w w' : World ι) (r : Int32) : Prop :=
  (r = slErr →
    (w'.socks i).fd = (w.socks i).fd ∧ (w'.socks i).state = (w.socks i).state ∧
      (w'.socks i).flags = (w.socks i).flags ∧ (w'.socks i).endpoint = (w.socks i).endpoint ∧
      w.SameOpen w') ∧
    (r = slOk →
      (w'.socks i).state = SlSockState.bound.val ∧
        w.os.fds (w'.socks i).fd = none ∧
        ∀ d, (w'.os.fds d).isSome = true ↔
          d = (w'.socks i).fd ∨ (w.os.fds d).isSome = true)

section Open

variable {b : Build} {a : Answers} {i : ι} {w w' : World ι} {r : Int32}

omit [DecidableEq ι] in
/-- A descriptor left open by a failed open breaks the promise. -/
theorem not_allOrNothing_of_leak {d : Int64} (hr : r = slErr) (hnew : w.os.fds d = none)
    (hopen : (w'.os.fds d).isSome = true) : ¬AllOrNothing i w w' r := by
  intro h
  have hsame := (h.1 hr).2.2.2.2 d
  simp [hnew, hopen] at hsame

/-- A creation that fails is all or nothing exactly when `socket()` is
refused. -/
theorem SockEffect.allOrNothing_create_iff (he : SockEffect b a i w createUdp r w')
    (hr : r = slErr) :
    AllOrNothing i w w' r ↔ ∃ e, w.os.onSocket b.platform a = .error e := by
  cases he with
  | createRefused hs =>
      refine iff_of_true ⟨fun _ => ?_, fun h => absurd h.symm slOk_ne_slErr⟩ ⟨_, hs⟩
      exact ⟨by simp, by simp, by simp, by simp, fun _ => rfl⟩
  | createHalf hs h6 ho =>
      refine iff_of_false (not_allOrNothing_of_leak rfl (Os.onSocket_ok hs).2 ?_) ?_
      · simp
      · simp [hs]
  | createV6 _ _ _ => exact absurd hr slOk_ne_slErr
  | createOther _ _ => exact absurd hr slOk_ne_slErr
  | refused hc _ => simp [createUdp, SockOp.decisive] at hc

/-- Bound or not after its creation, a socket is all or nothing exactly when
`bind()` is granted. -/
theorem World.Created.allOrNothing_iff {w₁ : World ι} {d : Int64} {desc : Desc ι}
    (hnew : w.Created w₁ b a i slSockTypeDgram slSockProtoUdp d desc)
    (he : SockEffect b a i w₁ .bind r w') : AllOrNothing i w w' r ↔ a.bind = .ok () := by
  obtain ⟨flags, hsock⟩ := hnew.sock
  have hfd := hnew.fd_eq
  have hfree := (Os.onSocket_ok hnew.granted).2
  cases he with
  | refused _ hrefused =>
      have hbind := refusedWith_eq_some.mp hrefused
      refine iff_of_false (not_allOrNothing_of_leak rfl hfree ?_) fun h => ?_
      · simp [hnew.opened]
      · rw [hfd] at hbind
        simp [Os.onDesc, hnew.opened, h, Except.map] at hbind
  | bindDone _ _ ha =>
      refine iff_of_true ⟨fun h => absurd h slOk_ne_slErr, fun _ => ?_⟩ ha
      refine ⟨by simp, by simpa [hsock] using hfree, fun x => ?_⟩
      by_cases hx : x = d
      · subst hx
        simp [hfd, hsock]
      · simp [hfd, hsock, World.setDesc_of_ne _ _ hx, hx, hnew.others x hx]

/-- An open is all or nothing exactly when `socket()` is refused or all calls
are granted. -/
theorem CallEffect.allOrNothing_iff (h : CallEffect b a i w .socketOpen r w') :
    AllOrNothing i w w' r ↔
      (∃ e, w.os.onSocket b.platform a = .error e) ∨
        w.Creates b a i ∧ a.bind = .ok () := by
  cases h with
  | guarded hnull => simp [Call.hasNull] at hnull
  | notCreated _ he hr =>
      have hnot : ¬w.Creates b a i := by
        rw [← SockEffect.create_ok_iff he, hr]
        exact slOk_ne_slErr.symm
      rw [he.allOrNothing_create_iff hr]
      exact ⟨Or.inl, fun h => h.resolve_right fun hgranted => hnot hgranted.1⟩
  | created _ hc hr he =>
      have hcreates := (SockEffect.create_ok_iff hc).mp hr
      obtain ⟨d, desc, hnew⟩ := SockEffect.created hc hr
      rw [hnew.allOrNothing_iff he]
      simp [hnew.granted, hcreates]
  | op hop _ _ _ => simp [Call.op] at hop

end Open

/--
**All or nothing.**  From NEW and CLOSED, on any endpoint and whatever the
system answers, `socklynx_socket_open` returns `SL_OK` or `SL_ERR`, and it is
all or nothing exactly when `socket()` is refused or all its calls are
granted.
-/
theorem open_allOrNothing_iff (b : Build) (a : Answers) (i : ι) (w : World ι)
    (hstate : (w.socks i).state = SlSockState.new.val ∨
      (w.socks i).state = SlSockState.closed.val) :
    ∃ r w', socklynxSocketOpen b a (some i) w = .ok (r, w') ∧ (r = slErr ∨ r = slOk) ∧
      (AllOrNothing i w w' r ↔
        (∃ e, w.os.onSocket b.platform a = .error e) ∨
          w.Creates b a i ∧ a.bind = .ok ()) := by
  obtain ⟨r, w', he, hr⟩ := exists_openEffect b a hstate
  exact ⟨r, w', socklynxSocketOpen_iff.mpr he, hr, he.allOrNothing_iff⟩

/-- The rule at a new IPv6 socket and a system that grants everything. -/
theorem open_allOrNothing_granted :
    ((World.small.start fun _ => anyEndpoint 10).socks ()).state = SlSockState.new.val ∧
      ∃ r w', socklynxSocketOpen ⟨true, .posix⟩ (Answers.granting 3) (some ())
          (World.small.start fun _ => anyEndpoint 10) = .ok (r, w') ∧
        (r = slErr ∨ r = slOk) ∧
        (AllOrNothing () (World.small.start fun _ => anyEndpoint 10) w' r ↔
          (∃ e, (World.small.start fun _ => anyEndpoint 10).os.onSocket .posix
              (Answers.granting 3) = .error e) ∨
            (World.small.start fun _ => anyEndpoint 10).Creates ⟨true, .posix⟩
              (Answers.granting 3) () ∧ (Answers.granting 3).bind = .ok ()) :=
  ⟨rfl, open_allOrNothing_iff ⟨true, .posix⟩ (Answers.granting 3) ()
    (World.small.start fun _ => anyEndpoint 10) (Or.inl rfl)⟩

/-- The failing call: a refused bind returns `SL_ERR` with descriptor 3 left
open, in a socket that is CREATED and cannot be opened again. -/
theorem open_allOrNothing_bind_refused :
    ∃ w', socklynxSocketOpen ⟨true, .posix⟩ { Answers.granting 3 with bind := .error 98 }
        (some ()) (World.small.start fun _ => anyEndpoint 2) = .ok (slErr, w') ∧
      (w'.socks ()).state = SlSockState.created.val ∧
      ¬AllOrNothing () (World.small.start fun _ => anyEndpoint 2) w' slErr :=
  ⟨_, rfl, rfl, not_allOrNothing_of_leak (d := 3) rfl rfl rfl⟩

end SockLynx
