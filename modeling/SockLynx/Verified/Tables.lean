import SockLynx.Verified.Ownership

/-!
# One call, one descriptor

A library call changes at most one entry of the descriptor table, the one in
`sock->fd` or the one `socket()` has just returned.  `TableStep` says so for
the operations of `sock.h`; it is all that a socket has to know of the calls on
the other sockets.

A call may still reach an entry that is not its socket's: `sock->fd` is 0 where
there is no descriptor.  `Trespasses` is `Stray` whether or not the system
grants the call, so that a call that does not trespass meets its own descriptor
or none at all.

## Main results

* `SockEffect.tableStep` — what an operation does to the table.
* `TableStep.foreign` — descriptors of other sockets stay as they are.
* `owned_of_not_trespasses` — a call that does not trespass owns the descriptor
  it finds open.
-/

namespace SockLynx

variable {ι : Type} [DecidableEq ι]

/-! ## The table -/

/-- What an operation on socket `i` may do to the descriptor table. -/
inductive TableStep (b : Build) (i : ι) (w w' : World ι) : SockOp ι → Prop
  | same {op : SockOp ι} (fds : w'.os.fds = w.os.fds) : TableStep b i w w' op
  | added {type proto : UInt32} {d : Int64} {desc : Desc ι} (free : w.os.fds d = none)
      (owner : desc.owner = some i) (fds : w'.os.fds = Function.update w.os.fds d (some desc)) :
      TableStep b i w w' (.create type proto)
  | changed {op : SockOp ι} {desc : Desc ι} {entry : Option (Desc ι)}
      (uses : ∀ type proto, op ≠ .create type proto)
      (opened : w.os.fds (w.fd b i) = some desc)
      (owner : ∀ desc', entry = some desc' → desc'.owner = desc.owner)
      (fds : w'.os.fds = Function.update w.os.fds (w.fd b i) entry) : TableStep b i w w' op

section Steps

variable {b : Build} {a : Answers} {i : ι} {w w' : World ι} {op : SockOp ι} {r : Int32}

omit [DecidableEq ι] in
theorem World.modeDesc_owner (nonblocking : Bool) (d : Desc ι) :
    (w.modeDesc b a i nonblocking d).owner = d.owner := by
  unfold World.modeDesc
  split <;> rfl

omit [DecidableEq ι] in
theorem World.openFor_setDesc_fds {type proto : UInt32} {d : Int64} {desc : Desc ι} :
    ((w.openFor b a i type proto d).setDesc d (some desc)).os.fds =
      Function.update w.os.fds d (some desc) :=
  Function.update_idem _ _ _

omit [DecidableEq ι] in
theorem World.prelude_setDesc_fds {d : Int64} {entry : Option (Desc ι)} :
    ((op.prelude b a i w).setDesc d entry).os.fds = Function.update w.os.fds d entry := by
  show Function.update _ _ _ = _
  rw [SockOp.prelude_fds]

theorem SockEffect.tableStep (h : SockEffect b a i w op r w') : TableStep b i w w' op := by
  cases h with
  | createRefused _ => exact .same rfl
  | createHalf hs _ _ => exact .added (Os.onSocket_ok hs).2 rfl rfl
  | createV6 hs _ _ =>
      refine .added (Os.onSocket_ok hs).2 ?_ World.openFor_setDesc_fds
      rfl
  | createOther hs _ => exact .added (Os.onSocket_ok hs).2 rfl rfl
  | refused _ _ => exact .same (by simp)
  | bindDone _ hd _ =>
      refine .changed (fun _ _ h => nomatch h) hd (fun desc' h => ?_) rfl
      obtain rfl := Option.some.inj h
      rfl
  | closeDone _ hd _ => exact .changed (fun _ _ h => nomatch h) hd (by simp) rfl
  | @modeDone nonblocking _ d _ hd _ =>
      refine .changed (fun _ _ h => nomatch h) hd (fun desc' h => ?_)
        World.prelude_setDesc_fds
      obtain rfl := Option.some.inj h
      exact World.modeDesc_owner nonblocking d
  | sendDone _ _ _ => exact .same rfl
  | recvDone _ _ _ => exact .same (by simp)

omit [DecidableEq ι] in
/-- A descriptor whose owner is not that of the one in `sock->fd` stays as it
is. -/
theorem TableStep.foreign {d : Int64} {desc : Desc ι} (h : TableStep b i w w' op)
    (hd : w.os.fds d = some desc)
    (hfd : (∀ type proto, op ≠ .create type proto) →
      ∀ own, w.os.fds (w.fd b i) = some own → own.owner ≠ desc.owner) :
    w'.os.fds d = some desc := by
  cases h with
  | same fds => rw [fds, hd]
  | @added _ _ d' _ free _ fds =>
      have hne : d ≠ d' := by
        rintro rfl
        simp [free] at hd
      rw [fds, Function.update_of_ne hne, hd]
  | changed uses opened _ fds =>
      have hne : d ≠ w.fd b i := by
        rintro rfl
        obtain rfl := Option.some.inj (opened.symm.trans hd)
        exact hfd uses _ opened rfl
      rw [fds, Function.update_of_ne hne, hd]

omit [DecidableEq ι] in
/-- Only the socket of an operation can come to own a descriptor by it. -/
theorem TableStep.owns_of_ne {j : ι} (h : TableStep b i w w' op) (hj : j ≠ i) {d : Int64}
    (hown : w'.os.Owns j d) : w.os.Owns j d := by
  obtain ⟨desc, hd, howner⟩ := hown
  cases h with
  | same fds => exact ⟨desc, by rw [← fds, hd], howner⟩
  | @added _ _ d' desc' _ owner fds =>
      rw [fds] at hd
      by_cases hne : d = d'
      · subst hne
        rw [Function.update_self] at hd
        obtain rfl := Option.some.inj hd
        exact absurd (Option.some.inj (howner.symm.trans owner)) hj
      · rw [Function.update_of_ne hne] at hd
        exact ⟨desc, hd, howner⟩
  | changed _ opened owner fds =>
      rw [fds] at hd
      by_cases hne : d = w.fd b i
      · subst hne
        rw [Function.update_self] at hd
        exact ⟨_, opened, (owner desc hd).symm.trans howner⟩
      · rw [Function.update_of_ne hne] at hd
        exact ⟨desc, hd, howner⟩

end Steps

/-! ## Calls that trespass -/

/-- A call other than open, on a socket whose `sock->fd` is open and not its
own. -/
def Trespasses (b : Build) (w : World ι) (e : Step ι (Call ι)) : Prop :=
  (∃ op, e.call.op = some op) ∧ e.call.hasNull = false ∧
    w.os.fds (w.fd b e.sock) ≠ none ∧ ¬w.os.Owns e.sock (w.fd b e.sock)

section Trespass

variable {b : Build} {w : World ι} {e : Step ι (Call ι)} {op : SockOp ι}

omit [DecidableEq ι] in
/-- An open does not trespass. -/
theorem not_trespasses_open (hcall : e.call = .socketOpen) : ¬Trespasses b w e := by
  rintro ⟨⟨op, hop⟩, _⟩
  rw [hcall] at hop
  exact nomatch hop

omit [DecidableEq ι] in
/-- A call on a descriptor of the socket's own does not trespass. -/
theorem not_trespasses_of_owns (hown : w.os.Owns e.sock (w.fd b e.sock)) : ¬Trespasses b w e :=
  fun htrespass => htrespass.2.2.2 hown

omit [DecidableEq ι] in
/-- A call that does not trespass owns the descriptor it finds. -/
theorem owned_of_not_trespasses (hop : e.call.op = some op) (hnull : e.call.hasNull = false)
    (htrespass : ¬Trespasses b w e) (hopened : w.os.fds (w.fd b e.sock) ≠ none) :
    w.os.Owns e.sock (w.fd b e.sock) := by
  by_contra hforeign
  exact htrespass ⟨⟨op, hop⟩, hnull, hopened, hforeign⟩

end Trespass

end SockLynx
