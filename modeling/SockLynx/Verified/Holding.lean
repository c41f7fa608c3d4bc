import SockLynx.Verified.Frame

/-!
# Who owns which descriptor

A socket owns a descriptor from the `socket()` call that returned it until it
is closed (`Os.Owns`).  `Holding` is all that an operation can do to this
relation: keep it, acquire a new descriptor, or release the one in
`sock->fd`.  It says nothing of addresses, modes or errors, and so is the
whole of what the invariants about descriptors need to know of the code:
`SockEffect.holding` is the only proof here that looks at it.
-/

namespace SockLynx

variable {ι : Type} [DecidableEq ι]

/-! ## The ownership relation -/

section Owns

variable {w : World ι} {j k : ι} {d fd : Int64} {desc desc' : Desc ι}

omit [DecidableEq ι] in
/-- A descriptor has one owner. -/
theorem Os.Owns.unique {os : Os ι} (h : os.Owns j d) (h' : os.Owns k d) : j = k := by
  obtain ⟨x, hx, hj⟩ := h
  obtain ⟨y, hy, hk⟩ := h'
  obtain rfl : x = y := Option.some.inj (hx.symm.trans hy)
  exact Option.some.inj (hj.symm.trans hk)

omit [DecidableEq ι] in
/-- Changing a descriptor in place changes no owner. -/
theorem World.owns_setDesc_same (h : w.os.fds fd = some desc)
    (ho : desc'.owner = desc.owner) :
    (w.setDesc fd (some desc')).os.Owns j d ↔ w.os.Owns j d := by
  by_cases hd : d = fd
  · subst hd
    simp [Os.Owns, h, ho]
  · simp [Os.Owns, World.setDesc_of_ne _ _ hd]

omit [DecidableEq ι] in
/-- A closed descriptor has no owner. -/
theorem World.owns_setDesc_none :
    (w.setDesc fd none).os.Owns j d ↔ d ≠ fd ∧ w.os.Owns j d := by
  by_cases hd : d = fd
  · subst hd
    simp [Os.Owns]
  · simp [Os.Owns, World.setDesc_of_ne _ _ hd, hd]

omit [DecidableEq ι] in
/-- A new descriptor belongs to the socket it was opened for. -/
theorem World.owns_openDesc (h : w.os.fds fd = none) (ho : desc.owner = some k) :
    (w.openDesc fd desc).os.Owns j d ↔ (j = k ∧ d = fd) ∨ w.os.Owns j d := by
  unfold Os.Owns
  rw [World.openDesc_fds]
  by_cases hd : d = fd
  · subst hd
    simp [h, ho, eq_comm]
  · simp [World.setDesc_of_ne _ _ hd, hd]

end Owns

/-! ## What an operation does to it -/

/-- What an operation on socket `i` does to the ownership of descriptors. -/
inductive Holding (b : Build) (a : Answers) (i : ι) (w w' : World ι) : SockOp ι → Prop
  | keep {op : SockOp ι}
      (owns : ∀ j d, w'.os.Owns j d ↔ w.os.Owns j d)
      (fd : (w'.socks i).fd = (w.socks i).fd)
      (state : (w'.socks i).state = (w.socks i).state ∨
        op = .bind ∧ (w'.socks i).state = SlSockState.bound.val) :
      Holding b a i w w' op
  | acquire {type proto : UInt32} {d : Int64}
      (owns : ∀ j x, w'.os.Owns j x ↔ (j = i ∧ x = d) ∨ w.os.Owns j x)
      (fd : (w'.socks i).fd = d)
      (state : (w'.socks i).state = SlSockState.created.val ∨
        (w'.socks i).state = (w.socks i).state ∧ w.OptionRefused b a i) :
      Holding b a i w w' (.create type proto)
  | release
      (granted : (.close : SockOp ι).refusal b a i w = none)
      (owns : ∀ j d, w'.os.Owns j d ↔ d ≠ w.fd b i ∧ w.os.Owns j d)
      (fd : (w'.socks i).fd = 0)
      (state : (w'.socks i).state = SlSockState.closed.val) :
      Holding b a i w w' .close

section Steps

variable {b : Build} {a : Answers} {i : ι} {w w' : World ι} {op : SockOp ι} {r : Int32}

omit [DecidableEq ι] in
theorem refusedWith_eq_none {β : Type} {os : Os ι} {fd : Int64} {answer : Except Int32 β}
    {d : Desc ι} {x : β} (hd : os.fds fd = some d) (ha : answer = .ok x) :
    refusedWith (os.onDesc fd answer) = none := by
  rw [Os.onDesc_ok_iff.mpr ⟨hd, ha⟩]
  rfl

theorem SockEffect.holding (h : SockEffect b a i w op r w') : Holding b a i w w' op := by
  cases h with
  | createRefused _ =>
      exact .keep (fun _ _ => Iff.rfl) (by simp) (Or.inl (by simp))
  | createHalf hs h6 ho =>
      exact .acquire (fun _ _ => World.owns_openDesc (Os.onSocket_ok hs).2 rfl) (by simp)
        (Or.inr ⟨by simp, h6, ⟨_, hs⟩, ⟨_, ho⟩⟩)
  | @createV6 type proto d hs h6 ho =>
      refine .acquire (d := d) (fun j x => ?_) (by simp) (Or.inl (by simp))
      have howner : ({ w.freshDesc b a i type proto with v6only := false } : Desc ι).owner =
          (w.freshDesc b a i type proto).owner := rfl
      exact (World.owns_setDesc_same World.openFor_fds_self howner).trans
        (World.owns_openDesc (Os.onSocket_ok hs).2 rfl)
  | createOther hs h6 =>
      exact .acquire (fun _ _ => World.owns_openDesc (Os.onSocket_ok hs).2 rfl) (by simp)
        (Or.inl (by simp))
  | refused _ _ =>
      exact .keep (fun _ _ => by simp [Os.Owns]) (by simp) (Or.inl (by simp))
  | bindDone _ hd _ =>
      exact .keep (fun _ _ => World.owns_setDesc_same hd rfl) (by simp)
        (Or.inr ⟨rfl, by simp⟩)
  | closeDone _ hd ha =>
      exact .release (refusedWith_eq_none hd ha) (fun _ _ => World.owns_setDesc_none) (by simp)
        (by simp)
  | modeDone _ hd _ =>
      refine .keep (fun j d => ?_) (by simp) (Or.inl (by simp))
      refine (World.owns_setDesc_same (by simpa using hd) ?_).trans (by simp [Os.Owns])
      unfold World.modeDesc
      split <;> rfl
  | sendDone _ _ _ =>
      exact .keep (fun _ _ => Iff.rfl) rfl (Or.inl rfl)
  | recvDone _ _ _ =>
      exact .keep (fun _ _ => by simp [Os.Owns]) (by simp) (Or.inl (by simp))

end Steps

end SockLynx
