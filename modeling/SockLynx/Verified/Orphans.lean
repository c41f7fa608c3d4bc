import SockLynx.Verified.Holding

/-!
# Descriptors are not orphaned

The library keeps track of a descriptor by two fields: its number is in
`sock->fd`, and the state is CREATED or BOUND while it is open.  Where
`setsockopt` is refused, `sl_sock_create` returns after the first of the two
is written and before the second, with the descriptor open.

## Main results

* `Accounted` — the descriptors the library opened are those its sockets'
  fields say.
* `orphans_iff` — a session accounts for its descriptors exactly as long as
  no open is refused `IPV6_V6ONLY`.
-/

namespace SockLynx

open SockLynx.Lib.Runs

variable {ι : Type} [DecidableEq ι]

/-- An open descriptor of a socket is its `sock->fd`, and the socket is CREATED
or BOUND. -/
def Accounted (w : World ι) : Prop :=
  ∀ j d, w.os.Owns j d → (w.socks j).fd = d ∧ w.IsOpen j

/-- The invariant of a session that accounts for its descriptors. -/
structure AccountInv (b : Build) (w : World ι) : Prop where
  valid : w.Valid b
  accounted : Accounted w

/-- A call opens a socket and is refused `IPV6_V6ONLY`. -/
def HalfOpened (b : Build) (w : World ι) (e : Step ι (Call ι)) : Prop :=
  e.call = .socketOpen ∧ w.OptionRefused b e.answers e.sock

omit [DecidableEq ι] in
theorem AccountInv.clearLog {b : Build} {w : World ι} (h : AccountInv b w) :
    AccountInv b w.clearLog :=
  ⟨h.valid, h.accounted⟩

section Steps

variable {b : Build} {a : Answers} {i : ι} {w w' : World ι} {op : SockOp ι} {r : Int32}

omit [DecidableEq ι] in
/-- A socket that may be created is not open, so it accounts for nothing. -/
theorem Accounted.not_owns {type proto : UInt32} (hb : b.asserts = true)
    (hready : (.create type proto : SockOp ι).Ready b (w.socks i)) (hI : Accounted w)
    (d : Int64) : ¬w.os.Owns i d := by
  intro hown
  exact World.not_isOpen_of_ready hb hready (hI i d hown).2

/-- What one operation preserves. -/
theorem Accounted.step (hb : b.asserts = true) (hv : w.Valid b)
    (hready : op.Ready b (w.socks i)) (hI : Accounted w) (he : SockEffect b a i w op r w')
    (hhalf : ∀ type proto, op = .create type proto → ¬w.OptionRefused b a i) :
    Accounted w' := by
  intro j d hown
  have hother : j ≠ i → w.os.Owns j d → (w'.socks j).fd = d ∧ w'.IsOpen j := by
    intro hj hown
    rw [World.IsOpen, he.fd_of_ne hj, he.state_of_ne hj]
    exact hI j d hown
  cases he.holding with
  | keep owns fd state =>
      have hown := (owns j d).mp hown
      by_cases hj : j = i
      · subst hj
        obtain ⟨hfd, hopen⟩ := hI j d hown
        refine ⟨fd.trans hfd, ?_⟩
        rcases state with hst | ⟨_, hbound⟩
        · rw [World.IsOpen, hst]
          exact hopen
        · exact Or.inr hbound
      · exact hother hj hown
  | acquire owns fd state =>
      rcases (owns j d).mp hown with ⟨rfl, rfl⟩ | hown
      · exact ⟨fd, Or.inl (state.resolve_right fun h => hhalf _ _ rfl h.2)⟩
      · refine hother ?_ hown
        rintro rfl
        exact hI.not_owns hb hready d hown
  | release granted owns fd state =>
      obtain ⟨hne, hown⟩ := (owns j d).mp hown
      refine hother ?_ hown
      rintro rfl
      exact hne ((hv.fd_eq j).trans (hI j d hown).1).symm

/-- A creation refused the option fails, leaves the state alone and the new
descriptor open. -/
theorem SockEffect.of_optionRefused {type proto : UInt32} (h : w.OptionRefused b a i)
    (he : SockEffect b a i w (.create type proto) r w') :
    r = slErr ∧ (w'.socks i).state = (w.socks i).state ∧ ∃ d, w'.os.Owns i d := by
  obtain ⟨h6, ⟨d, hs⟩, e, ho⟩ := h
  cases he with
  | createRefused hs' => simp [hs] at hs'
  | @createHalf _ _ d' =>
      refine ⟨rfl, by simp, d', w.freshDesc b a i type proto, ?_, rfl⟩
      simp
  | createV6 _ _ ho' => simp [ho] at ho'
  | createOther _ h6' => simp [h6] at h6'
  | refused hc _ => simp [SockOp.decisive] at hc

/-- A call accounts for the descriptors exactly when it is not refused the
option. -/
theorem CallEffect.accounted_iff {call : Call ι} (hb : b.asserts = true) (hv : w.Valid b)
    (hI : Accounted w) (h : CallEffect b a i w call r w') :
    Accounted w' ↔ ¬(call = .socketOpen ∧ w.OptionRefused b a i) := by
  cases h with
  | guarded hnull =>
      refine ⟨?_, fun _ => hI⟩
      rintro _ ⟨rfl, _⟩
      simp [Call.hasNull] at hnull
  | notCreated hready he _ =>
      constructor
      · rintro hI' ⟨_, href⟩
        obtain ⟨_, hstate, d, hown⟩ := SockEffect.of_optionRefused href he
        have hopen := (hI' i d hown).2
        rw [World.IsOpen, hstate] at hopen
        exact World.not_isOpen_of_ready hb hready hopen
      · intro hhalf
        exact hI.step hb hv hready he fun _ _ _ href => hhalf ⟨rfl, href⟩
  | @created _ _ w₁ _ hready hc hr he =>
      have hnot : ¬w.OptionRefused b a i := fun href =>
        slOk_ne_slErr (hr.symm.trans (SockEffect.of_optionRefused href hc).1)
      have hI₁ := hI.step hb hv hready hc fun _ _ _ href => hnot href
      have hready₁ : (.bind : SockOp ι).Ready b (w₁.socks i) := fun _ => hc.created_state hr
      exact ⟨fun _ h => hnot h.2, fun _ =>
        hI₁.step hb (hc.valid hv) hready₁ he fun type proto h =>
          absurd h (SockOp.bind_ne_create type proto)⟩
  | op hop hnull hready he =>
      refine ⟨?_, fun _ => hI.step hb hv hready he fun type proto h => ?_⟩
      · rintro _ ⟨rfl, _⟩
        simp [Call.op] at hop
      · exact absurd h ((Call.op_ne hop).2 type proto)

end Steps

/--
**No orphaned descriptors.**  In a build with assertions, for any number of
sockets, any sequence of calls and any answers: at every point of a session
the descriptors the library opened are accounted for, exactly as long as no
open is refused `IPV6_V6ONLY`.
-/
theorem orphans_iff (p : Platform) (w : World ι) (endpoint : ι → SlEndpoint)
    (steps : List (Step ι (Call ι))) :
    (Accounted (w.start endpoint) ∧
        Along (pluginStep ⟨true, p⟩) (fun _ _ _ w' => Accounted w') (w.start endpoint) steps) ↔
      Along (pluginStep ⟨true, p⟩) (fun w e _ _ => ¬HalfOpened ⟨true, p⟩ w e)
        (w.start endpoint) steps := by
  have hstart : Accounted (w.start endpoint) := by
    rintro j d ⟨desc, hd, howner⟩
    obtain ⟨x, _, rfl⟩ := Option.map_eq_some_iff.mp hd
    exact nomatch howner
  have hI : AccountInv ⟨true, p⟩ (w.start endpoint) := ⟨w.start_valid _ _, hstart⟩
  rw [and_iff_right hstart]
  refine along_iff_of_invariant (fun w e _ w' hI h => ?_) (fun w e _ w' hI h hC => ?_) hI
  · have hiff := (pluginStep_iff.mp h).1.accounted_iff rfl hI.clearLog.valid hI.clearLog.accounted
    exact hiff
  · have he := (pluginStep_iff.mp h).1
    exact ⟨he.valid hI.clearLog.valid,
      (he.accounted_iff rfl hI.clearLog.valid hI.clearLog.accounted).mpr hC⟩

/-- The failing session: an IPv6 socket whose `setsockopt` is refused stays NEW
with descriptor 3 open. -/
theorem orphans_refused_option :
    ¬Along (pluginStep ⟨true, .posix⟩) (fun _ _ _ w' => Accounted w')
      (World.small.start fun _ => anyEndpoint 10)
      [⟨(), .socketOpen, { Answers.granting 3 with setsockopt := .error 92 }⟩] := by
  intro h
  obtain ⟨haccounted, _⟩ := h ⟨slErr, _⟩ _ rfl
  obtain ⟨_, hopen⟩ := haccounted () 3 ⟨_, rfl, rfl⟩
  exact absurd hopen (by unfold World.IsOpen; decide)

end SockLynx
