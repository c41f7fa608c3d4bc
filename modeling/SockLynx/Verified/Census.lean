import Mathlib.Data.Set.Function
import SockLynx.Verified.Refinement

/-!
# Every open descriptor accounted for

The process has descriptors of its own and shares the table with the library.
After a session the table falls apart in two: what the process had, entry by
entry as it was, and one descriptor for each socket that is CREATED or BOUND,
which its `sock->fd` names.

## Main results

* `TableStep.sameForeign` — an operation on a descriptor of its own socket leaves
  the descriptors alone that no socket owns.
* `CensusInv.bijOn` — one descriptor for each open socket.
* `census` — the table after a session.
-/

namespace SockLynx

open SockLynx.Lib.Runs

variable {ι : Type} [DecidableEq ι]

/-- The same descriptors are open without an owner. -/
def SameForeign (w w' : World ι) : Prop :=
  ∀ d desc, desc.owner = none → (w'.os.fds d = some desc ↔ w.os.fds d = some desc)

section Steps

variable {b : Build} {a : Answers} {i : ι} {w w' w'' : World ι} {op : SockOp ι} {r : Int32}
  {s : Spec.Phase Name}

omit [DecidableEq ι] in
theorem SameForeign.trans (h : SameForeign w w') (h' : SameForeign w' w'') : SameForeign w w'' :=
  fun d desc howner => (h' d desc howner).trans (h d desc howner)

omit [DecidableEq ι] in
/-- No entry without an owner is touched where `sock->fd` is the socket's own. -/
theorem TableStep.sameForeign (h : TableStep b i w w' op)
    (hfd : (∀ type proto, op ≠ .create type proto) →
      ∀ own, w.os.fds (w.fd b i) = some own → own.owner = some i) : SameForeign w w' := by
  intro d desc howner
  constructor
  · intro hd
    cases h with
    | same fds => rwa [fds] at hd
    | @added _ _ d' desc' _ owner fds =>
        rw [fds] at hd
        by_cases hne : d = d'
        · subst hne
          rw [Function.update_self] at hd
          obtain rfl := Option.some.inj hd
          exact nomatch howner.symm.trans owner
        · rwa [Function.update_of_ne hne] at hd
    | changed uses opened owner fds =>
        rw [fds] at hd
        by_cases hne : d = w.fd b i
        · subst hne
          rw [Function.update_self] at hd
          have hown := (owner desc hd).trans (hfd uses _ opened)
          exact nomatch howner.symm.trans hown
        · rwa [Function.update_of_ne hne] at hd
  · intro hd
    apply h.foreign hd
    intro uses own hown heq
    exact nomatch howner.symm.trans (heq.symm.trans (hfd uses own hown))

/-- The case of a call. -/
theorem CallEffect.sameForeign {call : Call ι} (hb : b.asserts = true)
    (hhalf : call = .socketOpen → ¬w.OptionRefused b a i) (hs : Represents b w i s)
    (howned : ∀ op, call.op = some op → call.hasNull = false →
      w.os.fds (w.fd b i) ≠ none → w.os.Owns i (w.fd b i))
    (h : CallEffect b a i w call r w') : SameForeign w w' := by
  cases h with
  | guarded _ => exact fun _ _ _ => Iff.rfl
  | notCreated _ he _ => exact he.tableStep.sameForeign fun huses => absurd rfl (huses _ _)
  | created hready hc hr he =>
      obtain rfl := hs.idle_of_ready hb hready
      have hopen := (hc.represents_create hs (hhalf rfl)).resolve_left fun h =>
        slOk_ne_slErr (hr.symm.trans h.1)
      have hcreated := hc.tableStep.sameForeign fun huses => absurd rfl (huses _ _)
      refine hcreated.trans (he.tableStep.sameForeign fun _ own hown => ?_)
      cases hopen.2 with
      | opened on =>
          obtain rfl := Option.some.inj (hown.symm.trans on.found)
          exact on.owner
  | op hop hnull _ he =>
      apply he.tableStep.sameForeign
      intro _ own hown
      obtain ⟨desc, hd, howner⟩ := howned _ hop hnull (by simp [hown])
      obtain rfl := Option.some.inj (hown.symm.trans hd)
      exact howner

end Steps

/-! ## Sessions -/

section Sessions

variable {b : Build} {w₀ w w' : World ι} {i : ι}

/-- The invariant: every socket is in a phase, and the descriptors without an owner
are those of `w₀`. -/
structure CensusInv (b : Build) (w₀ w : World ι) : Prop where
  phases : ∃ t : ι → Spec.Phase Name, ∀ j, Represents b w j (t j)
  foreign : SameForeign w₀ w

theorem CensusInv.step {e : Step ι (Call ι)} {o : Outcome} (hb : b.asserts = true)
    (hI : CensusInv b w₀ w) (h : pluginStep b w e = some (o, w')) (hproper : Proper b w e) :
    CensusInv b w₀ w' := by
  obtain ⟨t, ht⟩ := hI.phases
  obtain ⟨s', _, ht'⟩ := pluginStep_represents hb ht h hproper
  have hs : Represents b w.clearLog e.sock (t e.sock) := (ht e.sock).of_same rfl rfl rfl rfl
  have hsame : SameForeign w.clearLog w' := (pluginStep_iff.mp h).1.sameForeign hb
    (fun hcall href => hproper.2 ⟨hcall, href⟩) hs
    fun op hop hnull hopened => owned_of_not_trespasses hop hnull hproper.1 hopened
  exact ⟨⟨_, ht'⟩, hI.foreign.trans hsame⟩

omit [DecidableEq ι] in
theorem CensusInv.openOn (hI : CensusInv b w₀ w) (hopen : w.IsOpen i) :
    ∃ desc name m, OpenOn b w i desc name m := by
  obtain ⟨t, ht⟩ := hI.phases
  have hi := ht i
  cases hphase : t i with
  | idle => exact absurd hphase (hi.isOpen_iff.mp hopen)
  | opened name m =>
      rw [hphase] at hi
      cases hi with
      | opened on => exact ⟨_, name, m, on⟩

omit [DecidableEq ι] in
/-- A socket that owns a descriptor is open on it. -/
theorem CensusInv.open_of_owns {d : Int64} (hI : CensusInv b w₀ w) (hown : w.os.Owns i d) :
    w.IsOpen i ∧ w.fd b i = d := by
  obtain ⟨t, ht⟩ := hI.phases
  have hi := ht i
  have hne : t i ≠ .idle := by
    intro hidle
    rw [hidle] at hi
    cases hi with
    | idle _ _ unowned => exact unowned d hown
  have hopen := hi.isOpen_iff.mpr hne
  obtain ⟨_, _, _, on⟩ := hI.openOn hopen
  exact ⟨hopen, (on.alone d hown).symm⟩

omit [DecidableEq ι] in
/-- One descriptor for each open socket. -/
theorem CensusInv.bijOn (hI : CensusInv b w₀ w) :
    Set.BijOn (fun i => w.fd b i) {i | w.IsOpen i}
      {d | ∃ desc, w.os.fds d = some desc ∧ desc.owner ≠ none} := by
  refine ⟨?_, ?_, ?_⟩
  · intro i hopen
    obtain ⟨desc, name, m, on⟩ := hI.openOn hopen
    exact ⟨desc, on.found, by simp [on.owner]⟩
  · intro i hi j hj heq
    have heq : w.fd b i = w.fd b j := heq
    obtain ⟨desc, name, m, on⟩ := hI.openOn hi
    obtain ⟨desc', name', m', on'⟩ := hI.openOn hj
    have hsame := on.found.symm.trans (heq ▸ on'.found)
    obtain rfl := Option.some.inj hsame
    exact Option.some.inj (on.owner.symm.trans on'.owner)
  · rintro d ⟨desc, hd, howner⟩
    obtain ⟨i, hi⟩ := Option.ne_none_iff_exists'.mp howner
    exact ⟨i, hI.open_of_owns ⟨desc, hd, hi⟩⟩

/--
**Census.**  In a build with assertions, on every platform, for any number of
sockets, any interleaving of their calls and any answers: after a session of
proper calls the descriptors of the process itself are open exactly as they were,
with their options and names, and `sock->fd` is one to one between the sockets
that are CREATED or BOUND and all other open descriptors.
-/
theorem census (p : Platform) (w : World ι) (endpoint : ι → SlEndpoint)
    {steps : List (Step ι (Call ι))} {outcomes : List Outcome} {v : World ι}
    (hproper : Along (pluginStep ⟨true, p⟩) (fun w e _ _ => Proper ⟨true, p⟩ w e)
      (w.start endpoint) steps)
    (hrun : exec (pluginStep ⟨true, p⟩) (w.start endpoint) steps = some (outcomes, v)) :
    (∀ d desc, (w.start endpoint).os.fds d = some desc ↔
        v.os.fds d = some desc ∧ desc.owner = none) ∧
      Set.BijOn (fun i => v.fd ⟨true, p⟩ i) {i | v.IsOpen i}
        {d | ∃ desc, v.os.fds d = some desc ∧ desc.owner ≠ none} := by
  have hstart : CensusInv ⟨true, p⟩ (w.start endpoint) (w.start endpoint) :=
    ⟨⟨_, fun j => .start _ w endpoint j⟩, fun _ _ _ => Iff.rfl⟩
  have hI : CensusInv ⟨true, p⟩ (w.start endpoint) v :=
    exec_invariant_along (fun _ _ _ _ hI h hC => hI.step rfl h hC) hstart hproper hrun
  refine ⟨fun d desc => ⟨fun hd => ?_, fun h => (hI.foreign d desc h.2).mp h.1⟩, hI.bijOn⟩
  obtain ⟨x, _, hx⟩ := Option.map_eq_some_iff.mp hd
  have howner : desc.owner = none := by
    rw [← hx]
    rfl
  exact ⟨(hI.foreign d desc howner).mpr hd, howner⟩

/-- The theorem at the tour. -/
theorem census_tour :
    ∃ outcomes v, exec (pluginStep ⟨true, .posix⟩) (World.pair.start fun _ => anyEndpoint 2)
        tour = some (outcomes, v) ∧
      (∀ d desc, (World.pair.start fun _ => anyEndpoint 2).os.fds d = some desc ↔
        v.os.fds d = some desc ∧ desc.owner = none) ∧
      Set.BijOn (fun i => v.fd ⟨true, .posix⟩ i) {i | v.IsOpen i}
        {d | ∃ desc, v.os.fds d = some desc ∧ desc.owner ≠ none} :=
  ⟨_, _, rfl, census .posix World.pair (fun _ => anyEndpoint 2) tour_proper rfl⟩

end Sessions

end SockLynx
