import SockLynx.Verified.Realization

/-!
# No socket is lost

An open whose `bind()` is refused leaves a socket that cannot be opened, one
whose `close()` is refused stays open, and a socket in use has whatever mode its
calls left it in.  From all of these there is a way back, if the system now
grants what it is asked: three calls of the socket itself, while the others stay
as they are.

## Main results

* `Spec.exists_path_to` — three acts lead from any phase to any named one.
* `recovery` — after every session, three calls that the system grants bind a
  socket in the mode that is wanted.
-/

namespace SockLynx

open SockLynx.Lib.Runs
open SockLynx.Lib.Simulation

variable {ι : Type} [DecidableEq ι]

/-! ## In the specification -/

namespace Spec

variable {α : Type} {s : ι → Phase α} {i : ι}

theorem Moves.step {x : Act α} {q : Phase α} (h : Moves (s i) x q) :
    Step s (i, x) (Function.update s i q) := by
  refine ⟨?_, fun j hj => Function.update_of_ne hj _ _⟩
  show Moves (s i) x (Function.update s i q i)
  rwa [Function.update_self]

/-- An idle socket gets its name, then its mode. -/
theorem path_of_idle (name : α) (m : Bool) (h : s i = .idle) :
    Path Step s [(i, .bound name), (i, .switched m)]
      (Function.update s i (.opened (some name) m)) := by
  have hbound : Step s (i, .bound name) (Function.update s i (.opened (some name) false)) :=
    Moves.step (h ▸ .bound name)
  have hswitched := Moves.step (s := Function.update s i (.opened (some name) false)) (i := i)
    (x := .switched m) (q := .opened (some name) m)
    (by rw [Function.update_self]; exact .switched _ _ _)
  rw [Function.update_idem] at hswitched
  exact .cons hbound (.cons hswitched (.nil _))

/-- From any phase a socket is led to a name and a mode in three acts. -/
theorem exists_path_to (s : ι → Phase α) (i : ι) (name : α) (m : Bool) :
    ∃ acts : List (ι × Act α), acts.length ≤ 3 ∧ (∀ x ∈ acts, x.1 = i) ∧
      (∀ j other, (j, .bound other) ∈ acts → j = i ∧ other = name) ∧
      Path Step s acts (Function.update s i (.opened (some name) m)) := by
  cases hs : s i with
  | idle => exact ⟨_, by simp, by simp, by simp, path_of_idle name m hs⟩
  | opened other m₀ =>
      have hclosed : Step s (i, .closed) (Function.update s i .idle) :=
        Moves.step (hs ▸ .closed other m₀)
      have hrest := path_of_idle (s := Function.update s i .idle) (i := i) name m
        (Function.update_self ..)
      rw [Function.update_idem] at hrest
      exact ⟨_, by simp, by simp, by simp, .cons hclosed hrest⟩

end Spec

/-! ## In the library -/

omit [DecidableEq ι] in
theorem World.Spare.mono {w : World ι} {p : Platform} {m n : Nat} (h : w.Spare p n) (hle : m ≤ n) :
    w.Spare p m :=
  fun used hused => h used (hused.trans hle)

/--
**Recovery.**  In a build with assertions, on every platform, for any number of
sockets, after every session of proper calls, whatever the system answered: for
each socket and each mode there are at most three proper calls of that socket
after which, when the system grants them, it is bound to its endpoint and in that
mode, and every other socket is in the phase it was in, if the process has three
descriptors to spare.
-/
theorem recovery (p : Platform) (w : World ι) (endpoint : ι → SlEndpoint)
    {steps : List (Step ι (Call ι))} {outcomes : List Outcome} {v : World ι}
    (hproper : Along (pluginStep ⟨true, p⟩) (fun w e _ _ => Proper ⟨true, p⟩ w e)
      (w.start endpoint) steps)
    (hrun : exec (pluginStep ⟨true, p⟩) (w.start endpoint) steps = some (outcomes, v)) (i : ι)
    (m : Bool) (hspare : v.Spare p 3) :
    ∃ more outcomes' v', more.length ≤ 3 ∧ (∀ e ∈ more, e.sock = i) ∧
      exec (pluginStep ⟨true, p⟩) v more = some (outcomes', v') ∧
      Along (pluginStep ⟨true, p⟩) (fun w e _ _ => Proper ⟨true, p⟩ w e) v more ∧
      Represents ⟨true, p⟩ v' i (.opened (some ((v.socks i).endpoint.sockaddr p)) m) ∧
      ∀ j s, j ≠ i → Represents ⟨true, p⟩ v j s → Represents ⟨true, p⟩ v' j s := by
  obtain ⟨t, _, ht⟩ := exists_path p w endpoint hproper hrun
  obtain ⟨acts, hlen, hacts, hbound, hpath⟩ :=
    Spec.exists_path_to t i ((v.socks i).endpoint.sockaddr p) m
  have hnames : ∀ j name, (j, .bound name) ∈ acts → name = (v.socks j).endpoint.sockaddr p := by
    intro j name hmem
    obtain ⟨rfl, hname⟩ := hbound j name hmem
    exact hname
  obtain ⟨more, outcomes', v', hexec, halong, hsocks, _, ht'⟩ :=
    exists_session (b := ⟨true, p⟩) rfl hpath hnames ht (fun _ => rfl) (hspare.mono hlen)
  refine ⟨more, outcomes', v', ?_, ?_, hexec, halong, ?_, ?_⟩
  · have hcount := congrArg List.length hsocks
    rw [List.length_map, List.length_map] at hcount
    omega
  · intro e he
    have hmem : e.sock ∈ acts.map Prod.fst := hsocks ▸ List.mem_map_of_mem he
    obtain ⟨x, hx, hsock⟩ := List.mem_map.mp hmem
    rw [← hsock, hacts x hx]
  · have hi := ht' i
    rwa [Function.update_self] at hi
  · intro j s hj hs
    have hj' := ht' j
    rw [Function.update_of_ne hj] at hj'
    rwa [hs.unique (ht j)]

/-- The theorem after the tour, which ends with a socket that has no name. -/
theorem recovery_tour :
    ∃ outcomes v, exec (pluginStep ⟨true, .posix⟩) (World.pair.start fun _ => anyEndpoint 2)
        tour = some (outcomes, v) ∧
      (v.socks true).state = SlSockState.created.val ∧
      ∃ more outcomes' v', more.length ≤ 3 ∧ (∀ e ∈ more, e.sock = true) ∧
        exec (pluginStep ⟨true, .posix⟩) v more = some (outcomes', v') ∧
        Along (pluginStep ⟨true, .posix⟩) (fun w e _ _ => Proper ⟨true, .posix⟩ w e) v more ∧
        Represents ⟨true, .posix⟩ v' true
          (.opened (some ((v.socks true).endpoint.sockaddr .posix)) true) ∧
        ∀ j s, j ≠ true → Represents ⟨true, .posix⟩ v j s →
          Represents ⟨true, .posix⟩ v' j s := by
  refine ⟨_, _, rfl, rfl, recovery .posix World.pair (fun _ => anyEndpoint 2) tour_proper rfl
    true true ?_⟩
  refine World.Spare.of_free (F := {5, 6, 7, 8}) ?_ (by decide)
  intro d hd
  simp only [Finset.mem_insert, Finset.mem_singleton] at hd
  rcases hd with rfl | rfl | rfl | rfl <;> exact ⟨rfl, rfl⟩

end SockLynx
