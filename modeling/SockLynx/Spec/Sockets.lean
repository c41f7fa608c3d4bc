import SockLynx.Lib.Simulation

/-!
# Datagram sockets as their user knows them

What the library is for, said without descriptors, struct fields or system
calls.  A socket is idle or open; an open one may have a name, by which others
reach it, and blocks or does not.  A user holds any number of them, and each
act is an act of one.  A call that fails is no act, with one exception: an open
that fails may leave the socket open without a name.

The names are of any type.  `SockLynx.Verified.Refinement` shows that the
library moves its sockets as `Step` allows.

## Main results

* `path_mode` — a socket blocks unless the last act on its mode made it stop.
* `path_name` — a socket has the name its last opening gave it, if any.
* `path_balance` — openings and closings of a socket alternate.
-/

namespace SockLynx.Spec

open SockLynx.Lib.Simulation

variable {ι α : Type}

/-! ## One socket -/

/-- A datagram socket. -/
inductive Phase (α : Type)
  | idle
  | opened (name : Option α) (nonblocking : Bool)

/-- What a call does to the socket: opening may end with a socket that has a
name or with one that has none. -/
inductive Act (α : Type)
  | bound (name : α)
  | unnamed
  | closed
  | switched (nonblocking : Bool)
  | transferred

/-- The moves of a socket.  Only a socket with a name transfers anything. -/
inductive Moves : Phase α → Act α → Phase α → Prop
  | bound (name : α) : Moves .idle (.bound name) (.opened (some name) false)
  | unnamed : Moves .idle .unnamed (.opened none false)
  | closed (name : Option α) (m : Bool) : Moves (.opened name m) .closed .idle
  | switched (name : Option α) (m m' : Bool) :
      Moves (.opened name m) (.switched m') (.opened name m')
  | transferred (name : α) (m : Bool) :
      Moves (.opened (some name) m) .transferred (.opened (some name) m)

/-- The socket does not block. -/
def Phase.nonblocking : Phase α → Bool
  | .idle => false
  | .opened _ m => m

/-- The name of the socket. -/
def Phase.name : Phase α → Option α
  | .idle => none
  | .opened name _ => name

/-- The number of descriptors the socket holds. -/
def Phase.held : Phase α → Nat
  | .idle => 0
  | .opened _ _ => 1

/-- The mode an act sets. -/
def Act.mode : Act α → Option Bool
  | .bound _ | .unnamed | .closed => some false
  | .switched m => some m
  | .transferred => none

/-- The name an act sets. -/
def Act.name : Act α → Option (Option α)
  | .bound name => some (some name)
  | .unnamed | .closed => some none
  | .switched _ | .transferred => none

/-- The act opens the socket. -/
def Act.opens : Act α → Bool
  | .bound _ | .unnamed => true
  | _ => false

/-- The act closes the socket. -/
def Act.closes : Act α → Bool
  | .closed => true
  | _ => false

theorem Moves.mode {p q : Phase α} {x : Act α} (h : Moves p x q) :
    q.nonblocking = x.mode.getD p.nonblocking := by
  cases h <;> rfl

theorem Moves.name {p q : Phase α} {x : Act α} (h : Moves p x q) :
    q.name = x.name.getD p.name := by
  cases h <;> rfl

theorem Moves.held {p q : Phase α} {x : Act α} (h : Moves p x q) :
    p.held + (if x.opens then 1 else 0) = (if x.closes then 1 else 0) + q.held := by
  cases h <;> simp [Phase.held, Act.opens, Act.closes]

/-- An act moves a phase one way only. -/
theorem Moves.unique {p q q' : Phase α} {x : Act α} (h : Moves p x q) (h' : Moves p x q') :
    q = q' := by
  cases h <;> cases h' <;> rfl

/-! ## Many sockets -/

/-- An act of one socket, which leaves the others alone. -/
def Step (s : ι → Phase α) (x : ι × Act α) (s' : ι → Phase α) : Prop :=
  Moves (s x.1) x.2 (s' x.1) ∧ ∀ j, j ≠ x.1 → s' j = s j

section Paths

variable [DecidableEq ι] {s t : ι → Phase α} {xs : List (ι × Act α)}

/-- The acts of socket `i`. -/
def actsOf (i : ι) (xs : List (ι × Act α)) : List (Act α) :=
  xs.filterMap fun x => if x.1 = i then some x.2 else none

/-- A property of its phase that every act of a socket overwrites or leaves
alone. -/
private theorem path_property {β : Type} {f : Phase α → β} {write : Act α → Option β}
    (hwrite : ∀ p x q, Moves p x q → f q = (write x).getD (f p)) (i : ι)
    (h : Path Step s xs t) :
    f (t i) = ((actsOf i xs).filterMap write).getLast?.getD (f (s i)) := by
  have hregister : f (t i) =
      (xs.filterMap fun x => if x.1 = i then write x.2 else none).getLast?.getD (f (s i)) := by
    refine Path.register (f := fun s => f (s i)) (fun s x s' hstep => ?_) h
    by_cases hx : x.1 = i
    · subst hx
      simpa using hwrite _ _ _ hstep.1
    · have hother : s' i = s i := hstep.2 i (Ne.symm hx)
      simp [hx, hother]
  rw [hregister, actsOf, List.filterMap_filterMap]
  congr 3
  funext x
  by_cases hx : x.1 = i <;> simp [hx]

/-- A socket's mode is what its last act on the mode made it. -/
theorem path_mode (i : ι) (h : Path Step s xs t) :
    (t i).nonblocking =
      ((actsOf i xs).filterMap Act.mode).getLast?.getD (s i).nonblocking :=
  path_property (fun _ _ _ => Moves.mode) i h

/-- A socket's name is what its last opening made it. -/
theorem path_name (i : ι) (h : Path Step s xs t) :
    (t i).name = ((actsOf i xs).filterMap Act.name).getLast?.getD (s i).name :=
  path_property (fun _ _ _ => Moves.name) i h

/-- A socket holds what it has opened and not closed, and never more than
one. -/
theorem path_balance (i : ι) (h : Path Step s xs t) :
    (s i).held + (actsOf i xs).countP Act.opens =
      (actsOf i xs).countP Act.closes + (t i).held := by
  induction h with
  | nil t => simp [actsOf]
  | @cons s s' t x xs hstep _ ih =>
      by_cases hx : x.1 = i
      · subst hx
        have hheld := hstep.1.held
        simp only [actsOf, List.filterMap_cons, if_true, List.countP_cons] at ih ⊢
        omega
      · have hother : s' i = s i := hstep.2 i (Ne.symm hx)
        rw [hother] at ih
        simpa [actsOf, hx] using ih

end Paths

end SockLynx.Spec
