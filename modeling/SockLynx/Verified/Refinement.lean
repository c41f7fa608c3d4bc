import SockLynx.Spec.Sockets
import SockLynx.Verified.ModeSwitch
import SockLynx.Verified.Orphans
import SockLynx.Verified.Tables

/-!
# The library refines its specification

`SockLynx.Spec.Sockets` knows sockets that are idle or open, a name and a mode.
`Represents` reads these off the fields of `sl_sock_t` and the kernel's table:
an idle socket has a zero descriptor, no flags and owns nothing, an open one
owns the descriptor in `sock->fd` and no other, the descriptor is bound at most
once, and the flags are those of its family and mode.

`Call.act` is the act a call shows by the value it returns and the system calls
it makes.  An open that fails after `socket()` shows an act too.

The simulation asks of the calls that they do not trespass and of the system
that it does not refuse `IPV6_V6ONLY`.

## Main results

* `SockEffect.represents_create`, `SockEffect.represents_bind`,
  `SockEffect.represents_op` — one operation.
* `refines` — a session moves its sockets as the specification allows.
* `lifetime` — mode and name of an open socket, from the calls alone.
* `ledger` — descriptors opened and descriptors closed.
-/

namespace SockLynx

open SockLynx.Lib.Masks
open SockLynx.Lib.Runs
open SockLynx.Lib.Simulation

variable {ι : Type} [DecidableEq ι]

/-- An address and its length, as `bind()` is given them. -/
abbrev Name := List UInt8 × UInt32

/-! ## The act a call shows -/

/-- What the last system call of an open tells: bound, or left without a name
where `bind()` was refused. -/
def Event.opening : Event → Option (Spec.Act Name)
  | ⟨.bind _ addr len, .ok _⟩ => some (.bound (addr, len))
  | ⟨.bind _ _ _, .error _⟩ => some .unnamed
  | _ => none

/-- The act of an operation that is a call of its own, where it succeeds. -/
def SockOp.act : SockOp ι → Option (Spec.Act Name)
  | .close => some .closed
  | .mode nonblocking => some (.switched nonblocking)
  | .send _ _ _ => some .transferred
  | .recv _ _ _ => some .transferred
  | _ => none

/-- The act a call shows. -/
def Call.act (o : Outcome) (call : Call ι) : Option (Spec.Act Name) :=
  match call.op with
  | none => o.events.getLast?.bind Event.opening
  | some op => if o.ret = slErr then none else op.act

/-- The act a step shows, and its socket. -/
def Step.act (e : Step ι (Call ι)) (o : Outcome) : Option (ι × Spec.Act Name) :=
  (e.call.act o).map fun x => (e.sock, x)

/-! ## The phase of a socket -/

/-- The mode of a descriptor: `FIONBIO` on Winsock, `O_NONBLOCK` elsewhere. -/
def Desc.nonblocking (p : Platform) (d : Desc ι) : Bool :=
  if p.winsock then d.fionbio else d.hasNonblock p

/-- The flags of a socket with a descriptor of family `domain`. -/
def flagsOf (p : Platform) (domain : UInt16) (nonblocking : Bool) : UInt32 :=
  modeFlags nonblocking (if domain = p.afInet6 then SlSockFlag.ipv4Disabled.val else 0)

/-- Socket `j` is open on the descriptor `desc`. -/
structure OpenOn (b : Build) (w : World ι) (j : ι) (desc : Desc ι) (name : Option Name)
    (nonblocking : Bool) : Prop where
  state : (w.socks j).state =
    (if name.isSome then SlSockState.bound else SlSockState.created).val
  found : w.os.fds (w.fd b j) = some desc
  owner : desc.owner = some j
  alone : ∀ d, w.os.Owns j d → d = w.fd b j
  binds : desc.binds = name.toList
  flags : (w.socks j).flags = flagsOf b.platform desc.domain nonblocking
  mode : desc.nonblocking b.platform = nonblocking
  dual : desc.domain = b.platform.afInet6 → desc.v6only = false

/-- What a phase of socket `j` says of the world. -/
inductive Represents (b : Build) (w : World ι) (j : ι) : Spec.Phase Name → Prop
  | idle (empty : w.Empty j) (flags : (w.socks j).flags = 0) (unowned : ∀ d, ¬w.os.Owns j d) :
      Represents b w j .idle
  | opened {desc : Desc ι} {name : Option Name} {nonblocking : Bool}
      (on : OpenOn b w j desc name nonblocking) : Represents b w j (.opened name nonblocking)

/-- The act `x`, if there is one, moves `s` to `s'`. -/
def Follows (s : Spec.Phase Name) (x : Option (Spec.Act Name)) (s' : Spec.Phase Name) : Prop :=
  match x with
  | none => s' = s
  | some x => Spec.Moves s x s'

section Phases

variable {b : Build} {a : Answers} {i j : ι} {w w' : World ι} {op : SockOp ι} {r : Int32}
  {s : Spec.Phase Name} {desc : Desc ι} {name : Option Name} {m : Bool}

omit [DecidableEq ι] in
theorem modeFlags_flagsOf {p : Platform} {domain : UInt16} (m m' : Bool) :
    modeFlags m' (flagsOf p domain m) = flagsOf p domain m' := by
  unfold flagsOf
  split <;> cases m <;> cases m' <;> decide

omit [DecidableEq ι] in
theorem flagsOf_mask (p : Platform) (domain : UInt16) (m : Bool) :
    (flagsOf p domain m &&& SlSockFlag.nonblocking.val != 0) = m :=
  modeFlags_mask m _

omit [DecidableEq ι] in
/-- A new descriptor blocks. -/
theorem World.freshDesc_nonblocking (type proto : UInt32) :
    (w.freshDesc b a i type proto).nonblocking b.platform = false := by
  simp only [Desc.nonblocking, Desc.hasNonblock, World.freshDesc, Desc.fresh,
    int32_clear_same]
  split <;> rfl

omit [DecidableEq ι] in
/-- The mode switch that the system grants is in effect. -/
theorem World.modeDesc_nonblocking (m : Bool) (d : Desc ι) :
    (w.modeDesc b a i m d).nonblocking b.platform = m := by
  cases hw : b.platform.winsock with
  | true => simp [World.modeDesc, Desc.nonblocking, hw]
  | false =>
      simp only [World.modeDesc, Desc.nonblocking, Desc.hasNonblock, hw, Bool.false_eq_true,
        if_false]
      rw [Bool.eq_iff_iff, bne_iff_ne]
      exact setflArg_mask m

omit [DecidableEq ι] in
theorem Represents.isOpen_iff (h : Represents b w j s) : w.IsOpen j ↔ s ≠ .idle := by
  cases h with
  | idle empty _ _ =>
      refine iff_of_false (fun hopen => ?_) (fun h => h rfl)
      rcases empty.2 with hstate | hstate <;> rw [World.IsOpen, hstate] at hopen <;>
        exact absurd hopen (by decide)
  | @opened _ name _ on =>
      refine iff_of_true ?_ (by simp)
      cases name with
      | none => exact Or.inl on.state
      | some name => exact Or.inr on.state

omit [DecidableEq ι] in
/-- A socket that may be created is idle. -/
theorem Represents.idle_of_ready {type proto : UInt32} (hb : b.asserts = true)
    (h : Represents b w i s) (hready : (.create type proto : SockOp ι).Ready b (w.socks i)) :
    s = .idle := by
  by_contra hs
  exact World.not_isOpen_of_ready hb hready (h.isOpen_iff.mpr hs)

omit [DecidableEq ι] in
/-- A BOUND socket has a name. -/
theorem Represents.name_of_bound (h : Represents b w i s)
    (hstate : (w.socks i).state = SlSockState.bound.val) :
    ∃ name m, s = .opened (some name) m := by
  cases h with
  | idle empty _ _ =>
      rcases empty.2 with h | h <;> rw [hstate] at h <;> exact absurd h (by decide)
  | @opened _ name m on =>
      cases name with
      | none => exact absurd (hstate.symm.trans on.state) (by decide)
      | some name => exact ⟨name, m, rfl⟩

omit [DecidableEq ι] in
/-- A phase is read off three fields and the descriptors of the socket. -/
theorem Represents.congr (h : Represents b w j s) (hfd : (w'.socks j).fd = (w.socks j).fd)
    (hstate : (w'.socks j).state = (w.socks j).state)
    (hflags : (w'.socks j).flags = (w.socks j).flags)
    (hkeeps : ∀ d desc, desc.owner = some j → w.os.fds d = some desc → w'.os.fds d = some desc)
    (howns : ∀ d, w'.os.Owns j d → w.os.Owns j d) : Represents b w' j s := by
  have hfd' : w'.fd b j = w.fd b j := by simp only [World.fd, hfd]
  cases h with
  | idle empty flags unowned =>
      refine .idle ?_ (hflags.trans flags) fun d hown => unowned d (howns d hown)
      rwa [World.Empty, hfd, hstate]
  | opened on =>
      exact .opened {
        state := hstate.trans on.state
        found := hfd' ▸ hkeeps _ _ on.owner on.found
        owner := on.owner
        alone := fun d hown => (on.alone d (howns d hown)).trans hfd'.symm
        binds := on.binds
        flags := hflags.trans on.flags
        mode := on.mode
        dual := on.dual }

omit [DecidableEq ι] in
/-- The case of an untouched table. -/
theorem Represents.of_same (h : Represents b w j s) (hfd : (w'.socks j).fd = (w.socks j).fd)
    (hstate : (w'.socks j).state = (w.socks j).state)
    (hflags : (w'.socks j).flags = (w.socks j).flags) (hfds : w'.os.fds = w.os.fds) :
    Represents b w' j s := by
  refine h.congr hfd hstate hflags (fun d desc _ hd => ?_) fun d hown => ?_
  · rw [hfds, hd]
  · rwa [Os.Owns, hfds] at hown

/-- An operation on socket `i` leaves the other sockets in their phase, if the
descriptor it uses is not theirs. -/
theorem Represents.frame (h : Represents b w j s) (hj : j ≠ i)
    (he : SockEffect b a i w op r w')
    (hfd : (∀ type proto, op ≠ .create type proto) →
      ∀ own, w.os.fds (w.fd b i) = some own → own.owner = some i) : Represents b w' j s := by
  have hsock := he.sock_of_ne hj
  refine h.congr (by rw [hsock]) (by rw [hsock]) (by rw [hsock]) (fun d desc howner hd => ?_)
    fun d hown => he.tableStep.owns_of_ne hj hown
  refine he.tableStep.foreign hd fun huses own hown => ?_
  rw [hfd huses own hown, howner]
  exact fun h => hj (Option.some.inj h).symm

/-! ## One operation -/

/-- A creation adds at most the descriptor in `sock->fd` to those of its
socket. -/
theorem SockEffect.create_owns {type proto : UInt32}
    (h : SockEffect b a i w (.create type proto) r w') {x : Int64} (hown : w'.os.Owns i x) :
    x = (w'.socks i).fd ∨ w.os.Owns i x := by
  cases h.holding with
  | keep owns _ _ => exact Or.inr ((owns i x).mp hown)
  | acquire owns fd _ => exact ((owns i x).mp hown).imp_left fun h => h.2.trans fd.symm

omit [DecidableEq ι] in
/-- An idle socket that has acquired a descriptor is open without a name. -/
theorem Represents.acquire (desc : Desc ι) (hs : Represents b w i .idle)
    (hd : b.platform.isDescriptor (w'.socks i).fd = true)
    (hstate : (w'.socks i).state = SlSockState.created.val)
    (hflags : (w'.socks i).flags = flagsOf b.platform desc.domain false)
    (hfound : w'.os.fds (w'.socks i).fd = some desc) (howner : desc.owner = some i)
    (hbinds : desc.binds = []) (hmode : desc.nonblocking b.platform = false)
    (hdual : desc.domain = b.platform.afInet6 → desc.v6only = false)
    (howns : ∀ x, w'.os.Owns i x → x = (w'.socks i).fd ∨ w.os.Owns i x) :
    Represents b w' i (.opened none false) := by
  have hfd : w'.fd b i = (w'.socks i).fd := Platform.sockType_of_isDescriptor hd
  cases hs with
  | idle _ _ unowned =>
      exact .opened {
        state := hstate
        found := hfd ▸ hfound
        owner := howner
        alone := fun x hown => ((howns x hown).resolve_right (unowned x)).trans hfd.symm
        binds := hbinds
        flags := hflags
        mode := hmode
        dual := hdual }

/-- Creation leaves an idle socket idle, or open without a name. -/
theorem SockEffect.represents_create {type proto : UInt32} (hs : Represents b w i .idle)
    (hhalf : ¬w.OptionRefused b a i) (h : SockEffect b a i w (.create type proto) r w') :
    (r = slErr ∧ Represents b w' i .idle) ∨
      (r = slOk ∧ Represents b w' i (.opened none false)) := by
  have hflags : (w.socks i).flags = 0 := by
    cases hs with
    | idle _ flags _ => exact flags
  have hblocks := World.freshDesc_nonblocking (b := b) (a := a) (i := i) (w := w) type proto
  have howns := fun x => h.create_owns (x := x)
  cases h with
  | createRefused _ => exact Or.inl ⟨rfl, hs.of_same (by simp) (by simp) (by simp) rfl⟩
  | createHalf hd h6 ho => exact absurd ⟨h6, ⟨_, hd⟩, ⟨_, ho⟩⟩ hhalf
  | createV6 hd h6 ho =>
      have hdomain : (w.socks i).endpoint.af b.platform = b.platform.afInet6 := beq_iff_eq.mp h6
      refine Or.inr ⟨rfl, hs.acquire { w.freshDesc b a i type proto with v6only := false }
        ?_ (by simp) ?_ (by simp) rfl rfl hblocks (fun _ => rfl) howns⟩
      · simpa using (Os.onSocket_ok hd).1
      · simp [flagsOf, modeFlags, hflags, World.freshDesc, Desc.fresh, hdomain]
        decide
  | createOther hd h6 =>
      have hdomain : (w.socks i).endpoint.af b.platform ≠ b.platform.afInet6 := by
        simpa [World.isV6, SlEndpoint.isIpv6] using h6
      refine Or.inr ⟨rfl, hs.acquire (w.freshDesc b a i type proto) ?_ (by simp) ?_
        (by simp) rfl rfl hblocks (fun h => absurd h hdomain) howns⟩
      · simpa using (Os.onSocket_ok hd).1
      · simp [flagsOf, modeFlags, hflags, World.freshDesc, Desc.fresh, hdomain]
  | refused hc _ => simp [SockOp.decisive] at hc

/-- No other operation adds a descriptor. -/
theorem SockEffect.owns_of_owns (hcreate : ∀ type proto, op ≠ .create type proto)
    (h : SockEffect b a i w op r w') {x : Int64} (hown : w'.os.Owns j x) : w.os.Owns j x := by
  cases h.holding with
  | keep owns _ _ => exact (owns j x).mp hown
  | acquire _ _ _ => exact absurd rfl (hcreate _ _)
  | release _ owns _ _ => exact ((owns j x).mp hown).2

omit [DecidableEq ι] in
/-- On an open descriptor the system's own answer decides. -/
theorem refusedWith_onDesc_of_found {β : Type} {os : Os ι} {fd : Int64} {d : Desc ι}
    (hd : os.fds fd = some d) (answer : Except Int32 β) :
    refusedWith (os.onDesc fd answer) = refusedWith answer := by
  simp only [Os.onDesc, hd]
  cases answer <;> rfl

/-- Binding names a socket that is open without a name, or leaves it so. -/
theorem SockEffect.represents_bind (hs : Represents b w i (.opened none m))
    (h : SockEffect b a i w .bind r w') :
    w'.os.log = w.os.log ++
        [⟨.bind (w.fd b i) (w.ownName b i).1 (w.ownName b i).2, a.bind.map fun _ => 0⟩] ∧
      Represents b w' i (.opened (if a.bind.isOk then some (w.ownName b i) else none) m) := by
  have howns : ∀ x, w'.os.Owns i x → w.os.Owns i x := fun x =>
    h.owns_of_owns fun type proto => SockOp.bind_ne_create type proto
  cases hs with
  | opened on =>
      cases h with
      | refused hc hr =>
          obtain rfl := Option.some.inj hc
          have ha := refusedWith_eq_some.mp ((refusedWith_onDesc_of_found on.found _).symm.trans hr)
          have hs : Represents b w i (.opened none m) := .opened on
          refine ⟨by rw [ha]; rfl, ?_⟩
          rw [ha]
          exact hs.of_same (by simp) (by simp) (by simp) (by simp)
      | @bindDone _ d hc hd ha =>
          obtain rfl := Option.some.inj hc
          obtain rfl := Option.some.inj (hd.symm.trans on.found)
          refine ⟨by rw [ha]; rfl, ?_⟩
          rw [ha]
          refine @Represents.opened _ _ _ _ { d with binds := d.binds ++ [w.ownName b i] } _ _ {
            state := by simp [Except.isOk, Except.toBool]
            found := by simp
            owner := on.owner
            alone := fun x hown => (on.alone x (howns x hown)).trans (by simp)
            binds := by simp [on.binds, Except.isOk, Except.toBool]
            flags := by simpa using on.flags
            mode := on.mode
            dual := on.dual }

omit [DecidableEq ι] in
/-- A socket that finds a descriptor it owns is open on it. -/
theorem Represents.openOn {d : Desc ι} (hs : Represents b w i s)
    (howned : w.os.fds (w.fd b i) ≠ none → w.os.Owns i (w.fd b i))
    (hd : w.os.fds (w.fd b i) = some d) : ∃ name m, s = .opened name m ∧ OpenOn b w i d name m := by
  cases hs with
  | idle _ _ unowned => exact absurd (howned (by simp [hd])) (unowned _)
  | @opened desc name m on =>
      obtain rfl := Option.some.inj (hd.symm.trans on.found)
      exact ⟨name, m, rfl, on⟩

/-- A successful close leaves the socket idle. -/
theorem OpenOn.close (on : OpenOn b w i desc name m)
    (h : SockEffect b a i w .close r w') (hr : r ≠ slErr) : Represents b w' i .idle := by
  cases h with
  | refused _ _ => exact absurd rfl hr
  | closeDone _ _ _ =>
      refine .idle ⟨by simp, Or.inr (by simp)⟩ (by simp) fun x hown => ?_
      obtain ⟨hne, hown⟩ := (World.owns_setDesc_none (w := w)).mp hown
      exact hne (on.alone x hown)

/-- A successful switch sets the mode. -/
theorem OpenOn.switch {m' : Bool} (on : OpenOn b w i desc name m)
    (h : SockEffect b a i w (.mode m') r w') (hr : r ≠ slErr) :
    Represents b w' i (.opened name m') := by
  have howns : ∀ x, w'.os.Owns i x → w.os.Owns i x := fun x =>
    h.owns_of_owns (by simp)
  cases h with
  | refused _ _ => exact absurd rfl hr
  | @modeDone _ _ d _ hd _ =>
      obtain rfl := Option.some.inj (hd.symm.trans on.found)
      have hrest : (w.modeDesc b a i m' d).binds = d.binds ∧
          (w.modeDesc b a i m' d).domain = d.domain ∧
          (w.modeDesc b a i m' d).v6only = d.v6only := by
        unfold World.modeDesc
        split <;> exact ⟨rfl, rfl, rfl⟩
      obtain ⟨hbinds, hdomain, hv6only⟩ := hrest
      refine @Represents.opened _ _ _ _ (w.modeDesc b a i m' d) _ _ {
        state := by simpa using on.state
        found := by simp
        owner := (World.modeDesc_owner m' d).trans on.owner
        alone := fun x hown => (on.alone x (howns x hown)).trans (by simp)
        binds := hbinds.trans on.binds
        flags := by simp [on.flags, modeFlags_flagsOf, hdomain]
        mode := World.modeDesc_nonblocking m' d
        dual := fun h => hv6only.trans (on.dual (hdomain.symm.trans h)) }

/-- What a call other than open does to its socket. -/
theorem SockEffect.represents_op (hb : b.asserts = true) (hbind : op ≠ .bind)
    (hcreate : ∀ type proto, op ≠ .create type proto) (hready : op.Ready b (w.socks i))
    (hs : Represents b w i s) (howned : w.os.fds (w.fd b i) ≠ none → w.os.Owns i (w.fd b i))
    (h : SockEffect b a i w op r w') :
    ∃ s', Represents b w' i s' ∧ Follows s (if r = slErr then none else op.act) s' := by
  cases h with
  | createRefused | createHalf | createV6 | createOther => exact absurd rfl (hcreate _ _)
  | bindDone => exact absurd rfl hbind
  | refused _ _ =>
      exact ⟨s, hs.of_same (by simp) (by simp) (by simp) (by simp), by simp [Follows]⟩
  | closeDone hc hd ha =>
      obtain ⟨name, m, rfl, on⟩ := hs.openOn howned hd
      refine ⟨.idle, on.close (.closeDone hc hd ha) slOk_ne_slErr, ?_⟩
      rw [if_neg slOk_ne_slErr]
      exact .closed name m
  | @modeDone m' _ _ hc hd ha =>
      obtain ⟨name, m, rfl, on⟩ := hs.openOn howned hd
      refine ⟨.opened name m', on.switch (.modeDone hc hd ha) slOk_ne_slErr, ?_⟩
      rw [if_neg slOk_ne_slErr]
      exact .switched name m m'
  | @sendDone _ _ _ _ _ n _ _ _ =>
      obtain ⟨name, m, rfl⟩ := hs.name_of_bound (hready.2 hb).2.2
      refine ⟨.opened (some name) m, hs.of_same rfl rfl rfl rfl, ?_⟩
      rw [if_neg (transferred_ne_slErr n.isLt)]
      exact .transferred name m
  | @recvDone _ _ _ _ _ dg _ _ _ =>
      obtain ⟨name, m, rfl⟩ := hs.name_of_bound (hready hb).2.2.2
      refine ⟨.opened (some name) m, hs.of_same (by simp) (by simp) (by simp) (by simp), ?_⟩
      rw [if_neg (transferred_ne_slErr (by have := dg.payload_lt; omega))]
      exact .transferred name m

end Phases

/-! ## Sessions -/

section Sessions

variable {b : Build} {a : Answers} {i j : ι} {w w' : World ι} {s : Spec.Phase Name}

/-- A call does not trespass, and is not refused `IPV6_V6ONLY` where it opens a
socket. -/
def Proper (b : Build) (w : World ι) (e : Step ι (Call ι)) : Prop :=
  ¬Trespasses b w e ∧ ¬HalfOpened b w e

omit [DecidableEq ι] in
/-- An open of a socket that is not IPv6 is proper. -/
theorem Proper.of_open (h4 : w.isV6 b i = false) : Proper b w ⟨i, .socketOpen, a⟩ := by
  refine ⟨not_trespasses_open rfl, ?_⟩
  rintro ⟨_, h6, _⟩
  exact nomatch h4.symm.trans h6

omit [DecidableEq ι] in
/-- Another call is, on a descriptor of the socket's own. -/
theorem Proper.of_owns {e : Step ι (Call ι)} (hcall : e.call ≠ .socketOpen)
    (hown : w.os.Owns e.sock (w.fd b e.sock)) : Proper b w e :=
  ⟨not_trespasses_of_owns hown, fun hhalf => hcall hhalf.1⟩

theorem Event.opening_bind (fd : Int64) (name : Name) (result : Except Int32 Int64) :
    Event.opening ⟨.bind fd name.1 name.2, result⟩ =
      some (if result.isOk then .bound name else .unnamed) := by
  cases result <;> rfl

/-- A creation that is refused makes no system call but `socket()`. -/
theorem SockEffect.log_createRefused {type proto : UInt32} {r : Int32}
    (hhalf : ¬w.OptionRefused b a i) (hr : r = slErr) (hlog : w.os.log = [])
    (h : SockEffect b a i w (.create type proto) r w') :
    w'.os.log.getLast?.bind Event.opening = none := by
  cases h with
  | createRefused _ => simp [hlog, Event.opening]
  | createHalf hd h6 ho => exact absurd ⟨h6, ⟨_, hd⟩, ⟨_, ho⟩⟩ hhalf
  | createV6 _ _ _ => exact absurd hr slOk_ne_slErr
  | createOther _ _ => exact absurd hr slOk_ne_slErr
  | refused hc _ => simp [SockOp.decisive] at hc

/-- What an open does to its socket. -/
theorem CallEffect.represents_open {r : Int32} (hb : b.asserts = true) (hlog : w.os.log = [])
    (hhalf : ¬w.OptionRefused b a i) (hs : Represents b w i s)
    (h : CallEffect b a i w .socketOpen r w') :
    ∃ s', Represents b w' i s' ∧ Follows s (w'.os.log.getLast?.bind Event.opening) s' := by
  cases h with
  | guarded hnull => simp [Call.hasNull] at hnull
  | notCreated hready he hr =>
      obtain rfl := hs.idle_of_ready hb hready
      have hidle := (he.represents_create hs hhalf).resolve_right fun h =>
        slOk_ne_slErr (h.1.symm.trans hr)
      exact ⟨.idle, hidle.2, by rw [he.log_createRefused hhalf hr hlog]; rfl⟩
  | created hready hc hr he =>
      obtain rfl := hs.idle_of_ready hb hready
      have hopen := (hc.represents_create hs hhalf).resolve_left fun h =>
        slOk_ne_slErr (hr.symm.trans h.1)
      obtain ⟨hlast, hs'⟩ := he.represents_bind hopen.2
      refine ⟨_, hs', ?_⟩
      rw [hlast, List.getLast?_concat, Option.bind_some, Event.opening_bind]
      cases a.bind with
      | error e => exact .unnamed
      | ok v => exact .bound _
  | op hop _ _ _ => simp [Call.op] at hop

/-- A call leaves the phases of the other sockets alone. -/
theorem CallEffect.represents_frame {call : Call ι} {r : Int32} {t : Spec.Phase Name}
    (hb : b.asserts = true) (hj : j ≠ i) (hhalf : call = .socketOpen → ¬w.OptionRefused b a i)
    (hs : Represents b w i s) (ht : Represents b w j t)
    (howned : ∀ op, call.op = some op → call.hasNull = false →
      w.os.fds (w.fd b i) ≠ none → w.os.Owns i (w.fd b i))
    (h : CallEffect b a i w call r w') : Represents b w' j t := by
  cases h with
  | guarded _ => exact ht
  | notCreated _ he _ => exact ht.frame hj he fun huses => absurd rfl (huses _ _)
  | created hready hc hr he =>
      obtain rfl := hs.idle_of_ready hb hready
      have hopen := (hc.represents_create hs (hhalf rfl)).resolve_left fun h =>
        slOk_ne_slErr (hr.symm.trans h.1)
      refine (ht.frame hj hc fun huses => absurd rfl (huses _ _)).frame hj he fun _ own hown => ?_
      cases hopen.2 with
      | opened on =>
          obtain rfl := Option.some.inj (hown.symm.trans on.found)
          exact on.owner
  | op hop hnull _ he =>
      refine ht.frame hj he fun _ own hown => ?_
      obtain ⟨desc, hd, howner⟩ := howned _ hop hnull (by simp [hown])
      obtain rfl := Option.some.inj (hown.symm.trans hd)
      exact howner

/-- What a call does to its socket. -/
theorem CallEffect.represents {call : Call ι} {r : Int32} (hb : b.asserts = true)
    (hlog : w.os.log = []) (hhalf : call = .socketOpen → ¬w.OptionRefused b a i)
    (hs : Represents b w i s)
    (howned : ∀ op, call.op = some op → call.hasNull = false →
      w.os.fds (w.fd b i) ≠ none → w.os.Owns i (w.fd b i))
    (h : CallEffect b a i w call r w') :
    ∃ s', Represents b w' i s' ∧ Follows s (call.act ⟨r, w'.os.log⟩) s' := by
  cases hop : call.op with
  | none =>
      obtain rfl : call = .socketOpen := by cases call <;> simp [Call.op] at hop ⊢
      exact h.represents_open hb hlog (hhalf rfl) hs
  | some op =>
      obtain ⟨hbind, hcreate⟩ := Call.op_ne hop
      simp only [Call.act, hop]
      cases h with
      | guarded _ => exact ⟨s, hs, by simp [Follows]⟩
      | notCreated _ _ _ => simp [Call.op] at hop
      | created _ _ _ _ => simp [Call.op] at hop
      | op hop' hnull hready he =>
          obtain rfl := Option.some.inj (hop.symm.trans hop')
          exact he.represents_op hb hbind hcreate hready hs (howned _ hop hnull)

/-- What a step does to the phases. -/
theorem pluginStep_represents {e : Step ι (Call ι)} {o : Outcome} {t : ι → Spec.Phase Name}
    (hb : b.asserts = true) (ht : ∀ j, Represents b w j (t j))
    (h : pluginStep b w e = some (o, w')) (hproper : Proper b w e) :
    ∃ s', Follows (t e.sock) (e.call.act o) s' ∧
      ∀ j, Represents b w' j (Function.update t e.sock s' j) := by
  obtain ⟨he, hlog⟩ := pluginStep_iff.mp h
  have ht₀ : ∀ j, Represents b w.clearLog j (t j) := fun j => (ht j).of_same rfl rfl rfl rfl
  have howned : ∀ op, e.call.op = some op → e.call.hasNull = false →
      w.clearLog.os.fds (w.clearLog.fd b e.sock) ≠ none →
        w.clearLog.os.Owns e.sock (w.clearLog.fd b e.sock) :=
    fun op hop hnull hopened => owned_of_not_trespasses hop hnull hproper.1 hopened
  have hhalf : e.call = .socketOpen → ¬w.clearLog.OptionRefused b e.answers e.sock :=
    fun hcall href => hproper.2 ⟨hcall, href⟩
  obtain ⟨s', hs', hfollows⟩ := he.represents hb rfl hhalf (ht₀ e.sock) howned
  rw [← hlog] at hfollows
  refine ⟨s', hfollows, fun j => ?_⟩
  by_cases hj : j = e.sock
  · subst hj
    rwa [Function.update_self]
  · rw [Function.update_of_ne hj]
    exact he.represents_frame hb hj hhalf (ht₀ e.sock) (ht₀ j) howned

omit [DecidableEq ι] in
/-- Before the first call every socket is idle. -/
theorem Represents.start (b : Build) (w : World ι) (endpoint : ι → SlEndpoint) (j : ι) :
    Represents b (w.start endpoint) j .idle := by
  refine .idle ⟨rfl, Or.inl rfl⟩ rfl ?_
  rintro d ⟨desc, hd, howner⟩
  obtain ⟨x, _, rfl⟩ := Option.map_eq_some_iff.mp hd
  exact nomatch howner

/-- The paths and phases of a session of proper calls. -/
theorem exists_path (p : Platform) (w : World ι) (endpoint : ι → SlEndpoint)
    {steps : List (Step ι (Call ι))} {outcomes : List Outcome} {v : World ι}
    (hproper : Along (pluginStep ⟨true, p⟩) (fun w e _ _ => Proper ⟨true, p⟩ w e)
      (w.start endpoint) steps)
    (hrun : exec (pluginStep ⟨true, p⟩) (w.start endpoint) steps = some (outcomes, v)) :
    ∃ t, Path Spec.Step (fun _ => Spec.Phase.idle) (writes Step.act steps outcomes) t ∧
      ∀ j, Represents ⟨true, p⟩ v j (t j) := by
  refine exec_simulates
    (R := fun w (t : ι → Spec.Phase Name) => ∀ j, Represents ⟨true, p⟩ w j (t j))
    (fun w e o w' t ht h hC hsilent => ?_) (fun w e o w' t x ht h hC hshown => ?_)
    (fun j => .start _ w endpoint j) hproper hrun
  · obtain ⟨s', hfollows, ht'⟩ := pluginStep_represents rfl ht h hC
    have hact : e.call.act o = none := Option.map_eq_none_iff.mp hsilent
    rw [hact] at hfollows
    obtain rfl : s' = t e.sock := hfollows
    simpa using ht'
  · obtain ⟨s', hfollows, ht'⟩ := pluginStep_represents rfl ht h hC
    obtain ⟨y, hact, rfl⟩ := Option.map_eq_some_iff.mp hshown
    rw [hact] at hfollows
    refine ⟨_, ⟨?_, fun j hj => Function.update_of_ne hj _ _⟩, ht'⟩
    rw [Function.update_self]
    exact hfollows

/-! ### A session of two sockets -/

/-- Both sockets are opened, one is switched, sends to the other, is closed and
opened again without a name. -/
def tour : List (Step Bool (Call Bool)) :=
  [⟨true, .socketOpen, Answers.granting 3⟩,
    ⟨false, .socketOpen, Answers.granting 4⟩,
    ⟨true, .socketNonblocking 1, Answers.granting 3⟩,
    ⟨true, .socketSend (some [⟨64, 2⟩]) 1 (.ofSock false), Answers.granting 3⟩,
    ⟨true, .socketClose, Answers.granting 3⟩,
    ⟨true, .socketOpen, { Answers.granting 3 with bind := .error 98 }⟩]

theorem tour_proper :
    Along (pluginStep ⟨true, .posix⟩) (fun w e _ _ => Proper ⟨true, .posix⟩ w e)
      (World.pair.start fun _ => anyEndpoint 2) tour := by
  refine (along_cons_iff rfl).mpr ⟨.of_open rfl, ?_⟩
  refine (along_cons_iff rfl).mpr ⟨.of_open rfl, ?_⟩
  refine (along_cons_iff rfl).mpr ⟨.of_owns (fun h => nomatch h) ⟨_, rfl, rfl⟩, ?_⟩
  refine (along_cons_iff rfl).mpr ⟨.of_owns (fun h => nomatch h) ⟨_, rfl, rfl⟩, ?_⟩
  refine (along_cons_iff rfl).mpr ⟨.of_owns (fun h => nomatch h) ⟨_, rfl, rfl⟩, ?_⟩
  exact (along_cons_iff rfl).mpr ⟨.of_open rfl, trivial⟩

/-! ### The theorem -/

omit [DecidableEq ι] in
/-- The world determines the phases. -/
theorem Represents.unique {s' : Spec.Phase Name} (h : Represents b w j s)
    (h' : Represents b w j s') : s = s' := by
  have hopen := h.isOpen_iff.symm.trans h'.isOpen_iff
  cases h with
  | idle _ _ _ => exact (Classical.not_not.mp fun hs' => hopen.mpr hs' rfl).symm
  | opened on =>
      cases h' with
      | idle _ _ _ => exact absurd rfl (hopen.mp (by simp))
      | opened on' =>
          obtain rfl := Option.some.inj (on.found.symm.trans on'.found)
          have hname := congrArg List.head? (on.binds.symm.trans on'.binds)
          rw [Option.head?_toList, Option.head?_toList] at hname
          rw [← on.mode, ← on'.mode, hname]

/--
**Refinement.**  In a build with assertions, on every platform, for any number
of sockets, any interleaving of their calls and any answers: a session of
proper calls moves the sockets, from all idle, as the specification allows, by
the acts the calls show, and ends in the phases that its fields and descriptors
say.
-/
theorem refines (p : Platform) (w : World ι) (endpoint : ι → SlEndpoint)
    {steps : List (Step ι (Call ι))} {outcomes : List Outcome} {v : World ι}
    (hproper : Along (pluginStep ⟨true, p⟩) (fun w e _ _ => Proper ⟨true, p⟩ w e)
      (w.start endpoint) steps)
    (hrun : exec (pluginStep ⟨true, p⟩) (w.start endpoint) steps = some (outcomes, v)) :
    ∃! t, Path Spec.Step (fun _ => Spec.Phase.idle) (writes Step.act steps outcomes) t ∧
      ∀ j, Represents ⟨true, p⟩ v j (t j) := by
  obtain ⟨t, hpath, ht⟩ := exists_path p w endpoint hproper hrun
  exact ⟨t, ⟨hpath, ht⟩, fun t' ht' => funext fun j => (ht'.2 j).unique (ht j)⟩

/-- The theorem at the tour. -/
theorem refines_tour :
    ∃ outcomes v, exec (pluginStep ⟨true, .posix⟩) (World.pair.start fun _ => anyEndpoint 2)
        tour = some (outcomes, v) ∧
      ∃! t, Path Spec.Step (fun _ => Spec.Phase.idle) (writes Step.act tour outcomes) t ∧
        ∀ j, Represents ⟨true, .posix⟩ v j (t j) :=
  ⟨_, _, rfl, refines .posix World.pair (fun _ => anyEndpoint 2) tour_proper rfl⟩

/-! ## What the specification says of the library -/

instance (w : World ι) (j : ι) : Decidable (w.IsOpen j) := inferInstanceAs (Decidable (_ ∨ _))

/-- The acts of socket `i` in a session. -/
def actsOf (i : ι) (steps : List (Step ι (Call ι))) (outcomes : List Outcome) :
    List (Spec.Act Name) :=
  Spec.actsOf i (writes Step.act steps outcomes)

/-- The mode that the acts of a socket leave it in. -/
def lastModeOf (acts : List (Spec.Act Name)) : Bool :=
  (acts.filterMap Spec.Act.mode).getLast?.getD false

/-- The name that the acts of a socket leave it with. -/
def lastNameOf (acts : List (Spec.Act Name)) : Option Name :=
  (acts.filterMap Spec.Act.name).getLast?.getD none

/--
**Mode and name of an open socket.**  Whatever a session of proper calls did
before: the descriptor of an open socket is the socket's own, it blocks or not
as the last of the socket's acts on its mode asked for, where opening and
closing ask for blocking, the flag says the same, and the descriptor is bound to
the one name that its opening gave it, or to none.
-/
theorem lifetime (p : Platform) (w : World ι) (endpoint : ι → SlEndpoint)
    {steps : List (Step ι (Call ι))} {outcomes : List Outcome} {v : World ι}
    (hproper : Along (pluginStep ⟨true, p⟩) (fun w e _ _ => Proper ⟨true, p⟩ w e)
      (w.start endpoint) steps)
    (hrun : exec (pluginStep ⟨true, p⟩) (w.start endpoint) steps = some (outcomes, v)) (i : ι)
    (hopen : v.IsOpen i) :
    ∃ desc, v.os.fds (v.fd ⟨true, p⟩ i) = some desc ∧ desc.owner = some i ∧
      desc.nonblocking p = lastModeOf (actsOf i steps outcomes) ∧
      (v.socks i).hasFlag .nonblocking = lastModeOf (actsOf i steps outcomes) ∧
      desc.binds = (lastNameOf (actsOf i steps outcomes)).toList := by
  obtain ⟨t, hpath, ht⟩ := exists_path p w endpoint hproper hrun
  have hmode := Spec.path_mode i hpath
  have hname := Spec.path_name i hpath
  have hne := (ht i).isOpen_iff.mp hopen
  cases hphase : t i with
  | idle => exact absurd hphase hne
  | opened name m =>
      have hi := ht i
      rw [hphase] at hi hmode hname
      obtain rfl : m = _ := hmode
      obtain rfl : name = _ := hname
      cases hi with
      | opened on =>
          refine ⟨_, on.found, on.owner, on.mode, ?_, on.binds⟩
          rw [SlSock.hasFlag, on.flags]
          exact flagsOf_mask _ _ _

/-- The socket that was switched blocks again and has no name. -/
theorem lifetime_tour :
    ∃ outcomes v, exec (pluginStep ⟨true, .posix⟩) (World.pair.start fun _ => anyEndpoint 2)
        tour = some (outcomes, v) ∧
      lastModeOf (actsOf true tour outcomes) = false ∧
      lastNameOf (actsOf true tour outcomes) = none ∧
      ∃ desc, v.os.fds (v.fd ⟨true, .posix⟩ true) = some desc ∧ desc.owner = some true ∧
        desc.nonblocking .posix = lastModeOf (actsOf true tour outcomes) ∧
        (v.socks true).hasFlag .nonblocking = lastModeOf (actsOf true tour outcomes) ∧
        desc.binds = (lastNameOf (actsOf true tour outcomes)).toList :=
  ⟨_, _, rfl, rfl, rfl, lifetime .posix World.pair (fun _ => anyEndpoint 2) tour_proper rfl true
    (Or.inl rfl)⟩

/--
**The ledger of descriptors.**  In a session of proper calls a socket has opened
as many descriptors as it has closed, and one more exactly while it is CREATED
or BOUND; that one is in `sock->fd`, and the socket owns no other.
-/
theorem ledger (p : Platform) (w : World ι) (endpoint : ι → SlEndpoint)
    {steps : List (Step ι (Call ι))} {outcomes : List Outcome} {v : World ι}
    (hproper : Along (pluginStep ⟨true, p⟩) (fun w e _ _ => Proper ⟨true, p⟩ w e)
      (w.start endpoint) steps)
    (hrun : exec (pluginStep ⟨true, p⟩) (w.start endpoint) steps = some (outcomes, v)) (i : ι) :
    (actsOf i steps outcomes).countP Spec.Act.opens =
        (actsOf i steps outcomes).countP Spec.Act.closes + (if v.IsOpen i then 1 else 0) ∧
      ∀ d, v.os.Owns i d ↔ v.IsOpen i ∧ d = v.fd ⟨true, p⟩ i := by
  obtain ⟨t, hpath, ht⟩ := exists_path p w endpoint hproper hrun
  have hbalance := Spec.path_balance i hpath
  have hopen := (ht i).isOpen_iff
  have hi := ht i
  cases hphase : t i with
  | idle =>
      rw [hphase] at hi hopen hbalance
      have hclosed : ¬v.IsOpen i := fun h => hopen.mp h rfl
      cases hi with
      | idle _ _ unowned =>
          refine ⟨?_, fun d => iff_of_false (unowned d) fun h => hclosed h.1⟩
          simpa [Spec.Phase.held, hclosed, actsOf] using hbalance
  | opened name m =>
      rw [hphase] at hi hopen hbalance
      have hopen : v.IsOpen i := hopen.mpr (by simp)
      cases hi with
      | opened on =>
          refine ⟨?_, fun d => ⟨fun hown => ⟨hopen, on.alone d hown⟩, ?_⟩⟩
          · simpa [Spec.Phase.held, hopen, actsOf] using hbalance
          · rintro ⟨_, rfl⟩
            exact ⟨_, on.found, on.owner⟩

/-- It was opened twice and closed once. -/
theorem ledger_tour :
    ∃ outcomes v, exec (pluginStep ⟨true, .posix⟩) (World.pair.start fun _ => anyEndpoint 2)
        tour = some (outcomes, v) ∧
      (actsOf true tour outcomes).countP Spec.Act.opens = 2 ∧
      ((actsOf true tour outcomes).countP Spec.Act.opens =
          (actsOf true tour outcomes).countP Spec.Act.closes + (if v.IsOpen true then 1 else 0) ∧
        ∀ d, v.os.Owns true d ↔ v.IsOpen true ∧ d = v.fd ⟨true, .posix⟩ true) :=
  ⟨_, _, rfl, rfl, ledger .posix World.pair (fun _ => anyEndpoint 2) tour_proper rfl true⟩

end Sessions

end SockLynx
