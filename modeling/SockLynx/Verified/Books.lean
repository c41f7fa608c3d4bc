import SockLynx.Model.Api
import SockLynx.Verified.Entries
import SockLynx.Verified.ManagedLayout
import SockLynx.Verified.Refinement

/-!
# Books kept from replies

Managed code is told little: a `bool`, or the number of bytes.  A caller that
writes down, for every context, whether it is started, and for every socket,
whether it is bound and in which mode, from nothing but the calls that returned
true, keeps true books: the shared structs say the same, and so does the kernel.

## Main results

* `SysEffect.started_iff` — what a start-up or shut-down enters.
* `CallEffect.page` — what a call enters on the page of its socket.
* `books_right` — the books are right after every call.
-/

namespace SockLynx

open SockLynx.Lib.Layout
open SockLynx.Lib.Runs
open SockLynx.Managed

variable {ι : Type} [DecidableEq ι]

/-! ## The books -/

/-- What the books say of a socket. -/
structure Page where
  bound : Bool
  nonblocking : Bool
  deriving DecidableEq, Repr

/-- The books of a caller. -/
structure Books (ι : Type) where
  started : ι → Bool
  page : ι → Page

/-- Nothing is started, and no socket is bound. -/
def Books.blank : Books ι where
  started _ := false
  page _ := ⟨false, false⟩

/-- Enter a call that returned true. -/
def Books.enter (s : Books ι) (call : ApiCall ι) (reply : Reply) : Books ι :=
  if reply = .bool true then
    match call with
    | .setup (some i) => { s with started := Function.update s.started i true }
    | .cleanup (some i) => { s with started := Function.update s.started i false }
    | .socketOpen (some i) => { s with page := Function.update s.page i ⟨true, false⟩ }
    | .socketClose (some i) => { s with page := Function.update s.page i ⟨false, false⟩ }
    | .socketNonBlocking (some i) enabled =>
        { s with page := Function.update s.page i { s.page i with nonblocking := enabled } }
    | _ => s
  else s

/-- The process and the books. -/
structure Kept (ι : Type) where
  world : World ι
  books : Books ι

/-- A call, and its entry. -/
def bookStep (b : Build) (s : Kept ι) (e : ApiEntry ι) : Option (Reply × Kept ι) :=
  match apiStep b s.world e with
  | none => none
  | some (reply, w') => some (reply, ⟨w', s.books.enter e.call reply⟩)

/-- The call of the plugin behind a call of a socket is proper. -/
def ApiEntry.Proper (b : Build) (w : World ι) (e : ApiEntry ι) : Prop :=
  ∀ i call, e.call.native = .socket (some i) call → SockLynx.Proper b w ⟨i, call, e.answers⟩

/-- The page of socket `i` is right: managed code that reads the struct finds
the same, and where the socket is bound, so does the kernel. -/
structure Page.Right (b : Build) (w : World ι) (i : ι) (page : Page) : Prop where
  state : ∀ sock, Socket.state ((w.socks i).save sock) = socketStateBound ↔ page.bound = true
  flag : ∀ sock, Socket.hasFlag ((w.socks i).save sock) socketFlagsNonBlocking = page.nonblocking
  desc : page.bound = true → ∃ desc, w.os.fds (w.fd b i) = some desc ∧ desc.owner = some i ∧
    desc.nonblocking b.platform = page.nonblocking

/-- The books are right: the contexts are initialized that are booked as
started, with the platform's families, and every page is right. -/
structure Books.Right (b : Build) (w : World ι) (s : Books ι) : Prop where
  started : ∀ i ctx, Context.initialized ((w.ctxs i).save ctx) = s.started i
  families : ∀ i ctx, s.started i = true →
    Context.afInet ((w.ctxs i).save ctx) = b.platform.afInet ∧
      Context.afInet6 ((w.ctxs i).save ctx) = b.platform.afInet6
  pages : ∀ i, (s.page i).Right b w i

/-! ## Contexts -/

section Contexts

variable {b : Build} {a : Answers} {i : ι} {w w' : World ι} {call : SysCall} {r : Int32}

/-- A call of `sys.h` on a context leaves the descriptors alone. -/
theorem SysEffect.fds (h : SysEffect b a i w call r w') : w'.os.fds = w.os.fds := by
  cases h with
  | already _ => rfl
  | called _ => cases call <;> simp only [SysCall.kernel] <;> split <;> rfl

/-- A context is STARTED as the last successful call made it. -/
theorem SysEffect.started_iff (h : SysEffect b a i w call r w') :
    (w'.ctxs i).state = slSysStateStarted ↔
      if r = slOk then call.target = slSysStateStarted
      else (w.ctxs i).state = slSysStateStarted := by
  obtain ⟨hok, hfailed⟩ := h.state
  by_cases hr : r = slOk
  · rw [if_pos hr, hok.mp hr]
  · rw [if_neg hr, hfailed hr]

omit [DecidableEq ι] in
theorem SockOp.prelude_ctxs {op : SockOp ι} : (op.prelude b a i w).ctxs = w.ctxs := by
  unfold SockOp.prelude
  split
  · split <;> rfl
  · rfl

/-- An operation on a socket leaves the contexts alone. -/
theorem SockEffect.ctxs {op : SockOp ι} (h : SockEffect b a i w op r w') : w'.ctxs = w.ctxs := by
  cases h with
  | createRefused | createHalf | createV6 | createOther | bindDone | closeDone | sendDone => rfl
  | refused | modeDone => exact SockOp.prelude_ctxs
  | @recvDone _ _ endpoint => cases endpoint <;> rfl

theorem CallEffect.ctxs {call : Call ι} (h : CallEffect b a i w call r w') : w'.ctxs = w.ctxs := by
  cases h with
  | guarded => rfl
  | notCreated _ hc _ => exact hc.ctxs
  | created _ hc _ hb => exact hb.ctxs.trans hc.ctxs
  | op _ _ _ he => exact he.ctxs

/-- Managed code reads the state where native code stores it. -/
theorem context_save_initialized {s : SlSys}
    (h : s.state = slSysStateStopped ∨ s.state = slSysStateStarted) (v : Context) :
    Context.initialized (s.save v) = decide (s.state = slSysStateStarted) := by
  have hinet : SysField.state ≠ .afInet := by decide
  have hinet6 : SysField.state ≠ .afInet6 := by decide
  have hword : memberWord slSysT (s.save v) .state = s.state.toNat := by
    rw [SlSys.save, memberWord_setMember_of_ne hinet6, memberWord_setMember_of_ne hinet]
    exact memberWord_setMember_self (by decide) s.state.toNat_lt
  have hstate : Context.state (s.save v) = s.state.toInt32 := by
    calc Context.state (s.save v)
        = (UInt32.ofNat (memberWord slSysT (s.save v) .state)).toInt32 := rfl
      _ = s.state.toInt32 := by rw [hword, UInt32.ofNat_toNat]
  rw [Context.initialized, hstate]
  rcases h with h | h <;> rw [h] <;> decide

end Contexts

/-! ## Sockets -/

/-- The page of a socket in this phase. -/
def pageOf (s : Spec.Phase Name) : Page := ⟨s.name.isSome, s.nonblocking⟩

/-- The page after a call returned `r`. -/
def Page.after (page : Page) (r : Int32) : Call ι → Page
  | .socketOpen => if r = slOk then ⟨true, false⟩ else page
  | .socketClose => if r = slOk then ⟨false, false⟩ else page
  | .socketNonblocking enabled =>
      if r = slOk then { page with nonblocking := enabled != 0 } else page
  | .socketSend _ _ _ => page
  | .socketRecv _ _ _ => page

section Sockets

variable {b : Build} {a : Answers} {i : ι} {w w' : World ι} {call : Call ι} {r : Int32}
  {s s' : Spec.Phase Name}

omit [DecidableEq ι] in
/-- A socket is BOUND if it has a name. -/
theorem Represents.bound_iff (h : Represents b w i s) :
    (w.socks i).state = SlSockState.bound.val ↔ s.name.isSome = true := by
  constructor
  · intro hstate
    obtain ⟨name, m, rfl⟩ := h.name_of_bound hstate
    rfl
  · intro hname
    cases h with
    | idle => simp [Spec.Phase.name] at hname
    | @opened _ name _ on =>
        have hname : name.isSome = true := hname
        exact on.state.trans (by rw [hname]; rfl)

omit [DecidableEq ι] in
/-- The flag NONBLOCKING is that of the phase. -/
theorem Represents.flag (h : Represents b w i s) :
    ((w.socks i).flags &&& socketFlagsNonBlocking == socketFlagsNonBlocking) = s.nonblocking := by
  cases h with
  | idle _ flags _ =>
      rw [flags]
      rfl
  | @opened _ _ m on =>
      rw [on.flags, flagsOf]
      show _ = m
      split <;> cases m <;> decide

omit [DecidableEq ι] in
/-- A page that says what the phase says is right. -/
theorem Represents.page_right (h : Represents b w i s) : (pageOf s).Right b w i := by
  refine ⟨fun sock => ?_, fun sock => ?_, fun hbound => ?_⟩
  · rw [(reads_back (w.socks i) sock).state]
    exact h.bound_iff
  · rw [Socket.hasFlag, (reads_back (w.socks i) sock).flags]
    exact h.flag
  · cases h with
    | idle => simp [pageOf, Spec.Phase.name] at hbound
    | opened on => exact ⟨_, on.found, on.owner, on.mode⟩

/-- An open returns `SL_OK` if it leaves its socket BOUND. -/
theorem CallEffect.open_ok_iff (hb : b.asserts = true) (h : CallEffect b a i w .socketOpen r w') :
    r = slOk ↔ (w'.socks i).state = SlSockState.bound.val := by
  cases h with
  | guarded hnull => simp [Call.hasNull] at hnull
  | notCreated hready hc hr =>
      subst hr
      have hstate : (w'.socks i).state = (w.socks i).state := by
        cases hc with
        | createRefused | createHalf => simp
        | refused hc _ => simp [createUdp, SockOp.decisive] at hc
      refine iff_of_false slOk_ne_slErr.symm fun hbound => ?_
      have hclosed := hready hb
      rw [← hstate, hbound] at hclosed
      exact absurd hclosed (by decide)
  | created _ hc hr he =>
      have hcreated := hc.created_state hr
      cases he with
      | refused _ _ =>
          refine iff_of_false slOk_ne_slErr.symm fun hbound => ?_
          rw [World.setSock_self] at hbound
          exact absurd (hcreated.symm.trans hbound) (by decide)
      | bindDone _ _ _ => exact iff_of_true rfl (by simp)
  | op hop _ _ _ => simp [Call.op] at hop

/-- A close or a mode switch returns `SL_OK` or `SL_ERR`. -/
theorem CallEffect.ok_of_ne {op : SockOp ι} (hop : call.op = some op)
    (hkind : op = .close ∨ ∃ m, op = .mode m) (h : CallEffect b a i w call r w')
    (hr : r ≠ slErr) : r = slOk := by
  cases h with
  | guarded _ => exact absurd rfl hr
  | notCreated _ _ _ | created _ _ _ _ => simp [Call.op] at hop
  | op hop' _ _ he =>
      obtain rfl := Option.some.inj (hop.symm.trans hop')
      rcases hkind with rfl | ⟨m, rfl⟩
      · cases he with
        | refused _ _ => exact absurd rfl hr
        | closeDone _ _ _ => rfl
      · cases he with
        | refused _ _ => exact absurd rfl hr
        | modeDone _ _ _ => rfl

omit [DecidableEq ι] in
/-- A call that is one operation is no act if it fails, and that of its operation
otherwise. -/
theorem follows_op {op : SockOp ι} {events : List Event} (hop : call.op = some op)
    (h : Follows s (call.act ⟨r, events⟩) s') :
    r = slErr ∧ s' = s ∨ r ≠ slErr ∧ Follows s op.act s' := by
  have hact : call.act ⟨r, events⟩ = if r = slErr then none else op.act := by rw [Call.act, hop]
  rw [hact] at h
  by_cases hr : r = slErr
  · exact Or.inl ⟨hr, by rwa [if_pos hr] at h⟩
  · exact Or.inr ⟨hr, by rwa [if_neg hr] at h⟩

/-- What an open enters. -/
theorem CallEffect.page_open (hb : b.asserts = true) (hs : Represents b w i s)
    (hs' : Represents b w' i s') (h : CallEffect b a i w .socketOpen r w')
    (hfollows : Follows s ((.socketOpen : Call ι).act ⟨r, w'.os.log⟩) s') :
    pageOf s' = (pageOf s).after r (.socketOpen : Call ι) := by
  have hidle : s = .idle := by
    cases h with
    | guarded hnull => simp [Call.hasNull] at hnull
    | notCreated hready _ _ | created hready _ _ _ => exact hs.idle_of_ready hb hready
    | op hop _ _ _ => simp [Call.op] at hop
  subst hidle
  have hmode : s'.nonblocking = false := by
    generalize Call.act _ _ = x at hfollows
    cases x with
    | none =>
        obtain rfl : s' = .idle := hfollows
        rfl
    | some x => cases hfollows <;> rfl
  have hbound := (h.open_ok_iff hb).trans hs'.bound_iff
  by_cases hr : r = slOk
  · simp [pageOf, Page.after, hr, hmode, hbound.mp hr]
  · have hname : s'.name.isSome = false := by simpa using fun h => hr (hbound.mpr h)
    simp only [pageOf, Page.after, if_neg hr, hmode, hname]
    rfl

/-- What a call enters on the page of its socket. -/
theorem CallEffect.page (hb : b.asserts = true) (hs : Represents b w i s)
    (hs' : Represents b w' i s') (h : CallEffect b a i w call r w')
    (hfollows : Follows s (call.act ⟨r, w'.os.log⟩) s') :
    pageOf s' = (pageOf s).after r call := by
  cases call with
  | socketOpen => exact h.page_open hb hs hs' hfollows
  | socketClose =>
      have hop : (Call.socketClose : Call ι).op = some .close := rfl
      rcases follows_op hop hfollows with ⟨rfl, rfl⟩ | ⟨hr, hmoves⟩
      · simp [Page.after, slOk_ne_slErr.symm]
      · obtain rfl := h.ok_of_ne hop (Or.inl rfl) hr
        cases hmoves
        simp [Page.after, pageOf, Spec.Phase.name, Spec.Phase.nonblocking]
  | socketNonblocking enabled =>
      have hop : (Call.socketNonblocking enabled : Call ι).op = some (.mode (enabled != 0)) := rfl
      rcases follows_op hop hfollows with ⟨rfl, rfl⟩ | ⟨hr, hmoves⟩
      · simp [Page.after, slOk_ne_slErr.symm]
      · obtain rfl := h.ok_of_ne hop (Or.inr ⟨_, rfl⟩) hr
        cases hmoves
        simp [Page.after, pageOf, Spec.Phase.name, Spec.Phase.nonblocking]
  | socketSend buf bufcount endpoint | socketRecv buf bufcount endpoint =>
      rcases follows_op rfl hfollows with ⟨_, rfl⟩ | ⟨_, hmoves⟩
      · rfl
      · cases hmoves
        rfl

end Sockets

/-! ## Sessions -/

section Sessions

variable {b : Build} {w w' : World ι} {s s' : Kept ι} {books : Books ι} {e : ApiEntry ι}
  {reply : Reply}

/-- The invariant: contexts and phases are as booked. -/
structure BooksInv (b : Build) (w : World ι) (books : Books ι) : Prop where
  started : ∀ i, (w.ctxs i).state = slSysStateStarted ↔ books.started i = true
  families : ∀ i, (w.ctxs i).state = slSysStateStarted →
    (w.ctxs i).afInet = b.platform.afInet ∧ (w.ctxs i).afInet6 = b.platform.afInet6
  known : ∀ i, (w.ctxs i).state = slSysStateStopped ∨ (w.ctxs i).state = slSysStateStarted
  phases : ∃ t : ι → Spec.Phase Name, (∀ i, Represents b w i (t i)) ∧
    ∀ i, books.page i = pageOf (t i)

omit [DecidableEq ι] in
theorem BooksInv.start (b : Build) (w : World ι) (endpoint : ι → SlEndpoint) :
    BooksInv b (w.startNetwork.start endpoint) Books.blank := by
  refine ⟨fun i => ?_, fun i h => ?_, fun i => Or.inl rfl, ?_⟩
  · exact iff_of_false slSysStateStarted_ne_stopped.symm (by simp [Books.blank])
  · exact absurd h slSysStateStarted_ne_stopped.symm
  · exact ⟨fun _ => .idle, fun i => .start b _ endpoint i, fun _ => rfl⟩

omit [DecidableEq ι] in
/-- Books that meet the invariant are right. -/
theorem BooksInv.right (h : BooksInv b w books) : books.Right b w := by
  obtain ⟨t, ht, hpage⟩ := h.phases
  refine ⟨fun i ctx => ?_, fun i ctx hstarted => ?_, fun i => ?_⟩
  · rw [context_save_initialized (h.known i), Bool.eq_iff_iff, decide_eq_true_eq]
    exact h.started i
  · obtain ⟨hinet, hinet6⟩ := h.families i ((h.started i).mpr hstarted)
    obtain ⟨hread, hread6⟩ := context_save (w.ctxs i) ctx
    exact ⟨hread.trans hinet, hread6.trans hinet6⟩
  · rw [hpage i]
    exact (ht i).page_right

/-- A start-up or shut-down and its entry keep the invariant. -/
theorem BooksInv.sys {a : Answers} {i : ι} {call : SysCall} {r : Int32} {started : Bool}
    (hI : BooksInv b w books) (htarget : call.target = slSysStateStarted ↔ started = true)
    (h : SysEffect b a i w call r w') :
    BooksInv b w' (if r = slOk then
      { books with started := Function.update books.started i started } else books) := by
  have hcontext := h.context (hI.families i) (hI.known i)
  obtain ⟨t, ht, hpage⟩ := hI.phases
  refine ⟨fun j => ?_, fun j => ?_, fun j => ?_, t, fun j => ?_, fun j => ?_⟩
  · by_cases hj : j = i
    · subst hj
      rw [h.started_iff]
      by_cases hr : r = slOk
      · simp [hr, htarget]
      · simp [hr, hI.started j]
    · rw [h.ctx_of_ne hj, hI.started j]
      by_cases hr : r = slOk <;> simp [hr, hj]
  · by_cases hj : j = i
    · exact hj ▸ hcontext.1
    · rw [h.ctx_of_ne hj]
      exact hI.families j
  · by_cases hj : j = i
    · exact hj ▸ hcontext.2
    · rw [h.ctx_of_ne hj]
      exact hI.known j
  · have hsocks := congrFun h.socks j
    exact (ht j).of_same (by rw [hsocks]) (by rw [hsocks]) (by rw [hsocks]) h.fds
  · rw [← hpage j]
    split <;> rfl

/-- A call on a socket and its entry keep the invariant. -/
theorem BooksInv.socket {a : Answers} {i : ι} {call : Call ι} {o : Outcome}
    (hb : b.asserts = true) (hI : BooksInv b w books)
    (h : pluginStep b w ⟨i, call, a⟩ = some (o, w')) (hproper : Proper b w ⟨i, call, a⟩) :
    BooksInv b w' { books with
      page := Function.update books.page i ((books.page i).after o.ret call) } := by
  obtain ⟨t, ht, hpage⟩ := hI.phases
  obtain ⟨t', hfollows, ht'⟩ := pluginStep_represents hb ht h hproper
  obtain ⟨r, events⟩ := o
  obtain ⟨he, rfl⟩ : CallEffect b a i w.clearLog call r w' ∧ events = w'.os.log :=
    pluginStep_iff.mp h
  have hbefore : Represents b w.clearLog i (t i) := (ht i).of_same rfl rfl rfl rfl
  have hctxs : w'.ctxs = w.ctxs := he.ctxs
  refine ⟨fun j => ?_, fun j => ?_, fun j => ?_, _, ht', fun j => ?_⟩
  · rw [hctxs]
    exact hI.started j
  · rw [hctxs]
    exact hI.families j
  · rw [hctxs]
    exact hI.known j
  · show Function.update books.page i _ j = pageOf (Function.update t i t' j)
    by_cases hj : j = i
    · subst hj
      have hafter := ht' j
      rw [Function.update_self] at hafter ⊢
      rw [Function.update_self, he.page hb hbefore hafter hfollows, hpage j]
    · rw [Function.update_of_ne hj, Function.update_of_ne hj]
      exact hpage j

/-- The entry of a call on a socket. -/
theorem Books.enter_socket {call : ApiCall ι} {i : ι} {c : Call ι}
    (h : call.native = .socket (some i) c) (s : Books ι) (r : Int32) :
    s.enter call (call.reply r) =
      { s with page := Function.update s.page i ((s.page i).after r c) } := by
  cases call with
  | setup | cleanup => simp [ApiCall.native] at h
  | socketOpen sock | socketClose sock | socketSend sock | socketRecv sock =>
      simp only [ApiCall.native, PluginCall.socket.injEq] at h
      obtain ⟨rfl, rfl⟩ := h
      by_cases hr : r = slOk <;> simp [enter, ApiCall.reply, Page.after, hr]
  | socketNonBlocking sock enabled =>
      simp only [ApiCall.native, PluginCall.socket.injEq] at h
      obtain ⟨rfl, rfl⟩ := h
      by_cases hr : r = slOk
      · cases enabled <;> simp [enter, ApiCall.reply, Page.after, hr]
      · simp [enter, ApiCall.reply, Page.after, hr]

/-- A proper call and its entry keep the invariant. -/
theorem BooksInv.step (hb : b.asserts = true) (hI : BooksInv b w books)
    (h : apiStep b w e = some (reply, w')) (hproper : e.Proper b w) :
    BooksInv b w' (books.enter e.call reply) := by
  obtain ⟨o, ho, rfl⟩ := apiStep_iff.mp h
  obtain ⟨he, hlog⟩ := entryStep_iff.mp ho
  have hI₀ : BooksInv b w.clearLog books := by
    obtain ⟨t, ht, hpage⟩ := hI.phases
    exact ⟨hI.started, hI.families, hI.known, t, fun i => (ht i).of_same rfl rfl rfl rfl, hpage⟩
  obtain ⟨call, a⟩ := e
  obtain ⟨r, events⟩ := o
  cases call with
  | setup ctx =>
      have htarget : SysCall.setup.target = slSysStateStarted ↔ true = true := by decide
      cases he with
      | setup he =>
          have hkept := hI₀.sys htarget he
          by_cases hr : r = slOk <;> simpa [Books.enter, ApiCall.reply, hr] using hkept
  | cleanup ctx =>
      have htarget : SysCall.cleanup.target = slSysStateStarted ↔ false = true := by decide
      cases he with
      | cleanup he =>
          have hkept := hI₀.sys htarget he
          by_cases hr : r = slOk <;> simpa [Books.enter, ApiCall.reply, hr] using hkept
  | socketOpen sock | socketClose sock | socketNonBlocking sock | socketSend sock
  | socketRecv sock =>
      cases he with
      | noSocket _ => simpa [Books.enter, ApiCall.reply] using hI₀
      | socket he =>
          rw [Books.enter_socket rfl]
          exact hI.socket hb (pluginStep_iff.mpr ⟨he, hlog⟩) (hproper _ _ rfl)

theorem bookStep_iff :
    bookStep b s e = some (reply, s') ↔
      apiStep b s.world e = some (reply, s'.world) ∧ s'.books = s.books.enter e.call reply := by
  obtain ⟨v, books'⟩ := s'
  rw [bookStep]
  cases h : apiStep b s.world e with
  | none => simp
  | some q =>
      obtain ⟨r, v'⟩ := q
      simp only [Option.some.injEq, Prod.mk.injEq, Kept.mk.injEq]
      constructor
      · rintro ⟨rfl, rfl, rfl⟩
        exact ⟨⟨rfl, rfl⟩, rfl⟩
      · rintro ⟨⟨rfl, rfl⟩, rfl⟩
        exact ⟨rfl, rfl, rfl⟩

end Sessions

/-! ### A day of two sockets -/

/-- The network is started, one socket is bound, switched and sends, the other
is left without a name and closed. -/
def day : List (ApiEntry Bool) :=
  [⟨.setup (some true), Answers.granting 3⟩,
    ⟨.socketOpen (some true), Answers.granting 3⟩,
    ⟨.socketOpen (some false), { Answers.granting 4 with bind := .error 98 }⟩,
    ⟨.socketNonBlocking (some true) true, Answers.granting 3⟩,
    ⟨.socketSend (some true) (some [⟨64, 2⟩]) 1 (.ofSock false), Answers.granting 3⟩,
    ⟨.socketClose (some false), Answers.granting 4⟩]

theorem day_proper :
    Along (bookStep ⟨true, .posix⟩) (fun s e _ _ => e.Proper ⟨true, .posix⟩ s.world)
      ⟨World.pair.startNetwork.start fun _ => anyEndpoint 2, .blank⟩ day := by
  have hopen : ∀ {w : World Bool} {i : Bool} {a : Answers}, w.isV6 ⟨true, .posix⟩ i = false →
      ApiEntry.Proper ⟨true, .posix⟩ w ⟨.socketOpen (some i), a⟩ := by
    intro w i a h4 j call hcall
    obtain ⟨rfl, rfl⟩ : i = j ∧ Call.socketOpen = call := by simpa [ApiCall.native] using hcall
    exact .of_open h4
  have hother : ∀ {w : World Bool} {e : ApiEntry Bool} {i : Bool} {call : Call Bool},
      e.call.native = .socket (some i) call → call ≠ .socketOpen →
        w.os.Owns i (w.fd ⟨true, .posix⟩ i) → e.Proper ⟨true, .posix⟩ w := by
    intro w e i call hnative hcall hown j call' hnative'
    obtain ⟨rfl, rfl⟩ : i = j ∧ call = call' := by simpa [hnative] using hnative'
    exact .of_owns hcall hown
  refine (along_cons_iff rfl).mpr ⟨fun i call h => (nomatch h), ?_⟩
  refine (along_cons_iff rfl).mpr ⟨hopen rfl, ?_⟩
  refine (along_cons_iff rfl).mpr ⟨hopen rfl, ?_⟩
  refine (along_cons_iff rfl).mpr ⟨hother rfl (fun h => nomatch h) ⟨_, rfl, rfl⟩, ?_⟩
  refine (along_cons_iff rfl).mpr ⟨hother rfl (fun h => nomatch h) ⟨_, rfl, rfl⟩, ?_⟩
  exact (along_cons_iff rfl).mpr ⟨hother rfl (fun h => nomatch h) ⟨_, rfl, rfl⟩, trivial⟩

/-! ### The theorem -/

/--
**Books.**  In a build with assertions, on every platform, for any number of
contexts and sockets, any interleaving of the seven functions of `API`, with null
pointers or without, and any answers: if the calls are proper, then after every
one of them the books that were kept from the replies are right.
-/
theorem books_right (p : Platform) (w : World ι) (endpoint : ι → SlEndpoint)
    {steps : List (ApiEntry ι)}
    (hproper : Along (bookStep ⟨true, p⟩) (fun s e _ _ => e.Proper ⟨true, p⟩ s.world)
      ⟨w.startNetwork.start endpoint, .blank⟩ steps) :
    Along (bookStep ⟨true, p⟩) (fun _ _ _ s' => s'.books.Right ⟨true, p⟩ s'.world)
      ⟨w.startNetwork.start endpoint, .blank⟩ steps := by
  have hstart : BooksInv ⟨true, p⟩ (w.startNetwork.start endpoint) .blank := .start _ w endpoint
  have hstep : ∀ (s : Kept ι) (e : ApiEntry ι) (reply : Reply) (s' : Kept ι),
      BooksInv ⟨true, p⟩ s.world s.books → bookStep ⟨true, p⟩ s e = some (reply, s') →
        e.Proper ⟨true, p⟩ s.world →
          s'.books.Right ⟨true, p⟩ s'.world ∧ BooksInv ⟨true, p⟩ s'.world s'.books := by
    intro s e reply s' hI h hproper
    obtain ⟨hstep, hbooks⟩ := bookStep_iff.mp h
    have hI' := hI.step rfl hstep hproper
    rw [← hbooks] at hI'
    exact ⟨hI'.right, hI'⟩
  exact along_of_invariant hstep hstart hproper

/-- The theorem at the day, at whose end one socket is booked as bound and
nonblocking, the other as neither. -/
theorem books_right_day :
    (∃ replies s', exec (bookStep ⟨true, .posix⟩)
        ⟨World.pair.startNetwork.start fun _ => anyEndpoint 2, .blank⟩ day = some (replies, s') ∧
      s'.books.started true = true ∧ s'.books.page true = ⟨true, true⟩ ∧
      s'.books.page false = ⟨false, false⟩) ∧
    Along (bookStep ⟨true, .posix⟩) (fun _ _ _ s' => s'.books.Right ⟨true, .posix⟩ s'.world)
      ⟨World.pair.startNetwork.start fun _ => anyEndpoint 2, .blank⟩ day :=
  ⟨⟨_, _, rfl, rfl, rfl, rfl⟩, books_right .posix World.pair (fun _ => anyEndpoint 2) day_proper⟩

end SockLynx
