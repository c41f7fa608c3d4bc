import SockLynx.Verified.Frame

/-!
# What passes the kernel's border

Of the system calls of the library only `bind` and `sendmsg` pass an address, and
only `sendmsg` passes bytes of the caller's memory.  The log of a call lists the
buffers; which bytes are in them is a matter of the memory at that moment, and a
send changes no memory (`CallEffect.mem_of_send`).

## Main results

* `CallEffect.events` — a call passes the name of its own socket, in an open, or
  what its operation passes.
* `CallEffect.sends` — it passes bytes where it is a send, and these are the bytes
  of its buffers.
-/

namespace SockLynx

open SockLynx.Lib.Spans
open SockLynx.Lib.Words

variable {ι : Type}

/-! ## Buffers and endpoints in memory -/

/-- Where in memory an endpoint lies that is not a socket's own. -/
def EndpointPtr.spans : EndpointPtr ι → List Span
  | .addr p => [⟨p, slEndpointBytes⟩]
  | _ => []

/-- The bytes a system call passes to the network. -/
def Syscall.payload (m : Mem) : Syscall → List UInt8
  | .sendmsg _ _ _ iov iovlen => gather m ((iovBufs iov iovlen).map SlBuf.span)
  | _ => []

/-- The buffers have as many cells as they have room. -/
theorem total_span (bufs : List SlBuf) : total (bufs.map SlBuf.span) = capacity bufs := by
  simp [total, capacity, SlBuf.span, Function.comp_def]

theorem mem_of_mem_iovBufs {buf : Option (List SlBuf)} {iovlen : UInt64} {x : SlBuf}
    (h : x ∈ iovBufs buf iovlen) : x ∈ buf.getD [] :=
  List.mem_of_mem_take h

/-! ## System calls with addresses -/

/-- The call passes no address. -/
def Syscall.Quiet : Syscall → Prop
  | .bind _ _ _ => False
  | .sendmsg _ _ _ _ _ => False
  | _ => True

section Events

variable [DecidableEq ι] {b : Build} {a : Answers} {i : ι} {w w' : World ι} {op : SockOp ι}
  {call : Call ι} {r : Int32} {ev : Event}

/-- Of the system calls of an operation only the decisive one can pass an
address. -/
theorem SockEffect.events (hlog : w.os.log = []) (h : SockEffect b a i w op r w')
    (hev : ev ∈ w'.os.log) : ev.call.Quiet ∨ op.decisive b a i w = some ev.call := by
  rcases h.log_cases hlog with ⟨_, hcalls⟩ | ⟨call, result, hc, hlast⟩
  · refine Or.inl ?_
    rcases hcalls ev hev with ⟨_, _, _, hcall⟩ | ⟨_, _, hcall⟩
    · rw [hcall]
      trivial
    · rw [hcall]
      trivial
  · rw [hlast] at hev
    rcases List.mem_append.mp hev with hev | hev
    · obtain ⟨fd, hcall⟩ := SockOp.mem_prelude_log hlog hev
      rw [hcall]
      exact Or.inl trivial
    · obtain rfl := List.mem_singleton.mp hev
      exact Or.inr hc

/-- A bind makes one system call. -/
theorem SockEffect.bind_log (h : SockEffect b a i w .bind r w') :
    ∃ result, w'.os.log = w.os.log ++
      [⟨.bind (w.fd b i) (w.ownName b i).1 (w.ownName b i).2, result⟩] := by
  cases h with
  | refused hc _ =>
      obtain rfl := Option.some.inj hc
      exact ⟨_, rfl⟩
  | bindDone hc _ _ =>
      obtain rfl := Option.some.inj hc
      exact ⟨_, rfl⟩

/-- A call passes the name of its own socket, in an open, or what its operation
passes. -/
theorem CallEffect.events (hlog : w.os.log = []) (h : CallEffect b a i w call r w')
    (hev : ev ∈ w'.os.log) :
    ev.call.Quiet ∨
      (call = .socketOpen ∧ ∃ fd, ev.call = .bind fd ((w.socks i).endpoint.sockaddr b.platform).1
        ((w.socks i).endpoint.sockaddr b.platform).2) ∨
      ∃ op, call.op = some op ∧ op.decisive b a i w = some ev.call := by
  cases h with
  | guarded _ => simp [hlog] at hev
  | notCreated _ hc _ => exact Or.inl ((hc.events hlog hev).resolve_right fun h => nomatch h)
  | @created _ _ w₁ _ _ hc hr hb =>
      obtain ⟨result, hlast⟩ := hb.bind_log
      rw [hlast] at hev
      rcases List.mem_append.mp hev with hev | hev
      · exact Or.inl ((hc.events hlog hev).resolve_right fun h => nomatch h)
      · have hendpoint : (w₁.socks i).endpoint = (w.socks i).endpoint := by
          obtain ⟨d, desc, hnew⟩ := hc.created hr
          obtain ⟨flags, hsock⟩ := hnew.sock
          rw [hsock]
        obtain rfl := List.mem_singleton.mp hev
        refine Or.inr (Or.inl ⟨rfl, w₁.fd b i, ?_⟩)
        rw [← hendpoint]
        rfl
  | op hop _ _ he => exact (he.events hlog hev).imp_right fun hc => Or.inr ⟨_, hop, hc⟩

/-- Only a send passes bytes, and it passes those of its buffers. -/
theorem CallEffect.sends (hlog : w.os.log = []) (h : CallEffect b a i w call r w')
    (hev : ev ∈ w'.os.log) :
    (∀ fd name namelen iov iovlen, ev.call ≠ .sendmsg fd name namelen iov iovlen) ∨
      ∃ buf bufcount endpoint, call = .socketSend buf bufcount endpoint ∧
        ∀ m, ev.call.payload m = gather m ((iovBufs buf (iovCount b bufcount)).map SlBuf.span) := by
  rcases h.events hlog hev with hquiet | ⟨_, fd, hbind⟩ | ⟨op, hop, hc⟩
  · refine Or.inl fun fd name namelen iov iovlen hsend => ?_
    rw [hsend] at hquiet
    exact hquiet
  · exact Or.inl fun _ _ _ _ _ hsend => nomatch hsend.symm.trans hbind
  · cases call with
    | socketSend buf bufcount endpoint =>
        obtain rfl := Option.some.inj hop
        refine Or.inr ⟨buf, bufcount, endpoint, rfl, fun m => ?_⟩
        rw [← Option.some.inj hc]
        rfl
    | socketOpen => exact nomatch hop
    | socketClose | socketRecv =>
        obtain rfl := Option.some.inj hop
        exact Or.inl fun _ _ _ _ _ hsend => nomatch (Option.some.inj hc).trans hsend
    | socketNonblocking =>
        obtain rfl := Option.some.inj hop
        refine Or.inl fun fd name namelen iov iovlen hsend => ?_
        have hc := (Option.some.inj hc).trans hsend
        split at hc <;> exact nomatch hc

/-- A call that does not receive changes no memory, so a send may be said to pass
what its buffers hold before it or after it. -/
theorem CallEffect.mem_of_send {buf : Option (List SlBuf)} {bufcount : Int32}
    {endpoint : EndpointPtr ι} (h : CallEffect b a i w (.socketSend buf bufcount endpoint) r w') :
    w'.mem = w.mem := by
  cases h with
  | guarded _ => rfl
  | op hop _ _ he =>
      obtain rfl := Option.some.inj hop
      cases he with
      | refused _ _ => rfl
      | sendDone _ _ _ => rfl

end Events

/-! ## Steps with the bytes they pass -/

/-- What a call did, and the bytes that each of its system calls passed to the
network. -/
structure Transcript where
  outcome : Outcome
  wire : List (List UInt8)

/-- One step of a session of plugin calls, with the bytes on the wire. -/
def wireStep [DecidableEq ι] (b : Build) (w : World ι) (e : Step ι (Call ι)) :
    Option (Transcript × World ι) :=
  match pluginStep b w e with
  | none => none
  | some (o, w') => some (⟨o, o.events.map fun ev => ev.call.payload w.mem⟩, w')

theorem wireStep_iff [DecidableEq ι] {b : Build} {w w' : World ι} {e : Step ι (Call ι)}
    {t : Transcript} : wireStep b w e = some (t, w') ↔
      pluginStep b w e = some (t.outcome, w') ∧
        t.wire = t.outcome.events.map fun ev => ev.call.payload w.mem := by
  obtain ⟨o, wire⟩ := t
  unfold wireStep
  cases pluginStep b w e with
  | none => simp
  | some p =>
      obtain ⟨o', v⟩ := p
      simp only [Option.some.injEq, Prod.mk.injEq, Transcript.mk.injEq]
      constructor
      · rintro ⟨⟨rfl, rfl⟩, rfl⟩
        exact ⟨⟨rfl, rfl⟩, rfl⟩
      · rintro ⟨⟨rfl, rfl⟩, rfl⟩
        exact ⟨⟨rfl, rfl⟩, rfl⟩

end SockLynx
