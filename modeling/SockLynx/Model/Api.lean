import SockLynx.Model.Plugin

/-!
# `SockLynx.cs`

The functions of `API`, which managed code calls: each hands its arguments to
one entry point of the plugin, and all but the transfers turn the value into a
`bool`.
-/

namespace SockLynx

variable {ι : Type} [DecidableEq ι]

namespace API

/-- `API.Setup` -/
def setup (b : Build) (a : Answers) (ctx : Option ι) : Sl ι Bool := do
  return (← socklynxSetup b a ctx) == slOk

/-- `API.Cleanup` -/
def cleanup (b : Build) (a : Answers) (ctx : Option ι) : Sl ι Bool := do
  return (← socklynxCleanup b a ctx) == slOk

/-- `API.SocketOpen` -/
def socketOpen (b : Build) (a : Answers) (sock : Option ι) : Sl ι Bool := do
  return (← socklynxSocketOpen b a sock) == slOk

/-- `API.SocketClose` -/
def socketClose (b : Build) (a : Answers) (sock : Option ι) : Sl ι Bool := do
  return (← socklynxSocketClose b a sock) == slOk

/-- `API.SocketNonBlocking` -/
def socketNonBlocking (b : Build) (a : Answers) (sock : Option ι) (enabled : Bool) :
    Sl ι Bool := do
  return (← socklynxSocketNonblocking b a sock (if enabled then 1 else 0)) == slOk

/-- `API.SocketSend` -/
def socketSend (b : Build) (a : Answers) (sock : Option ι) (bufferArray : Option (List SlBuf))
    (bufferCount : Int32) (endpoint : EndpointPtr ι) : Sl ι Int32 :=
  socklynxSocketSend b a sock bufferArray bufferCount endpoint

/-- `API.SocketRecv` -/
def socketRecv (b : Build) (a : Answers) (sock : Option ι) (bufferArray : Option (List SlBuf))
    (bufferCount : Int32) (endpoint : EndpointPtr ι) : Sl ι Int32 :=
  socklynxSocketRecv b a sock bufferArray bufferCount endpoint

end API

/-! ## Sessions -/

/-- A call of one of the seven functions, with all its pointers. -/
inductive ApiCall (ι : Type)
  | setup (ctx : Option ι)
  | cleanup (ctx : Option ι)
  | socketOpen (sock : Option ι)
  | socketClose (sock : Option ι)
  | socketNonBlocking (sock : Option ι) (enabled : Bool)
  | socketSend (sock : Option ι) (bufferArray : Option (List SlBuf)) (bufferCount : Int32)
      (endpoint : EndpointPtr ι)
  | socketRecv (sock : Option ι) (bufferArray : Option (List SlBuf)) (bufferCount : Int32)
      (endpoint : EndpointPtr ι)

/-- What managed code is told. -/
inductive Reply
  | bool (ok : Bool)
  | int (n : Int32)
  deriving DecidableEq, Repr

/-- Run a call. -/
def ApiCall.run (b : Build) (a : Answers) : ApiCall ι → Sl ι Reply
  | .setup ctx => do return .bool (← API.setup b a ctx)
  | .cleanup ctx => do return .bool (← API.cleanup b a ctx)
  | .socketOpen sock => do return .bool (← API.socketOpen b a sock)
  | .socketClose sock => do return .bool (← API.socketClose b a sock)
  | .socketNonBlocking sock enabled => do return .bool (← API.socketNonBlocking b a sock enabled)
  | .socketSend sock bufferArray bufferCount endpoint => do
      return .int (← API.socketSend b a sock bufferArray bufferCount endpoint)
  | .socketRecv sock bufferArray bufferCount endpoint => do
      return .int (← API.socketRecv b a sock bufferArray bufferCount endpoint)

/-- A step of a session of managed code: a call and the system's answers. -/
structure ApiEntry (ι : Type) where
  call : ApiCall ι
  answers : Answers

/-- One step of such a session: `none` when the process stops. -/
def apiStep (b : Build) (w : World ι) (e : ApiEntry ι) : Option (Reply × World ι) :=
  match e.call.run b e.answers w.clearLog with
  | .error _ => none
  | .ok p => some p

/-! ### The entry point behind a call -/

/-- The call of the plugin. -/
def ApiCall.native : ApiCall ι → PluginCall ι
  | .setup ctx => .setup ctx
  | .cleanup ctx => .cleanup ctx
  | .socketOpen sock => .socket sock .socketOpen
  | .socketClose sock => .socket sock .socketClose
  | .socketNonBlocking sock enabled => .socket sock (.socketNonblocking (if enabled then 1 else 0))
  | .socketSend sock bufferArray bufferCount endpoint =>
      .socket sock (.socketSend bufferArray bufferCount endpoint)
  | .socketRecv sock bufferArray bufferCount endpoint =>
      .socket sock (.socketRecv bufferArray bufferCount endpoint)

/-- What becomes of its value. -/
def ApiCall.reply (r : Int32) : ApiCall ι → Reply
  | .socketSend _ _ _ _ => .int r
  | .socketRecv _ _ _ _ => .int r
  | _ => .bool (r == slOk)

section Translation

variable {b : Build} {a : Answers} {w w' : World ι}

omit [DecidableEq ι] in
private theorem bool_apply (m : Sl ι Int32) :
    ((do return .bool (← (do return (← m) == slOk : Sl ι Bool))) : Sl ι Reply) w =
      (m w).map fun p => (.bool (p.1 == slOk), p.2) := by
  rw [Sl.bind_apply, Sl.bind_apply]
  cases m w <;> rfl

omit [DecidableEq ι] in
private theorem int_apply (m : Sl ι Int32) :
    ((do return .int (← m)) : Sl ι Reply) w = (m w).map fun p => (.int p.1, p.2) := by
  rw [Sl.bind_apply]
  cases m w <;> rfl

/-- A call is a call of the plugin, whose value is translated. -/
theorem ApiCall.run_eq (call : ApiCall ι) :
    call.run b a w = (call.native.run b a w).map fun p => (call.reply p.1, p.2) := by
  cases call with
  | setup | cleanup | socketOpen | socketClose | socketNonBlocking => exact bool_apply _
  | socketSend | socketRecv => exact int_apply _

/-- A step is a step of the plugin, whose value is translated. -/
theorem apiStep_iff {e : ApiEntry ι} {reply : Reply} :
    apiStep b w e = some (reply, w') ↔
      ∃ o, entryStep b w ⟨e.call.native, e.answers⟩ = some (o, w') ∧
        reply = e.call.reply o.ret := by
  rw [apiStep, ApiCall.run_eq]
  constructor
  · intro h
    cases hrun : e.call.native.run b e.answers w.clearLog with
    | error stop => simp [hrun, Except.map] at h
    | ok p =>
        obtain ⟨r, v⟩ := p
        simp only [hrun, Except.map, Option.some.injEq, Prod.mk.injEq] at h
        obtain ⟨rfl, rfl⟩ := h
        exact ⟨⟨r, v.os.log⟩, callStep_eq_some_iff.mpr ⟨hrun, rfl⟩, rfl⟩
  · rintro ⟨o, ho, rfl⟩
    rw [(callStep_eq_some_iff.mp ho).1]
    rfl

end Translation

end SockLynx
