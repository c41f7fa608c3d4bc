import SockLynx.Model.Process

/-!
# `sys.h`

Starting and stopping the network, and the error number of the last failed
system call.
-/

namespace SockLynx

variable {ι : Type}

/-- `sl_sys_errno`: `errno`, or `WSAGetLastError()` on Winsock. -/
def slSysErrno : Sl ι Int32 := fun w => .ok (w.os.errno, w)

/-- `*sys` -/
def derefSys (sys : Option ι) : Sl ι SlSys := fun w =>
  match sys with
  | none => .error .nullPointer
  | some i => .ok (w.ctxs i, w)

variable [DecidableEq ι]

/-- Assign through `sys`. -/
def assignSys (sys : Option ι) (f : SlSys → SlSys) : Sl ι Unit := fun w =>
  match sys with
  | none => .error .nullPointer
  | some i => .ok ((), { w with ctxs := Function.update w.ctxs i (f (w.ctxs i)) })

/-- `WSAStartup(MAKEWORD(2, 2), &wsaData)` -/
def sysWsaStartup (a : Answers) : Sl ι Int32 := fun w =>
  let os := { w.os with
    wsaStartups := if a.wsaStartup = 0 then w.os.wsaStartups + 1 else w.os.wsaStartups }
  .ok (a.wsaStartup, { w with os := os }.note ⟨.wsaStartup, .ok a.wsaStartup.toInt64⟩)

/-- `WSACleanup()` -/
def sysWsaCleanup (a : Answers) : Sl ι Int32 := fun w =>
  let os := { w.os with
    wsaCleanups := if a.wsaCleanup = 0 then w.os.wsaCleanups + 1 else w.os.wsaCleanups }
  .ok (a.wsaCleanup, { w with os := os }.note ⟨.wsaCleanup, .ok a.wsaCleanup.toInt64⟩)

/-- `sl_sys_setup` -/
def slSysSetup (b : Build) (a : Answers) (sys : Option ι) : Sl ι Int32 := do
  slAssert b sys.isSome
  if (← derefSys sys).state == slSysStateStarted then return slOk
  let rv ← if b.platform.winsock then sysWsaStartup a else pure slOk
  if rv == slOk then assignSys sys fun s => { s with state := slSysStateStarted }
  assignSys sys fun s => { s with afInet := b.platform.afInet }
  assignSys sys fun s => { s with afInet6 := b.platform.afInet6 }
  return rv

/-- `sl_sys_cleanup` -/
def slSysCleanup (b : Build) (a : Answers) (sys : Option ι) : Sl ι Int32 := do
  slAssert b sys.isSome
  if (← derefSys sys).state == slSysStateStopped then return slOk
  let rv ← if b.platform.winsock then sysWsaCleanup a else pure slOk
  if rv == slOk then assignSys sys fun s => { s with state := slSysStateStopped }
  return rv

end SockLynx
