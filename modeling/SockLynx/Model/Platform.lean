/-!
# Platforms, builds and return codes

`common.h` picks the platform and the socket API at compile time, `error.h`
decides whether `SL_ASSERT` does anything.  Both choices are data here, so
that one definition stands for every build of a function and its `#if`
branches become ordinary conditionals.

The numbers of `AF_INET`, `AF_INET6` and `O_NONBLOCK` come from the platform's
own headers; the library only passes them on.
-/

namespace SockLynx

/-- The platforms of `common.h` that have a socket API.  `windows` also stands
for Xbox One, which takes the same branch everywhere. -/
inductive Platform
  | posix
  | android
  | osx
  | ios
  | windows
  deriving DecidableEq, Repr

namespace Platform

/-- `SL_SOCK_API_WINSOCK`; the other platforms use `SL_SOCK_API_POSIX`. -/
def winsock : Platform → Bool
  | windows => true
  | _ => false

/-- `AF_INET` -/
def afInet : Platform → UInt16
  | _ => 2

/-- `AF_INET6` -/
def afInet6 : Platform → UInt16
  | posix | android => 10
  | osx | ios => 30
  | windows => 23

/-- `O_NONBLOCK`, which only the POSIX branches use. -/
def oNonblock : Platform → Int32
  | osx | ios => 0x4
  | _ => 0x800

theorem afInet_ne_afInet6 (p : Platform) : p.afInet ≠ p.afInet6 := by
  cases p <;> decide

/-- `(SL_SOCK_TYPE)x`: a 64-bit `SOCKET` on Winsock, an `int` elsewhere.  The
result is widened again, since descriptors are compared as `int64_t`. -/
def sockType (p : Platform) (x : Int64) : Int64 :=
  if p.winsock then x else x.toInt32.toInt64

/-- The numbers `socket()` may return on success: any `SOCKET` but
`INVALID_SOCKET`, or a nonnegative `int`. -/
def isDescriptor (p : Platform) (d : Int64) : Bool :=
  if p.winsock then d != -1 else decide (0 ≤ d) && d.toInt32.toInt64 == d

/-- A descriptor survives the round trip through `sock->fd`. -/
theorem sockType_of_isDescriptor {p : Platform} {d : Int64}
    (h : p.isDescriptor d = true) : p.sockType d = d := by
  unfold isDescriptor at h
  unfold sockType
  split at h
  · rename_i hw
    rw [if_pos hw]
  · rename_i hw
    simp only [Bool.and_eq_true, beq_iff_eq] at h
    rw [if_neg hw, h.2]

/-- The value `sock->fd` has while it holds nothing is itself a descriptor. -/
theorem isDescriptor_zero (p : Platform) : p.isDescriptor 0 = true := by
  cases p <;> decide

end Platform

/-- One way to compile the library: whether `SL_ASSERT` is `assert`, and for
which platform. -/
structure Build where
  asserts : Bool
  platform : Platform
  deriving DecidableEq, Repr

/-- `SL_OK` -/
def slOk : Int32 := 0

/-- `SL_ERR` -/
def slErr : Int32 := -1

theorem slOk_ne_slErr : slOk ≠ slErr := by decide

end SockLynx
