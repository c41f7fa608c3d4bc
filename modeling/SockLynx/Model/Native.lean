import SockLynx.Model.Types

/-!
# `sl_sock_t`, `sl_sys_t` and `sl_buf_t` in memory

The structs that managed code shares with the library, as the compiler lays
them out.  `SlSock.load` and `SlBuf.load` read a record from its bytes,
`SlSock.save` and `SlSys.save` store one over whatever the bytes held.

`SlSock.load_save` says that the records of `SockLynx.Model.Types` lose
nothing, so a `World` may keep records where the library has memory.
-/

namespace SockLynx

open SockLynx.Lib.Blocks
open SockLynx.Lib.Layout

/-! ## Fields by member name -/

section Fields

variable {κ : Type} [DecidableEq κ] {n : Nat}

/-- The value of an integer member. -/
def memberWord (ms : List (Member κ)) (v : Block n) (k : κ) : Nat :=
  v.word (offset ms k) (memberSize k ms)

/-- Assign to an integer member. -/
def setMember (ms : List (Member κ)) (v : Block n) (k : κ) (x : Nat) : Block n :=
  v.setWord (offset ms k) (memberSize k ms) x

theorem memberWord_setMember_self {ms : List (Member κ)} {v : Block n} {k : κ} {x : Nat}
    (hn : offset ms k + memberSize k ms ≤ n) (hx : x < 256 ^ memberSize k ms) :
    memberWord ms (setMember ms v k x) k = x := by
  rw [memberWord, setMember, Block.word_setWord_self x hn, Nat.mod_eq_of_lt hx]

theorem memberWord_setMember_of_ne {ms : List (Member κ)} {v : Block n} {k k' : κ} {x : Nat}
    (h : k' ≠ k) : memberWord ms (setMember ms v k x) k' = memberWord ms v k' :=
  Block.word_setWord_of_disjoint (offset_disjoint h ms)

theorem memberWord_store_of_ne {ms : List (Member κ)} {v : Block n} {k k' : κ} {bs : List UInt8}
    (h : k' ≠ k) (hbs : bs.length = memberSize k ms) :
    memberWord ms (v.store (offset ms k) bs) k' = memberWord ms v k' :=
  Block.word_store_of_disjoint (hbs ▸ offset_disjoint h ms)

end Fields

/-! ## `sl_sock_t` -/

/-- The members of `sl_sock_t`. -/
inductive SockField
  | fd
  | dir
  | state
  | type
  | proto
  | error
  | flags
  | endpoint
  deriving DecidableEq, Repr

/-- `sl_sock_t` -/
def slSockT : List (Member SockField) :=
  [⟨.fd, 8, 8⟩, ⟨.dir, 4, 4⟩, ⟨.state, 4, 4⟩, ⟨.type, 4, 4⟩, ⟨.proto, 4, 4⟩, ⟨.error, 4, 4⟩,
    ⟨.flags, 4, 4⟩, ⟨.endpoint, slEndpointBytes, 4⟩]

/-- `sizeof(sl_sock_t)` -/
abbrev slSockBytes : Nat := 64

theorem structSize_slSockT : structSize slSockT = slSockBytes := rfl

/-- The record a pointer to these bytes stands for. -/
def SlSock.load (v : Block slSockBytes) : SlSock where
  fd := (UInt64.ofNat (memberWord slSockT v .fd)).toInt64
  dir := UInt32.ofNat (memberWord slSockT v .dir)
  state := UInt32.ofNat (memberWord slSockT v .state)
  type := UInt32.ofNat (memberWord slSockT v .type)
  proto := UInt32.ofNat (memberWord slSockT v .proto)
  error := UInt32.ofNat (memberWord slSockT v .error)
  flags := UInt32.ofNat (memberWord slSockT v .flags)
  endpoint := v.sub (offset slSockT .endpoint) slEndpointBytes

/-- The integer members as numbers. -/
def SlSock.word (s : SlSock) : SockField → Nat
  | .fd => s.fd.toUInt64.toNat
  | .dir => s.dir.toNat
  | .state => s.state.toNat
  | .type => s.type.toNat
  | .proto => s.proto.toNat
  | .error => s.error.toNat
  | .flags => s.flags.toNat
  | .endpoint => 0

/-- Store the integer members `ks` of `s`. -/
def SlSock.saveWords (s : SlSock) : List SockField → Block slSockBytes → Block slSockBytes
  | [], v => v
  | k :: ks, v => s.saveWords ks (setMember slSockT v k (s.word k))

/-- Store every member of `s`. -/
def SlSock.save (s : SlSock) (v : Block slSockBytes) : Block slSockBytes :=
  (s.saveWords [.fd, .dir, .state, .type, .proto, .error, .flags] v).store
    (offset slSockT .endpoint) s.endpoint.toList

section Sock

variable (s : SlSock) (v : Block slSockBytes)

theorem SlSock.word_lt (k : SockField) : s.word k < 256 ^ memberSize k slSockT := by
  cases k with
  | fd => exact s.fd.toUInt64.toNat_lt
  | dir => exact s.dir.toNat_lt
  | state => exact s.state.toNat_lt
  | type => exact s.type.toNat_lt
  | proto => exact s.proto.toNat_lt
  | error => exact s.error.toNat_lt
  | flags => exact s.flags.toNat_lt
  | endpoint => exact Nat.pow_pos (by decide)

theorem slSockT_fits (k : SockField) :
    offset slSockT k + memberSize k slSockT ≤ slSockBytes := by
  cases k <;> decide

/-- A later store of another member leaves a stored member alone. -/
theorem SlSock.memberWord_saveWords {ks : List SockField} {k : SockField}
    (h : k ∈ ks ∨ memberWord slSockT v k = s.word k) :
    memberWord slSockT (s.saveWords ks v) k = s.word k := by
  induction ks generalizing v with
  | nil => exact h.resolve_left (List.not_mem_nil)
  | cons k' ks ih =>
      rw [saveWords]
      refine ih _ ?_
      by_cases hk : k = k'
      · subst hk
        exact Or.inr (memberWord_setMember_self (slSockT_fits k) (s.word_lt k))
      · rw [memberWord_setMember_of_ne hk]
        exact h.imp_left fun hmem => (List.mem_cons.mp hmem).resolve_left hk

/-- Every integer member reads back what was saved. -/
theorem SlSock.memberWord_save {k : SockField} (h : k ≠ .endpoint) :
    memberWord slSockT (s.save v) k = s.word k := by
  have hlen : s.endpoint.toList.length = memberSize .endpoint slSockT := by
    simp [slSockT, memberSize]
  rw [save, memberWord_store_of_ne h hlen]
  refine s.memberWord_saveWords v (Or.inl ?_)
  cases k with
  | endpoint => exact absurd rfl h
  | fd | dir | state | type | proto | error | flags => simp

/-- A record reads back from its bytes. -/
theorem SlSock.load_save : SlSock.load (s.save v) = s := by
  have hendpoint : (s.save v).sub (offset slSockT .endpoint) slEndpointBytes = s.endpoint :=
    Block.sub_store_self s.endpoint (slSockT_fits .endpoint)
  have hword : ∀ k, k ≠ .endpoint → memberWord slSockT (s.save v) k = s.word k :=
    fun k hk => s.memberWord_save v hk
  simp [load, hword, word, hendpoint]

end Sock

/-! ## `sl_sys_t` -/

/-- The members of `sl_sys_t`. -/
inductive SysField
  | state
  | afInet
  | afInet6
  deriving DecidableEq, Repr

/-- `sl_sys_t` -/
def slSysT : List (Member SysField) := [⟨.state, 4, 4⟩, ⟨.afInet, 2, 2⟩, ⟨.afInet6, 2, 2⟩]

/-- `sizeof(sl_sys_t)` -/
abbrev slSysBytes : Nat := 8

theorem structSize_slSysT : structSize slSysT = slSysBytes := rfl

/-- Store every member of `s`. -/
def SlSys.save (s : SlSys) (v : Block slSysBytes) : Block slSysBytes :=
  let v := setMember slSysT v .state s.state.toNat
  let v := setMember slSysT v .afInet s.afInet.toNat
  setMember slSysT v .afInet6 s.afInet6.toNat

/-! ## `sl_buf_t` -/

/-- The members of `sl_buf_t`. -/
inductive BufField
  | base
  | len
  deriving DecidableEq, Repr

/-- `sl_buf_t`: a `WSABUF` on Winsock, an `iovec` elsewhere. -/
def slBufT (p : Platform) : List (Member BufField) :=
  if p.winsock then [⟨.len, 4, 4⟩, ⟨.base, 8, 8⟩] else [⟨.base, 8, 8⟩, ⟨.len, 8, 8⟩]

/-- `sizeof(sl_buf_t)`, with `SL_64`. -/
abbrev slBufBytes : Nat := 16

theorem structSize_slBufT (p : Platform) : structSize (slBufT p) = slBufBytes := by
  cases p <;> rfl

/-- The record a pointer to these bytes stands for. -/
def SlBuf.load (p : Platform) (v : Block slBufBytes) : SlBuf where
  base := UInt64.ofNat (memberWord (slBufT p) v .base)
  len := UInt64.ofNat (memberWord (slBufT p) v .len)

end SockLynx
