import SockLynx.Lib.Runs
import SockLynx.Verified.MemCmp
import SockLynx.Verified.MemCpy
import SockLynx.Verified.MemSet

/-!
# Scripts of memory routines

`MemCpy`, `MemSet` and `MemCmp` one after the other, on memory that each of them
may leave changed for the next.  `Command.apply` says what a call is for, without
words, chunks or rests: copy a range at once, fill it with a value, compare two.

A safe call returns and changes nothing that it is not given to write.  It does
what it is for as well, unless it is a fill with a negative `short` or `int` whose
sign shows (`Command.Exact`).

## Main results

* `Command.run_eq` — a safe and exact call does what it is for.
* `exec_safe` — a script of safe calls returns, and changes nothing that none of
  them is given to write.
* `script_plain` — if the calls are exact, the script does what they are for.
* `backup_restores` — a range that was copied away is there again after it was
  copied back, whatever happened to it in between.
* `copy_check_iff` — what a comparison after a copy says, if the ranges overlap.
-/

namespace SockLynx.Util

open SockLynx.Lib.Moves
open SockLynx.Lib.Runs
open SockLynx.Lib.Words

/-! ## Commands -/

/-- The value of a `MemSet`, by overload. -/
inductive Fill
  | ulong (value : UInt64)
  | byte (value : UInt8)
  | short (value : Int16)
  | int (value : Int32)

/-- A call of one of the routines. -/
inductive Command
  | cpy (dst : UInt64) (dstOffset : Int32) (src : UInt64) (srcOffset byteLength : Int32)
  | set (dst : UInt64) (dstOffset : Int32) (value : Fill) (byteLength : Int32)
  | cmp (dst : UInt64) (dstOffset : Int32) (src : UInt64) (srcOffset byteLength : Int32)

/-- `MemSet` -/
def Fill.run (dst : UInt64) (dstOffset : Int32) (byteLength : Int32) : Fill → Raw Unit
  | .ulong value => memSet dst dstOffset value byteLength
  | .byte value => memSetByte dst dstOffset value byteLength
  | .short value => memSetShort dst dstOffset value byteLength
  | .int value => memSetInt dst dstOffset value byteLength

/-- Run a command; a comparison has a result. -/
def Command.run : Command → Raw (Option Bool)
  | .cpy dst dstOffset src srcOffset byteLength => do
      memCpy dst dstOffset src srcOffset byteLength
      return none
  | .set dst dstOffset value byteLength => do
      value.run dst dstOffset byteLength
      return none
  | .cmp dst dstOffset src srcOffset byteLength => do
      return some (← memCmp dst dstOffset src srcOffset byteLength)

/-- One step of a script: `none` when an access is not allowed. -/
def utilStep (acc : Access) (m : Mem) (c : Command) : Option (Option Bool × Mem) :=
  match c.run acc m with
  | .error _ => none
  | .ok p => some p

/-! ## What they are for -/

/-- The address of an offset. -/
def address (p : UInt64) (offset : Int32) : Nat := (p + ulong offset).toNat

/-- Byte `i` of a value repeated. -/
def Fill.element (i : Nat) : Fill → UInt8
  | .ulong value => byteOf value.toNat (i % 8)
  | .byte value => value
  | .short value => byteOf value.toUInt16.toNat (i % 2)
  | .int value => byteOf value.toUInt32.toNat (i % 4)

/-- The meaning of a command. -/
def Command.apply (m : Mem) : Command → Option Bool × Mem
  | .cpy dst dstOffset src srcOffset byteLength =>
      (none, move (address dst dstOffset) (address src srcOffset) byteLength.toInt.toNat m)
  | .set dst dstOffset value byteLength =>
      (none, paint (fun x => value.element (x - address dst dstOffset))
        (address dst dstOffset) byteLength.toInt.toNat m)
  | .cmp dst dstOffset src srcOffset byteLength =>
      (some (decide (∀ i < byteLength.toInt.toNat,
        m (address dst dstOffset + i) = m (address src srcOffset + i))), m)

/-- One step of a script, by the meaning of its commands. -/
def plainStep (m : Mem) (c : Command) : Option (Option Bool × Mem) := some (c.apply m)

/-- The length is not negative, the ranges are allowed, and a copy is as good as
one of the whole range at once. -/
def Command.Safe (acc : Access) : Command → Prop
  | .cpy dst dstOffset src srcOffset byteLength =>
      ∃ n : Nat, byteLength.toInt = n ∧ acc.CanRead (address src srcOffset) n ∧
        acc.CanWrite (address dst dstOffset) n ∧
        CopySafe (address dst dstOffset) (address src srcOffset) n
  | .set dst dstOffset _ byteLength =>
      ∃ n : Nat, byteLength.toInt = n ∧ acc.CanWrite (address dst dstOffset) n
  | .cmp dst dstOffset src srcOffset byteLength =>
      ∃ n : Nat, byteLength.toInt = n ∧ acc.CanRead (address dst dstOffset) n ∧
        acc.CanRead (address src srcOffset) n

/-- The value of a fill of `n` bytes is not negative, or its sign does not show. -/
def Fill.Exact (n : Nat) : Fill → Prop
  | .short value => ElementKept 2 n value.toUInt16.toNat value.toInt
  | .int value => ElementKept 4 n value.toUInt32.toNat value.toInt
  | _ => True

/-- A fill is exact. -/
def Command.Exact : Command → Prop
  | .set _ _ value byteLength => value.Exact byteLength.toInt.toNat
  | _ => True

/-- The command is given none of the `n` bytes from `t` on to write. -/
def Command.Spares (t n : Nat) : Command → Prop
  | .cpy dst dstOffset _ _ byteLength | .set dst dstOffset _ byteLength =>
      t + n ≤ address dst dstOffset ∨ address dst dstOffset + byteLength.toInt.toNat ≤ t
  | .cmp _ _ _ _ _ => True

/-! ## One command -/

section Commands

variable {acc : Access} {dst src : UInt64} {dstOffset srcOffset byteLength : Int32} {n : Nat}
  {c : Command}

/-- The word a fill repeats. -/
def Fill.word : Fill → UInt64
  | .ulong value => value
  | .byte value => bytePattern value
  | .short value => shortPattern value
  | .int value => intPattern value

theorem Fill.run_eq (hn : byteLength.toInt = n) (hw : acc.CanWrite (address dst dstOffset) n)
    (value : Fill) (m : Mem) :
    value.run dst dstOffset byteLength acc m =
      .ok ((), paint (fun x => byteOf value.word.toNat ((x - address dst dstOffset) % 8))
        (address dst dstOffset) n m) := by
  cases value <;> exact memSet_run hn hw _ m

/-- The word repeats the value exactly if the fill is exact. -/
theorem Fill.byteOf_word_iff (value : Fill) (n : Nat) :
    (∀ i < n, byteOf value.word.toNat (i % 8) = value.element i) ↔ value.Exact n := by
  cases value with
  | ulong value => exact iff_of_true (fun i _ => rfl) trivial
  | byte value =>
      exact iff_of_true (fun i _ => byteOf_bytePattern value (Nat.mod_lt i (by omega))) trivial
  | short value => exact (shortPattern_repeats value).element_iff (Or.inl rfl)
  | int value => exact (intPattern_repeats value).element_iff (Or.inr rfl)

/-- A safe and exact command does what it is for. -/
theorem Command.run_eq (h : c.Safe acc) (hexact : c.Exact) (m : Mem) :
    c.run acc m = .ok (c.apply m) := by
  cases c with
  | cpy dst dstOffset src srcOffset byteLength =>
      obtain ⟨n, hn, hr, hw, hsafe⟩ := h
      have hrun := memCpy_run hn hr hw m
      rw [run, Raw.bind_ok hrun, apply, hn, Int.toNat_natCast]
      exact congrArg (fun m' => Except.ok (none, m')) (moveChunks_of_safe hsafe m)
  | set dst dstOffset value byteLength =>
      obtain ⟨n, hn, hw⟩ := h
      have hlen : byteLength.toInt.toNat = n := by rw [hn, Int.toNat_natCast]
      have hbytes := (value.byteOf_word_iff n).mpr (hlen ▸ hexact)
      rw [run, Raw.bind_ok (Fill.run_eq hn hw value m), apply, hlen]
      refine congrArg (fun m' => Except.ok (none, m')) (funext fun x => ?_)
      by_cases hx : address dst dstOffset ≤ x ∧ x < address dst dstOffset + n
      · rw [paint_of_mem hx, paint_of_mem hx]
        exact hbytes _ (by omega)
      · rw [paint_of_not_mem hx, paint_of_not_mem hx]
  | cmp dst dstOffset src srcOffset byteLength =>
      obtain ⟨n, hn, hdst, hsrc⟩ := h
      rw [run, Raw.bind_ok (memCmp_run hn hdst hsrc m), apply, hn, Int.toNat_natCast]
      rfl

/-- A safe command returns and leaves what it is not given. -/
theorem Command.exists_run (h : c.Safe acc) (m : Mem) :
    ∃ out m', c.run acc m = .ok (out, m') ∧ ∀ x, c.Spares x 1 → m' x = m x := by
  cases c with
  | cpy dst dstOffset src srcOffset byteLength =>
      refine ⟨_, _, Command.run_eq h trivial m, fun x hx => ?_⟩
      simp only [Spares] at hx
      exact move_frame (by omega)
  | set dst dstOffset value byteLength =>
      obtain ⟨n, hn, hw⟩ := h
      refine ⟨none, _, Raw.bind_ok (Fill.run_eq hn hw value m), fun x hx => ?_⟩
      simp only [Spares, hn, Int.toNat_natCast] at hx
      exact paint_of_not_mem (by omega)
  | cmp dst dstOffset src srcOffset byteLength =>
      exact ⟨_, _, Command.run_eq h trivial m, fun x _ => rfl⟩

/-- What is spared is spared byte by byte. -/
theorem Command.Spares.byte {t k : Nat} (h : c.Spares t n) (hk : k < n) :
    c.Spares (t + k) 1 := by
  cases c with
  | cpy | set =>
      simp only [Spares] at h ⊢
      omega
  | cmp => trivial

end Commands

/-! ## Scripts -/

section Scripts

variable {acc : Access} {cs : List Command} {m m' : Mem} {outs : List (Option Bool)}

theorem utilStep_eq {c : Command} (h : c.Safe acc) (hexact : c.Exact) (m : Mem) :
    utilStep acc m c = plainStep m c := by
  rw [utilStep, c.run_eq h hexact m]
  rfl

/-- A safe copy copies the range. -/
theorem utilStep_cpy {dst src : UInt64} {dstOffset srcOffset byteLength : Int32} {n : Nat}
    (hn : byteLength.toInt = n)
    (h : Command.Safe acc (.cpy dst dstOffset src srcOffset byteLength)) (m : Mem) :
    utilStep acc m (.cpy dst dstOffset src srcOffset byteLength) =
      some (none, move (address dst dstOffset) (address src srcOffset) n m) := by
  rw [utilStep_eq h trivial, plainStep, Command.apply, hn, Int.toNat_natCast]

/-- A safe comparison compares the ranges. -/
theorem utilStep_cmp {dst src : UInt64} {dstOffset srcOffset byteLength : Int32} {n : Nat}
    (hn : byteLength.toInt = n)
    (h : Command.Safe acc (.cmp dst dstOffset src srcOffset byteLength)) (m : Mem) :
    utilStep acc m (.cmp dst dstOffset src srcOffset byteLength) =
      some (some (decide (∀ i < n, m (address dst dstOffset + i) = m (address src srcOffset + i))),
        m) := by
  rw [utilStep_eq h trivial, plainStep, Command.apply, hn, Int.toNat_natCast]

/-- A script of safe and exact commands runs as its meaning does. -/
theorem exec_utilStep (h : ∀ c ∈ cs, c.Safe acc ∧ c.Exact) (m : Mem) :
    exec (utilStep acc) m cs = exec plainStep m cs := by
  induction cs generalizing m with
  | nil => rfl
  | cons c cs ih =>
      have hc := utilStep_eq (h c List.mem_cons_self).1 (h c List.mem_cons_self).2 m
      have hrest : ∀ m', exec (utilStep acc) m' cs = exec plainStep m' cs :=
        ih fun c' hc' => h c' (List.mem_cons_of_mem c hc')
      simp only [exec, hc, hrest]

/-- A script of safe commands returns, and what none of them is given to write
stays. -/
theorem exec_safe (h : ∀ c ∈ cs, c.Safe acc) (m : Mem) :
    ∃ outs m', exec (utilStep acc) m cs = some (outs, m') ∧
      ∀ x, (∀ c ∈ cs, c.Spares x 1) → m' x = m x := by
  induction cs generalizing m with
  | nil => exact ⟨[], m, rfl, fun _ _ => rfl⟩
  | cons c cs ih =>
      obtain ⟨out, m₁, hrun, hspares⟩ := c.exists_run (h c List.mem_cons_self) m
      obtain ⟨outs, m', hrest, hframe⟩ := ih (fun c' hc' => h c' (List.mem_cons_of_mem c hc')) m₁
      have hstep : utilStep acc m c = some (out, m₁) := by rw [utilStep, hrun]
      refine ⟨out :: outs, m', exec_cons_iff.mpr ⟨out, m₁, outs, hstep, hrest, rfl⟩, ?_⟩
      intro x hx
      rw [hframe x fun c' hc' => hx c' (List.mem_cons_of_mem c hc'),
        hspares x (hx c List.mem_cons_self)]

/--
**Scripts.**  Any sequence of calls of `MemCpy`, `MemCmp` and every `MemSet`, on
any memory, each with a length from 0 on, its ranges allowed, copies that are safe
and fills that are exact: the calls all return, with the results and the memory
that their meanings give one after the other, and a byte that none of them is
given to write is as it was.
-/
theorem script_plain (h : ∀ c ∈ cs, c.Safe acc ∧ c.Exact) (m : Mem) :
    ∃ outs m', exec (utilStep acc) m cs = some (outs, m') ∧
      exec plainStep m cs = some (outs, m') ∧
      ∀ x, (∀ c ∈ cs, c.Spares x 1) → m' x = m x := by
  obtain ⟨outs, m', hrun, hframe⟩ := exec_safe (fun c hc => (h c hc).1) m
  exact ⟨outs, m', hrun, (exec_utilStep h m).symm.trans hrun, hframe⟩

end Scripts

/-- Readable and writable are the addresses below 256. -/
def Access.low : Access where
  readable x := decide (x < 256)
  writable x := decide (x < 256)
  readable_lt x h := by
    have h := of_decide_eq_true h
    omega
  writable_lt x h := by
    have h := of_decide_eq_true h
    omega

theorem Access.low_range {p n : Nat} (h : p + n ≤ 256) :
    Access.low.CanRead p n ∧ Access.low.CanWrite p n := by
  constructor <;> intro k hk <;> exact decide_eq_true (by omega)

/-- Three bytes are filled with a `short`, and four bytes copied from the second
of them on. -/
def fillAndCopy : List Command := [.set 64 0 (.short 258) 3, .cpy 60 0 65 0 4]

theorem fillAndCopy_safe : ∀ c ∈ fillAndCopy, c.Safe .low := by
  have h64 : address 64 0 = 64 := by decide
  have h60 : address 60 0 = 60 := by decide
  have h65 : address 65 0 = 65 := by decide
  intro c hc
  rcases List.mem_cons.mp hc with rfl | hc
  · exact ⟨3, rfl, (Access.low_range (by rw [h64]; decide)).2⟩
  · obtain rfl := List.mem_singleton.mp hc
    refine ⟨4, rfl, (Access.low_range (by rw [h65]; decide)).1,
      (Access.low_range (by rw [h60]; decide)).2, ?_⟩
    rw [h60, h65]
    exact Or.inl (Or.inr (Or.inl (by decide)))

theorem fillAndCopy_exact : ∀ c ∈ fillAndCopy, c.Exact := by
  intro c hc
  rcases List.mem_cons.mp hc with rfl | hc
  · exact Or.inl (by decide)
  · obtain rfl := List.mem_singleton.mp hc
    trivial

/-- The two commands run as their meanings do. -/
theorem script_plain_fillAndCopy :
    ∃ outs m', exec (utilStep .low) (fun x => UInt8.ofNat x) fillAndCopy = some (outs, m') ∧
      exec plainStep (fun x => UInt8.ofNat x) fillAndCopy = some (outs, m') ∧
      ∀ x, (∀ c ∈ fillAndCopy, c.Spares x 1) → m' x = UInt8.ofNat x :=
  script_plain (fun c hc => ⟨fillAndCopy_safe c hc, fillAndCopy_exact c hc⟩)
    fun x => UInt8.ofNat x

/-! ### Backup and restore -/

section Backup

variable {acc : Access} {data copy : UInt64} {dataOffset copyOffset byteLength : Int32} {n : Nat}
  {cs : List Command}

/-- Copy the data away, run the script, copy it back and compare. -/
def backup (data copy : UInt64) (dataOffset copyOffset byteLength : Int32) (cs : List Command) :
    List Command :=
  .cpy copy copyOffset data dataOffset byteLength :: cs ++
    [.cpy data dataOffset copy copyOffset byteLength,
      .cmp data dataOffset copy copyOffset byteLength]

/-- What the script leaves in the copy is what the data were. -/
theorem exec_backup {m m' : Mem} {outs : List (Option Bool)} (hn : byteLength.toInt = n)
    (hdisj : address data dataOffset + n ≤ address copy copyOffset ∨
      address copy copyOffset + n ≤ address data dataOffset)
    (hsafe : ∀ c ∈ backup data copy dataOffset copyOffset byteLength cs, c.Safe acc)
    (hspares : ∀ c ∈ cs, c.Spares (address copy copyOffset) n)
    (h : exec (utilStep acc) m (backup data copy dataOffset copyOffset byteLength cs) =
      some (outs, m')) :
    outs.getLast? = some (some true) ∧
      ∀ k < n, m' (address data dataOffset + k) = m (address data dataOffset + k) := by
  obtain ⟨rs, m₂, rs', haway, hback, rfl⟩ := exec_append_iff.mp h
  obtain ⟨r, m₁, rs₁, hcpy, hscript, rfl⟩ := exec_cons_iff.mp haway
  obtain ⟨r', m₃, rs₂, hcpy', hrest, rfl⟩ := exec_cons_iff.mp hback
  obtain ⟨r'', m₄, rs₃, hcmp, hnil, rfl⟩ := exec_cons_iff.mp hrest
  rw [utilStep_cpy hn (hsafe _ (by simp [backup]))] at hcpy hcpy'
  rw [utilStep_cmp hn (hsafe _ (by simp [backup]))] at hcmp
  obtain ⟨rfl, rfl⟩ := Prod.mk.inj (Option.some.inj hcpy)
  obtain ⟨rfl, rfl⟩ := Prod.mk.inj (Option.some.inj hcpy')
  obtain ⟨rfl, rfl⟩ := Prod.mk.inj (Option.some.inj hcmp)
  obtain ⟨rfl, rfl⟩ := Prod.mk.inj (Option.some.inj hnil)
  have hscriptSafe : ∀ c ∈ cs, c.Safe acc := fun c hc => hsafe c (by simp [backup, hc])
  obtain ⟨outs, v, hrun, hframe⟩ := exec_safe hscriptSafe
    (move (address copy copyOffset) (address data dataOffset) n m)
  obtain ⟨rfl, rfl⟩ := Prod.mk.inj (Option.some.inj (hrun.symm.trans hscript))
  constructor
  · -- ranges without a common byte are equal after a copy
    have hequal := (@move_eq_iff _ (address data dataOffset) (address copy copyOffset) n v).mpr
      fun k hk => by
        simp only [apart] at hk
        omega
    rw [decide_eq_true hequal, List.getLast?_append]
    rfl
  · intro k hk
    rw [move_add hk, hframe _ fun c hc => (hspares c hc).byte hk]
    exact move_add hk

/--
**Backup and restore.**  Two ranges without a common byte, both readable and
writable, and any script of safe commands that are not given the copy to write:
the whole runs through, the last comparison returns true, the data are as they
were before the script, and so is every other byte that nothing was given to
write.
-/
theorem backup_restores (hn : byteLength.toInt = n)
    (hdata : acc.CanRead (address data dataOffset) n ∧ acc.CanWrite (address data dataOffset) n)
    (hcopy : acc.CanRead (address copy copyOffset) n ∧ acc.CanWrite (address copy copyOffset) n)
    (hdisj : address data dataOffset + n ≤ address copy copyOffset ∨
      address copy copyOffset + n ≤ address data dataOffset)
    (hsafe : ∀ c ∈ cs, c.Safe acc) (hspares : ∀ c ∈ cs, c.Spares (address copy copyOffset) n)
    (m : Mem) :
    ∃ outs m', exec (utilStep acc) m (backup data copy dataOffset copyOffset byteLength cs) =
        some (outs, m') ∧
      outs.getLast? = some (some true) ∧
      (∀ k < n, m' (address data dataOffset + k) = m (address data dataOffset + k)) ∧
      ∀ x, (∀ c ∈ backup data copy dataOffset copyOffset byteLength cs, c.Spares x 1) →
        m' x = m x := by
  have hallsafe : ∀ c ∈ backup data copy dataOffset copyOffset byteLength cs, c.Safe acc := by
    intro c hc
    have haway : Command.Safe acc (.cpy copy copyOffset data dataOffset byteLength) :=
      ⟨n, hn, hdata.1, hcopy.2, Or.inl (by omega)⟩
    have hback : Command.Safe acc (.cpy data dataOffset copy copyOffset byteLength) :=
      ⟨n, hn, hcopy.1, hdata.2, Or.inl (by omega)⟩
    have hcmp : Command.Safe acc (.cmp data dataOffset copy copyOffset byteLength) :=
      ⟨n, hn, hdata.1, hcopy.1⟩
    simp only [backup, List.cons_append, List.mem_cons, List.mem_append, List.not_mem_nil,
      or_false] at hc
    rcases hc with rfl | hc | rfl | rfl
    · exact haway
    · exact hsafe c hc
    · exact hback
    · exact hcmp
  obtain ⟨outs, m', hrun, hframe⟩ := exec_safe hallsafe m
  obtain ⟨hresult, hrestored⟩ := exec_backup hn hdisj hallsafe hspares hrun
  exact ⟨outs, m', hrun, hresult, hrestored, hframe⟩

end Backup

/-- Five bytes are backed up and come back from the two commands. -/
theorem backup_restores_five :
    ∃ outs m', exec (utilStep .low) (fun x => UInt8.ofNat x)
        (backup 64 128 0 0 5 fillAndCopy) = some (outs, m') ∧
      outs.getLast? = some (some true) ∧
      (∀ k < 5, m' (address 64 0 + k) = UInt8.ofNat (address 64 0 + k)) ∧
      ∀ x, (∀ c ∈ backup 64 128 0 0 5 fillAndCopy, c.Spares x 1) → m' x = UInt8.ofNat x := by
  have h64 : address 64 0 = 64 := by decide
  have h128 : address 128 0 = 128 := by decide
  have h60 : address 60 0 = 60 := by decide
  refine @backup_restores .low 64 128 0 0 5 5 _ rfl ?_ ?_ ?_ fillAndCopy_safe ?_
    fun x => UInt8.ofNat x
  · exact Access.low_range (by rw [h64]; decide)
  · exact Access.low_range (by rw [h128]; decide)
  · rw [h64, h128]
    decide
  · intro c hc
    rcases List.mem_cons.mp hc with rfl | hc
    · simp only [Command.Spares, h64, h128]
      decide
    · obtain rfl := List.mem_singleton.mp hc
      simp only [Command.Spares, h60, h128]
      decide

/-! ### A comparison after a copy -/

section Check

variable {acc : Access} {dst src : UInt64} {dstOffset srcOffset byteLength : Int32} {n : Nat}

/--
**A comparison after a copy.**  Any length from 0 on, any two ranges a copy
between which is safe, overlapping or not: `MemCpy` and then `MemCmp` of the same
ranges return, and the comparison says that the copy is there exactly when the
source repeats at the distance of the ranges, as far as they overlap.
-/
theorem copy_check_iff (hn : byteLength.toInt = n) (hsrc : acc.CanRead (address src srcOffset) n)
    (hdst : acc.CanRead (address dst dstOffset) n) (hw : acc.CanWrite (address dst dstOffset) n)
    (hsafe : CopySafe (address dst dstOffset) (address src srcOffset) n) (m : Mem) :
    ∃ x m', exec (utilStep acc) m
        [.cpy dst dstOffset src srcOffset byteLength, .cmp dst dstOffset src srcOffset byteLength] =
          some ([none, some x], m') ∧
      (x = true ↔
        ∀ k, k + apart (address src srcOffset) (address dst dstOffset) < n →
          m (address src srcOffset + k + apart (address src srcOffset) (address dst dstOffset)) =
            m (address src srcOffset + k)) := by
  have hcpy := utilStep_cpy hn ⟨n, hn, hsrc, hw, hsafe⟩ m
  have hcmp := utilStep_cmp hn ⟨n, hn, hdst, hsrc⟩
    (move (address dst dstOffset) (address src srcOffset) n m)
  refine ⟨_, _, exec_cons_iff.mpr ⟨_, _, _, hcpy, exec_cons_iff.mpr ⟨_, _, _, hcmp, rfl, rfl⟩,
    rfl⟩, ?_⟩
  rw [decide_eq_true_eq]
  exact move_eq_iff

end Check

/-- The theorem at six bytes, four bytes down. -/
theorem copy_check_iff_six :
    ∃ x m', exec (utilStep .low) (fun a => UInt8.ofNat a) [.cpy 64 0 68 0 6, .cmp 64 0 68 0 6] =
        some ([none, some x], m') ∧
      (x = true ↔ ∀ k, k + apart (address 68 0) (address 64 0) < 6 →
        UInt8.ofNat (address 68 0 + k + apart (address 68 0) (address 64 0)) =
          UInt8.ofNat (address 68 0 + k)) := by
  have h64 : address 64 0 = 64 := by decide
  have h68 : address 68 0 = 68 := by decide
  refine @copy_check_iff .low 64 68 0 0 6 6 rfl ?_ ?_ ?_ ?_ fun a => UInt8.ofNat a
  · exact (Access.low_range (by rw [h68]; decide)).1
  · exact (Access.low_range (by rw [h64]; decide)).1
  · exact (Access.low_range (by rw [h64]; decide)).2
  · rw [h64, h68]
    exact Or.inr (Or.inl (by decide))

end SockLynx.Util
