import Mathlib.Data.Fin.VecNotation
import Mathlib.Data.Fintype.Basic
import Mathlib.Tactic.FinCases
import SockLynx.Lib.Casts
import SockLynx.Model.Managed
import SockLynx.Verified.ByteSwap

/-!
# `IPv6.New`

An IPv6 address is sixteen bytes overlaid with eight little-endian shorts.
`IPv6.New` stores its groups swapped in the shorts, so that the bytes are the
groups in network order.  A short is two bytes and the shorts cover the
address, so eight groups and sixteen bytes carry the same information.

## Main results

* `IPv6.shortAddr_ofGroups` — every short holds its group, swapped.
* `IPv6.ext_shortAddr` — an address is determined by its shorts.
* `newIPv6_bijective` — the groups and the addresses correspond one to one.
* `newIPv6_network_order` — bytes, shorts, both overloads, and the address
  inside an endpoint.
-/

namespace SockLynx.Managed

open SockLynx.Lib.Blocks
open SockLynx.Lib.ByteOrder
open SockLynx.Lib.Casts
open SockLynx.Util

/-! ## Bytes and shorts -/

section Overlay

variable {ip ip' : IPv6} {j k : Nat}

/-- The lower byte of a short comes first. -/
theorem IPv6.byteAddr_low (ip : IPv6) (k : Nat) :
    ip.byteAddr (2 * k) = (ip.shortAddr k).toUInt8 := by
  have hlow := (ip.mem (2 * k)).toNat_lt
  have hhigh := (ip.mem (2 * k + 1)).toNat_lt
  rw [IPv6.byteAddr, IPv6.shortAddr, Block.word_one, Block.word_two, ← UInt8.toNat_inj,
    UInt8.toNat_ofNat', UInt16.toNat_toUInt8, UInt16.toNat_ofNat']
  omega

theorem IPv6.byteAddr_high (ip : IPv6) (k : Nat) :
    ip.byteAddr (2 * k + 1) = (ip.shortAddr k >>> 8).toUInt8 := by
  have hlow := (ip.mem (2 * k)).toNat_lt
  have hhigh := (ip.mem (2 * k + 1)).toNat_lt
  rw [IPv6.byteAddr, IPv6.shortAddr, Block.word_one, Block.word_two, ← UInt8.toNat_inj,
    UInt8.toNat_ofNat', UInt16.toNat_toUInt8, UInt16.toNat_shiftRight, UInt16.toNat_ofNat',
    Nat.shiftRight_eq_div_pow]
  show _ = _ / 2 ^ 8 % 2 ^ 8
  omega

theorem IPv6.shortAddr_setShortAddr_self (h : k < 8) (short : UInt16) :
    (ip.setShortAddr k short).shortAddr k = short := by
  have hlt := short.toNat_lt
  have hfits : 2 * k + 2 ≤ slIp6Size := by
    show 2 * k + 2 ≤ 16
    omega
  rw [IPv6.shortAddr, IPv6.setShortAddr, Block.word_setWord_self _ hfits, ← UInt16.toNat_inj,
    UInt16.toNat_ofNat']
  omega

theorem IPv6.shortAddr_setShortAddr_of_ne (h : j ≠ k) (short : UInt16) :
    (ip.setShortAddr k short).shortAddr j = ip.shortAddr j := by
  rw [IPv6.shortAddr, IPv6.setShortAddr, Block.word_setWord_of_disjoint (by omega)]
  rfl

/-- The shorts cover the address. -/
theorem IPv6.ext_shortAddr (h : ∀ k < 8, ip.shortAddr k = ip'.shortAddr k) : ip = ip' := by
  have hbyte : ∀ a < 16, ip.byteAddr a = ip'.byteAddr a := by
    intro a ha
    obtain ⟨k, hk⟩ : ∃ k, a = 2 * k ∨ a = 2 * k + 1 := ⟨a / 2, by omega⟩
    cases hk with
    | inl hlow =>
        subst hlow
        rw [IPv6.byteAddr_low, IPv6.byteAddr_low, h k (by omega)]
    | inr hhigh =>
        subst hhigh
        rw [IPv6.byteAddr_high, IPv6.byteAddr_high, h k (by omega)]
  refine Vector.ext fun a ha => ?_
  have hmem := hbyte a ha
  simp only [IPv6.byteAddr, Block.word_one, UInt8.ofNat_toNat] at hmem
  rwa [Block.mem_of_lt ha, Block.mem_of_lt ha] at hmem

end Overlay

/-! ## Groups -/

/-- `IPv6.New` of the groups `s 0` to `s 7`. -/
def IPv6.ofGroups (s : Fin 8 → UInt16) : IPv6 :=
  IPv6.new (s 0) (s 1) (s 2) (s 3) (s 4) (s 5) (s 6) (s 7)

/-- `IPv6.New` of eight `int` -/
def IPv6.ofInts (n : Fin 8 → Int32) : IPv6 :=
  IPv6.newInt (n 0) (n 1) (n 2) (n 3) (n 4) (n 5) (n 6) (n 7)

section Groups

variable (s : Fin 8 → UInt16) (k : Fin 8)

/-- Every short holds its group, swapped. -/
theorem IPv6.shortAddr_ofGroups : (IPv6.ofGroups s).shortAddr k = htoNUshort (s k) := by
  fin_cases k <;>
    simp (disch := decide) only [IPv6.ofGroups, IPv6.new, IPv6.shortAddr_setShortAddr_self,
      IPv6.shortAddr_setShortAddr_of_ne] <;>
    rfl

theorem IPv6.ntoH_shortAddr_ofGroups :
    ntoHUshort ((IPv6.ofGroups s).shortAddr k) = s k := by
  rw [IPv6.shortAddr_ofGroups]
  exact swapsBytes_ushort.unswap_swap (s k)

/-- The first byte of a group is its higher one. -/
theorem IPv6.byteAddr_ofGroups_high :
    (IPv6.ofGroups s).byteAddr (2 * k) = (s k >>> 8).toUInt8 := by
  rw [IPv6.byteAddr_low, IPv6.shortAddr_ofGroups, toUInt8_htoNUshort]

theorem IPv6.byteAddr_ofGroups_low :
    (IPv6.ofGroups s).byteAddr (2 * k + 1) = (s k).toUInt8 := by
  rw [IPv6.byteAddr_high, IPv6.shortAddr_ofGroups, toUInt8_htoNUshort_shiftRight]

end Groups

/-- The groups and the addresses correspond one to one. -/
theorem newIPv6_bijective : Function.Bijective IPv6.ofGroups := by
  constructor
  · intro s t h
    funext k
    rw [← IPv6.ntoH_shortAddr_ofGroups s k, h, IPv6.ntoH_shortAddr_ofGroups]
  · intro ip
    refine ⟨fun k => ntoHUshort (ip.shortAddr k), IPv6.ext_shortAddr fun k hk => ?_⟩
    have hshort := IPv6.shortAddr_ofGroups (fun k => ntoHUshort (ip.shortAddr k)) ⟨k, hk⟩
    rw [swapsBytes_ushort.swap_unswap] at hshort
    exact hshort

/-- The cast of an `int` that is a `ushort` keeps its value. -/
theorem ushort_eq {n : Int32} (h : 0 ≤ n.toInt ∧ n.toInt ≤ 65535) :
    ushort n = UInt16.ofNat n.toInt.toNat := by
  have hcast := toNat_toUInt32 n
  rw [← UInt16.toNat_inj, ushort, UInt32.toNat_toUInt16, UInt16.toNat_ofNat']
  omega

theorem IPv6.ofInts_eq {n : Fin 8 → Int32}
    (h : ∀ k, 0 ≤ (n k).toInt ∧ (n k).toInt ≤ 65535) :
    IPv6.ofInts n = IPv6.ofGroups fun k => UInt16.ofNat (n k).toInt.toNat := by
  rw [IPv6.ofInts, IPv6.newInt, ushort_eq (h 0), ushort_eq (h 1), ushort_eq (h 2),
    ushort_eq (h 3), ushort_eq (h 4), ushort_eq (h 5), ushort_eq (h 6), ushort_eq (h 7)]
  rfl

/-! ## Endpoints -/

/-- The address lies at offset 8 of the endpoint, whatever lies around it. -/
theorem sub_newV6 (ctx : Context) (port : UInt16) (addr6 : IPv6) (flowinfo scopeId : UInt32) :
    Block.sub (Endpoint.newV6 ctx port addr6 flowinfo scopeId) 8 slIp6Size = addr6 :=
  Block.sub_store_self addr6 (by decide)

/--
**Network order.**  For all eight groups the bytes of `IPv6.New` are the higher
and the lower byte of each group in turn, and `NtoH` of a short is its group;
the groups and the addresses correspond one to one; eight `int` in 0..65535 give
the address of the same eight `ushort`; and an endpoint that `Endpoint.NewV6`
builds with the address, by either overload, has its bytes at offset 8.
-/
theorem newIPv6_network_order :
    (∀ (s : Fin 8 → UInt16) (k : Fin 8),
        (IPv6.ofGroups s).byteAddr (2 * k) = (s k >>> 8).toUInt8 ∧
          (IPv6.ofGroups s).byteAddr (2 * k + 1) = (s k).toUInt8 ∧
          ntoHUshort ((IPv6.ofGroups s).shortAddr k) = s k) ∧
      Function.Bijective IPv6.ofGroups ∧
      (∀ n : Fin 8 → Int32, (∀ k, 0 ≤ (n k).toInt ∧ (n k).toInt ≤ 65535) →
        IPv6.ofInts n = IPv6.ofGroups fun k => UInt16.ofNat (n k).toInt.toNat) ∧
      ∀ (s : Fin 8 → UInt16) (ctx : Context) (flowinfo scopeId : UInt32),
        (∀ port : UInt16,
          Block.sub (Endpoint.newV6 ctx port (IPv6.ofGroups s) flowinfo scopeId) 8 slIp6Size =
            IPv6.ofGroups s) ∧
        ∀ port : Int32,
          Block.sub (Endpoint.newV6Int ctx port (IPv6.ofGroups s) flowinfo scopeId) 8 slIp6Size =
            IPv6.ofGroups s :=
  ⟨fun s k => ⟨IPv6.byteAddr_ofGroups_high s k, IPv6.byteAddr_ofGroups_low s k,
      IPv6.ntoH_shortAddr_ofGroups s k⟩,
    newIPv6_bijective, fun _ h => IPv6.ofInts_eq h,
    fun _ ctx flowinfo scopeId => ⟨fun port => sub_newV6 ctx port _ flowinfo scopeId,
      fun port => sub_newV6 ctx (ushort port) _ flowinfo scopeId⟩⟩

/-- The theorem at fe80::300e:5130:704b:a647, given as eight `int`. -/
theorem newIPv6_network_order_linkLocal :
    IPv6.newInt 0xfe80 0 0 0 0x300e 0x5130 0x704b 0xa647 =
        IPv6.new 0xfe80 0 0 0 0x300e 0x5130 0x704b 0xa647 ∧
      (IPv6.new 0xfe80 0 0 0 0x300e 0x5130 0x704b 0xa647).byteAddr 0 = 0xfe :=
  ⟨newIPv6_network_order.2.2.1 ![0xfe80, 0, 0, 0, 0x300e, 0x5130, 0x704b, 0xa647] (by decide),
    (newIPv6_network_order.1 ![0xfe80, 0, 0, 0, 0x300e, 0x5130, 0x704b, 0xa647] 0).1⟩

end SockLynx.Managed
