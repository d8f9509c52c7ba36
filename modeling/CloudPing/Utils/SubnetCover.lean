import CloudPing.Utils.IPRange
import Mathlib.Data.Set.Lattice

/-!
# What `IsSubset` covers

The addresses of a network are those of its length that agree with it under the mask.  They
have the numbers of one interval (`ofBytes_mem_iff`), and every number of the interval is that
of an address (`exists_address`).  So `IsSubset`, which merges intervals of numbers, says
whether a union of sets of addresses has all the addresses of a subnet
(`isSubset_iff_subset_iUnion`).
-/

namespace CloudPing.Utils

open Interval Web

/-- The addresses of a network. -/
def IPNet.addresses (n : IPNet) : Set IP :=
  {x | x.length = n.ip.length ∧ List.zipWith (· &&& ·) x n.mask = n.ip}

/-- A network of `ParseCIDR` that does not map an address of the other family. -/
def NativeCIDR (n : IPNet) : Prop := (∃ s ip, parseCIDR s = some (ip, n)) ∧ n.Native

section Addresses

variable {n n' : IPNet} {ones : Nat} {x : IP}

theorem ofBytes_mem_iff (hp : n.Parsed ones) (hx : x.length = n.ip.length) :
    (ipNetToRange n).Has (ofBytes x) ↔ x ∈ n.addresses := by
  rw [has_ipNetToRange_iff hp hx]
  exact ⟨fun h => ⟨hx, h⟩, fun h => h.2⟩

/-- The interval of a network has numbers of its addresses only. -/
theorem exists_address (hp : n.Parsed ones) {v : Nat} (hv : (ipNetToRange n).Has v) :
    ∃ x ∈ n.addresses, ofBytes x = v := by
  have hlast := (ofBytes_mask (rfl : n.ip.length = n.ip.length) hp.le).2
  have hlt := ofBytes_lt (setHostBits n.ip n.mask)
  rw [← maskBytes_of_parsed hp, hp.masked] at hlast
  have hle := hv.2
  rw [ipNetToRange_eq hp, ← hlast] at hle
  rw [length_setHostBits] at hlt
  obtain ⟨x, hl, rfl⟩ := exists_ofBytes _ (Nat.lt_of_le_of_lt hle hlt)
  exact ⟨x, (ofBytes_mem_iff hp hl).1 hv, rfl⟩

theorem NativeCIDR.parsed (h : NativeCIDR n) : ∃ ones, n.Parsed ones := by
  obtain ⟨s, ip, hs⟩ := h.1
  exact parseCIDR_parsed hs

/-- Two native networks are of one family if their addresses are of one length. -/
theorem NativeCIDR.family_iff (h : NativeCIDR n) (h' : NativeCIDR n') :
    n.ip.to4.isSome = n'.ip.to4.isSome ↔ n.ip.length = n'.ip.length := by
  obtain ⟨ones, hp⟩ := h.parsed
  obtain ⟨ones', hp'⟩ := h'.parsed
  rw [h.2.to4_isSome, h'.2.to4_isSome, decide_eq_decide]
  have hl := hp.length
  have hl' := hp'.length
  omega

end Addresses

/-- `IsSubset` is true exactly if every address of the subnet is in the union of the allowed
subnets of its family. -/
theorem isSubset_iff_subset_iUnion (subnetA : IPNet) (allowedSets : List IPNet)
    (hA : NativeCIDR subnetA) (hallowed : ∀ n ∈ allowedSets, NativeCIDR n) :
    isSubset subnetA allowedSets = true ↔
      subnetA.addresses ⊆ ⋃ n ∈ {n | n ∈ allowedSets ∧ n.ip.length = subnetA.ip.length},
        n.addresses := by
  obtain ⟨ones, hp⟩ := hA.parsed
  rw [isSubset_iff (ipNetToRange_le hp)]
  constructor
  · intro hall x hx
    obtain ⟨n, hn, hfamily, hhas⟩ := hall (ofBytes x) ((ofBytes_mem_iff hp hx.1).2 hx)
    have hlength := ((hallowed n hn).family_iff hA).1 hfamily
    obtain ⟨ones', hp'⟩ := (hallowed n hn).parsed
    exact Set.mem_biUnion ⟨hn, hlength⟩ ((ofBytes_mem_iff hp' (hx.1.trans hlength.symm)).1 hhas)
  · intro hsub v hv
    obtain ⟨x, hx, rfl⟩ := exists_address hp hv
    obtain ⟨n, ⟨hn, hlength⟩, hxn⟩ := Set.mem_iUnion₂.1 (hsub hx)
    obtain ⟨ones', hp'⟩ := (hallowed n hn).parsed
    exact ⟨n, hn, ((hallowed n hn).family_iff hA).2 hlength,
      (ofBytes_mem_iff hp' (hx.1.trans hlength.symm)).2 hxn⟩

/-- `10.0.0.0/23`. -/
def wholeNet : IPNet := ⟨[10, 0, 0, 0], cidrMask 23 32⟩

/-- Its two halves, and a subnet of the other family. -/
def halfNets : List IPNet :=
  [⟨[10, 0, 1, 0], cidrMask 24 32⟩,
    ⟨[253, 0, 0, 0, 0, 0, 0, 0, 0, 0, 0, 0, 0, 0, 0, 0], cidrMask 64 128⟩,
    ⟨[10, 0, 0, 0], cidrMask 24 32⟩]

theorem isSubset_iff_halves :
    isSubset wholeNet halfNets = true ↔
      wholeNet.addresses ⊆
        ⋃ n ∈ {n | n ∈ halfNets ∧ n.ip.length = wholeNet.ip.length}, n.addresses := by
  refine isSubset_iff_subset_iUnion wholeNet halfNets
    ⟨⟨"10.0.0.0/23", [0, 0, 0, 0, 0, 0, 0, 0, 0, 0, 255, 255, 10, 0, 0, 0], by decide⟩, by decide⟩
    fun n hn => ?_
  rw [halfNets, List.mem_cons, List.mem_cons, List.mem_singleton] at hn
  rcases hn with rfl | rfl | rfl
  · exact ⟨⟨"10.0.1.0/24", [0, 0, 0, 0, 0, 0, 0, 0, 0, 0, 255, 255, 10, 0, 1, 0], by decide⟩,
      by decide⟩
  · exact ⟨⟨"fd00::/64", [253, 0, 0, 0, 0, 0, 0, 0, 0, 0, 0, 0, 0, 0, 0, 0], by decide⟩,
      by decide⟩
  · exact ⟨⟨"10.0.0.0/24", [0, 0, 0, 0, 0, 0, 0, 0, 0, 0, 255, 255, 10, 0, 0, 0], by decide⟩,
      by decide⟩

end CloudPing.Utils
