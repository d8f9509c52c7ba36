import CloudPing.Grid.Position
import CloudPing.Interval.Merge
import CloudPing.Utils.IPNet
import CloudPing.Web.IPAddr
import Mathlib.Data.List.Sort

/-!
# Subnets as intervals, and the gates on them

`IsSubset` turns subnets into intervals of numbers, sorts and merges the intervals of the
allowed subnets of one family, and looks for one that holds the interval of the subnet it is
asked about.  The other gates ask `IPNet.Contains` for one address.

Under a mask of leading ones an address is a multiple of the size of its subnet
(`ofBytes_mask`), so `Contains` says that the number of the address lies in the interval of
the subnet (`has_ipNetToRange_iff`).  This needs both addresses in the same form.  An IPv4
address has two, of four bytes and of sixteen, and their numbers lie far apart.
-/

namespace CloudPing.Utils

open Interval Web

/-! ## The source -/

/-- The bytes with all bits outside the mask set. -/
def setHostBits : List UInt8 → List UInt8 → List UInt8
  | b :: ip, m :: mask => (b ||| ~~~m) :: setHostBits ip mask
  | ip, _ => ip

/-- The first and the last address of a subnet as numbers. -/
def ipNetToRange (n : IPNet) : Range :=
  let masked := n.ip.mask n.mask
  let startIP := if masked = [] then n.ip else masked
  ⟨ofBytes startIP, ofBytes (setHostBits startIP n.mask)⟩

def isSubset (subnetA : IPNet) (allowedSets : List IPNet) : Bool :=
  let isIPv4A := subnetA.ip.to4.isSome
  let rangeA := ipNetToRange subnetA
  let ranges := (allowedSets.filter fun allowed => allowed.ip.to4.isSome = isIPv4A).map ipNetToRange
  match ranges.mergeSort (fun r r' => decide (r.first ≤ r'.first)) with
  | [] => false
  | cur :: ranges => (merge cur ranges).any rangeA.within

/-- The addresses that are in a range, once for each range. -/
def filterIPs (ips : List IP) (respondRange : List IPNet) : List IP :=
  ips.flatMap fun ip => (respondRange.filter fun rangeCIDR => rangeCIDR.contains ip).map fun _ => ip

theorem length_setHostBits (ip mask : List UInt8) : (setHostBits ip mask).length = ip.length := by
  induction ip generalizing mask with
  | nil =>
    cases mask with
    | nil => rfl
    | cons m mask => rfl
  | cons b ip ih =>
    cases mask with
    | nil => rfl
    | cons m mask => rw [setHostBits, List.length_cons, ih, List.length_cons]

/-! ## What `IsSubset` decides -/

theorem sorted_mergeSort (rs : List Range) :
    Sorted (rs.mergeSort fun r r' => decide (r.first ≤ r'.first)) := by
  refine (List.pairwise_mergeSort ?_ ?_ rs).imp fun h => of_decide_eq_true h
  · intro a b c hab hbc
    exact decide_eq_true (Nat.le_trans (of_decide_eq_true hab) (of_decide_eq_true hbc))
  · intro a b
    simp only [Bool.or_eq_true, decide_eq_true_eq]
    exact Nat.le_total _ _

/-- `IsSubset` is true where every number of the subnet is in an interval of its family. -/
theorem isSubset_iff {subnetA : IPNet} {allowedSets : List IPNet}
    (h : (ipNetToRange subnetA).first ≤ (ipNetToRange subnetA).last) :
    isSubset subnetA allowedSets = true ↔
      ∀ x, (ipNetToRange subnetA).Has x → ∃ n ∈ allowedSets,
        n.ip.to4.isSome = subnetA.ip.to4.isSome ∧ (ipNetToRange n).Has x := by
  have hcovers : ∀ (rs : List Range) (x : Nat),
      Covers (rs.mergeSort fun r r' => decide (r.first ≤ r'.first)) x ↔ Covers rs x := by
    intro rs x
    simp only [Covers, List.mem_mergeSort]
  have hranges : ∀ x, Covers ((allowedSets.filter fun allowed =>
      allowed.ip.to4.isSome = subnetA.ip.to4.isSome).map ipNetToRange) x ↔
        ∃ n ∈ allowedSets, n.ip.to4.isSome = subnetA.ip.to4.isSome ∧ (ipNetToRange n).Has x := by
    intro x
    simp [Covers, and_assoc]
  rw [isSubset, forall₂_congr fun x _ => (hranges x).symm.trans (hcovers _ x).symm]
  have hsorted := sorted_mergeSort ((allowedSets.filter fun allowed =>
    allowed.ip.to4.isSome = subnetA.ip.to4.isSome).map ipNetToRange)
  split
  next hnil =>
    refine iff_of_false (by decide) fun hall => ?_
    obtain ⟨r, hr, _⟩ := hall _ ⟨Nat.le_refl _, h⟩
    rw [hnil] at hr
    cases hr
  next cur ranges hcons =>
    rw [hcons] at hsorted ⊢
    rw [within_iff_covers h (apart_merge hsorted)]
    simp only [covers_merge hsorted]

/-! ## Subnets as intervals -/

/-- A byte under a mask that starts with fewer than eight ones, with and without the bits
outside the mask. -/
theorem toNat_and_mask (b : UInt8) {n : Nat} (h : n < 8) :
    (b &&& ~~~((255 : UInt8) >>> UInt8.ofNat n)).toNat = b.toNat / 2 ^ (8 - n) * 2 ^ (8 - n) ∧
      ((b &&& ~~~((255 : UInt8) >>> UInt8.ofNat n)) |||
        ~~~~~~((255 : UInt8) >>> UInt8.ofNat n)).toNat =
          b.toNat / 2 ^ (8 - n) * 2 ^ (8 - n) + (2 ^ (8 - n) - 1) := by
  have hall : ∀ n : Fin 8, ∀ v : Fin 256,
      (UInt8.ofFin v &&& ~~~((255 : UInt8) >>> UInt8.ofNat n)).toNat =
          v.val / 2 ^ (8 - n.val) * 2 ^ (8 - n.val) ∧
        ((UInt8.ofFin v &&& ~~~((255 : UInt8) >>> UInt8.ofNat n)) |||
          ~~~~~~((255 : UInt8) >>> UInt8.ofNat n)).toNat =
            v.val / 2 ^ (8 - n.val) * 2 ^ (8 - n.val) + (2 ^ (8 - n.val) - 1) := by
    decide +kernel
  exact hall ⟨n, h⟩ b.toFin

theorem and_ones (b : UInt8) : b &&& 255 = b ∧ b ||| ~~~255 = b := by
  have hall : ∀ v : Fin 256, UInt8.ofFin v &&& 255 = UInt8.ofFin v ∧
      UInt8.ofFin v ||| ~~~255 = UInt8.ofFin v := by decide +kernel
  exact hall b.toFin

/-- Cutting the low `8 * l + k` bits of a byte and `l` bytes cuts `k` bits of the byte. -/
theorem cut_cons (b v l k : Nat) (h : v < 2 ^ (8 * l)) :
    (b * 2 ^ (8 * l) + v) / 2 ^ (8 * l + k) * 2 ^ (8 * l + k) =
      b / 2 ^ k * 2 ^ k * 2 ^ (8 * l) := by
  rw [Nat.pow_add, ← Nat.div_div_eq_div_mul, Grid.div_position h, Nat.mul_comm (2 ^ (8 * l)),
    Nat.mul_assoc]

/-- Cutting at most `8 * l` bits of a byte and `l` bytes leaves the byte. -/
theorem cut_cons_low (b v l k : Nat) (h : k ≤ 8 * l) :
    (b * 2 ^ (8 * l) + v) / 2 ^ k * 2 ^ k = b * 2 ^ (8 * l) + v / 2 ^ k * 2 ^ k := by
  have hsplit : b * 2 ^ (8 * l) = b * 2 ^ (8 * l - k) * 2 ^ k := by
    rw [Nat.mul_assoc, ← Nat.pow_add, Nat.sub_add_cancel h]
  rw [hsplit, Nat.add_comm, Nat.add_mul_div_right _ _ (Nat.two_pow_pos k), Nat.add_mul,
    Nat.add_comm]

/-- The bytes of a number under a mask of leading ones are the number without its remainder,
and with all bits outside the mask they are the last number with this quotient. -/
theorem ofBytes_mask {l n : Nat} {ip : List UInt8} (hl : ip.length = l) (hn : n ≤ 8 * l) :
    ofBytes (List.zipWith (· &&& ·) ip (maskBytes l n)) =
        ofBytes ip / 2 ^ (8 * l - n) * 2 ^ (8 * l - n) ∧
      ofBytes (setHostBits (List.zipWith (· &&& ·) ip (maskBytes l n)) (maskBytes l n)) =
        ofBytes ip / 2 ^ (8 * l - n) * 2 ^ (8 * l - n) + (2 ^ (8 * l - n) - 1) := by
  induction l generalizing n ip with
  | zero =>
    obtain rfl := List.eq_nil_of_length_eq_zero hl
    exact ⟨by simp [ofBytes], by simp [ofBytes, maskBytes, setHostBits]⟩
  | succ l ih =>
    obtain ⟨b, bs, rfl⟩ := List.exists_cons_of_length_eq_add_one hl
    have hbs : bs.length = l := by simpa using hl
    have hlt : ofBytes bs < 2 ^ (8 * l) := hbs ▸ ofBytes_lt bs
    have hlen : ∀ m, (List.zipWith (· &&& ·) bs (maskBytes l m)).length = l := by
      intro m
      rw [List.length_zipWith, length_maskBytes, hbs, Nat.min_self]
    have hset : ∀ m, (setHostBits (List.zipWith (· &&& ·) bs (maskBytes l m))
        (maskBytes l m)).length = l := fun m => by rw [length_setHostBits, hlen]
    rw [maskBytes]
    by_cases h8 : 8 ≤ n
    · obtain ⟨hand, hor⟩ := and_ones b
      obtain ⟨ih₁, ih₂⟩ := ih hbs (n := n - 8) (by omega)
      have hk : 8 * (l + 1) - n = 8 * l - (n - 8) := by omega
      rw [if_pos h8, List.zipWith_cons_cons, setHostBits, ofBytes, ofBytes, ofBytes, hlen, hset,
        hand, hor, ih₁, ih₂, hbs, hk, cut_cons_low _ _ _ _ (by omega)]
      exact ⟨rfl, (Nat.add_assoc _ _ _).symm⟩
    · obtain ⟨hand, hor⟩ := toNat_and_mask b (Nat.not_le.1 h8)
      obtain ⟨ih₁, ih₂⟩ := ih hbs (n := 0) (by omega)
      have hk : 8 * (l + 1) - n = 8 * l + (8 - n) := by omega
      have hzero : ofBytes bs / 2 ^ (8 * l - 0) * 2 ^ (8 * l - 0) = 0 := by
        rw [Nat.sub_zero, Nat.div_eq_of_lt hlt, Nat.zero_mul]
      rw [hzero] at ih₁ ih₂
      rw [if_neg h8, List.zipWith_cons_cons, setHostBits, ofBytes, ofBytes, ofBytes, hlen, hset,
        hand, hor, ih₁, ih₂, hbs, hk, cut_cons _ _ _ _ hlt]
      refine ⟨rfl, ?_⟩
      have hp := Nat.two_pow_pos (8 * l)
      have hq := Nat.two_pow_pos (8 - n)
      rw [Nat.pow_add, Nat.add_mul, Nat.sub_mul, Nat.sub_zero, Nat.mul_comm (2 ^ (8 * l))]
      have hle : 2 ^ (8 * l) ≤ 2 ^ (8 - n) * 2 ^ (8 * l) := Nat.le_mul_of_pos_left _ hq
      omega

theorem ofBytes_inj {bs cs : List UInt8} (hl : bs.length = cs.length)
    (h : ofBytes bs = ofBytes cs) : bs = cs := by
  induction bs generalizing cs with
  | nil => exact (List.eq_nil_of_length_eq_zero hl.symm).symm
  | cons b bs ih =>
    obtain ⟨c, cs, rfl⟩ := List.exists_cons_of_length_eq_add_one hl.symm
    have hl' : bs.length = cs.length := by simpa using hl
    have hb := ofBytes_lt bs
    have hc := ofBytes_lt cs
    rw [ofBytes, ofBytes, ← hl'] at h
    rw [← hl'] at hc
    obtain ⟨hhead, htail⟩ := Grid.position_inj hb hc h
    rw [UInt8.toNat_inj.1 hhead, ih hl' htail]

variable {n : IPNet} {ones : Nat}

theorem maskBytes_of_parsed (hp : n.Parsed ones) : n.mask = maskBytes n.ip.length ones := by
  have hbits := hp.bits
  have hle := hp.le
  have hdiv : 8 * n.ip.length / 8 = n.ip.length := by omega
  rw [hp.mask, cidrMask, if_neg (by omega), if_neg (by omega), hdiv]

/-- The interval of a network of `ParseCIDR`, as the numbers with the quotient of its address. -/
theorem ipNetToRange_eq (hp : n.Parsed ones) :
    ipNetToRange n =
      ⟨ofBytes n.ip / 2 ^ (8 * n.ip.length - ones) * 2 ^ (8 * n.ip.length - ones),
        ofBytes n.ip / 2 ^ (8 * n.ip.length - ones) * 2 ^ (8 * n.ip.length - ones) +
          (2 ^ (8 * n.ip.length - ones) - 1)⟩ := by
  have hmask := maskBytes_of_parsed hp
  obtain ⟨hfirst, hlast⟩ := ofBytes_mask (rfl : n.ip.length = n.ip.length) hp.le
  rw [← hmask, hp.masked] at hfirst hlast
  have hself : n.ip.mask n.mask = n.ip := (mask_of_length hp.length_mask.symm).trans hp.masked
  simp only [ipNetToRange, hself, ite_self]
  rw [hlast, ← hfirst]

theorem ipNetToRange_le (hp : n.Parsed ones) :
    (ipNetToRange n).first ≤ (ipNetToRange n).last := by
  rw [ipNetToRange_eq hp]
  exact Nat.le_add_right _ _

/-- An address in the form of a network is in its interval where it agrees with it under the
mask. -/
theorem has_ipNetToRange_iff (hp : n.Parsed ones) {h : IP} (hl : h.length = n.ip.length) :
    (ipNetToRange n).Has (ofBytes h) ↔ List.zipWith (· &&& ·) h n.mask = n.ip := by
  have hmask := maskBytes_of_parsed hp
  have hn := (ofBytes_mask (rfl : n.ip.length = n.ip.length) hp.le).1
  have hh := (ofBytes_mask hl hp.le).1
  rw [← hmask, hp.masked] at hn
  rw [← hmask] at hh
  have hlen : (List.zipWith (· &&& ·) h n.mask).length = n.ip.length := by
    rw [List.length_zipWith, hp.length_mask, hl, Nat.min_self]
  have hpos := Nat.two_pow_pos (8 * n.ip.length - ones)
  rw [ipNetToRange_eq hp, ← hn]
  constructor
  · rintro ⟨hle, hge⟩
    refine ofBytes_inj hlen ?_
    simp only at hle hge
    have hquot : ofBytes h / 2 ^ (8 * n.ip.length - ones) =
        ofBytes n.ip / 2 ^ (8 * n.ip.length - ones) := by
      refine Nat.div_eq_of_lt_le ?_ ?_
      · rw [← hn]
        exact hle
      · rw [Nat.add_mul, Nat.one_mul, ← hn]
        omega
    rw [hh, hquot, ← hn]
  · intro he
    rw [he] at hh
    have hmod := Nat.div_add_mod (ofBytes h) (2 ^ (8 * n.ip.length - ones))
    have hlt := Nat.mod_lt (ofBytes h) hpos
    rw [Nat.mul_comm, ← hh] at hmod
    exact ⟨by simp only; omega, by simp only; omega⟩

/-! ## One address -/

/-- The network of one address. -/
def single (h : IP) : IPNet := ⟨h, cidrMask (8 * h.length) (8 * h.length)⟩

theorem parsed_single {h : IP} (hl : h.length = 4 ∨ h.length = 16) :
    (single h).Parsed (8 * h.length) := by
  have hm : cidrMask (8 * h.length) (8 * h.length) = maskBytes h.length (8 * h.length) := by
    rw [cidrMask, if_neg (by omega), if_neg (by omega)]
    congr
    omega
  have hself : List.zipWith (· &&& ·) h (maskBytes h.length (8 * h.length)) = h := by
    refine ofBytes_inj ?_ ?_
    · rw [List.length_zipWith, length_maskBytes, Nat.min_self]
    · rw [(ofBytes_mask rfl (Nat.le_refl _)).1, Nat.sub_self, Nat.pow_zero, Nat.div_one, Nat.mul_one]
  have hp := parsed_mask hl (Nat.le_refl (8 * h.length))
  rw [hm, hself, ← hm] at hp
  exact hp

theorem ipNetToRange_single {h : IP} (hl : h.length = 4 ∨ h.length = 16) :
    ipNetToRange (single h) = ⟨ofBytes h, ofBytes h⟩ := by
  rw [ipNetToRange_eq (parsed_single hl)]
  simp [single]

/-- `IsSubset` admits an address where an interval of its family has its number. -/
theorem isSubset_single {h : IP} (hl : h.length = 4 ∨ h.length = 16) (allowedSets : List IPNet) :
    isSubset (single h) allowedSets = true ↔
      ∃ n ∈ allowedSets, n.ip.to4.isSome = h.to4.isSome ∧ (ipNetToRange n).Has (ofBytes h) := by
  rw [isSubset_iff (ipNetToRange_le (parsed_single hl)), ipNetToRange_single hl]
  constructor
  · intro hall
    exact hall (ofBytes h) ⟨Nat.le_refl _, Nat.le_refl _⟩
  · rintro hex x ⟨hle, hge⟩
    obtain rfl := Nat.le_antisymm hle hge
    exact hex

/-- The number of a mapped address is beyond those of four bytes. -/
theorem le_ofBytes_mapped {ip : IP} (hl : ip.length = 16) (h4 : ip.to4.isSome = true) :
    2 ^ 32 ≤ ofBytes ip := by
  rw [to4_of_length hl] at h4
  split_ifs at h4 with hp
  · have hpfx : ofBytes v4InV6Prefix = 0xffff := by decide
    rw [← List.take_append_drop 12 ip, ofBytes_append, hp, List.length_drop, hl, hpfx]
    omega
  · cases h4

theorem to4_of_length_four {ip : IP} (hl : ip.length = 4) : ip.to4 = some ip := if_pos hl

/-- An interval that has the number of an address of its family has it in the same form. -/
theorem length_eq_of_has (hp : n.Parsed ones) {h : IP} (hl : h.length = 4 ∨ h.length = 16)
    (hf : n.ip.to4.isSome = h.to4.isSome) (hx : (ipNetToRange n).Has (ofBytes h)) :
    n.ip.length = h.length := by
  rcases hp.length with hn | hn <;> rcases hl with hl | hl
  · rw [hn, hl]
  · -- the interval ends below `2 ^ 32`
    rw [to4_of_length_four hn] at hf
    have hle := le_ofBytes_mapped hl hf.symm
    have hlast := hx.2
    have hmask := (ofBytes_mask (rfl : n.ip.length = n.ip.length) hp.le).2
    have hlt := ofBytes_lt (setHostBits n.ip n.mask)
    rw [← maskBytes_of_parsed hp, hp.masked] at hmask
    rw [ipNetToRange_eq hp, ← hmask] at hlast
    rw [length_setHostBits, hn] at hlt
    simp only at hlast
    omega
  · rw [to4_of_length_four hl] at hf
    have hle := le_ofBytes_mapped hn hf
    have hfirst := hx.1
    have hself := (ofBytes_mask (rfl : n.ip.length = n.ip.length) hp.le).1
    have hlt := ofBytes_lt h
    rw [← maskBytes_of_parsed hp, hp.masked] at hself
    rw [ipNetToRange_eq hp, ← hself] at hfirst
    rw [hl] at hlt
    simp only at hfirst
    omega
  · rw [hn, hl]

/-- What `Contains` says of an address of sixteen bytes and a network that maps one of four. -/
theorem contains_mapped (hp : n.Parsed ones) (hn : n.ip.length = 16) {ip4 : IP}
    (h4 : n.ip.to4 = some ip4) {h : IP} (hl : h.length = 16) :
    n.contains h = true ↔
      h.to4.isSome = true ∧ List.zipWith (· &&& ·) h n.mask = n.ip := by
  have hmask : n.mask.length = 16 := by rw [hp.length_mask, hn]
  have hpre : n.ip.take 12 = v4InV6Prefix ∧ ip4 = n.ip.drop 12 := by
    rw [to4_of_length hn] at h4
    split_ifs at h4 with hpre
    cases h4
    exact ⟨hpre, rfl⟩
  have hnn : n.networkNumberAndMask = (n.ip.drop 12, n.mask.drop 12) := by
    have hlen4 : (n.ip.drop 12).length = 4 := by rw [List.length_drop, hn]
    simp only [IPNet.networkNumberAndMask, h4, Option.getD_some, hpre.2, hlen4, hmask]
    rfl
  have hcut : List.zipWith (· &&& ·) (n.ip.drop 12) (n.mask.drop 12) = n.ip.drop 12 := by
    rw [← List.drop_zipWith, hp.masked]
  have hhead : List.zipWith (· &&& ·) v4InV6Prefix (n.mask.take 12) = v4InV6Prefix := by
    rw [← hpre.1, ← List.take_zipWith, hp.masked]
  simp only [IPNet.contains, hnn, hcut, decide_eq_true_eq]
  rw [to4_of_length hl]
  split
  next hh =>
    simp only [Option.getD_some, Option.isSome_some, List.length_drop, hl, hn, true_and]
    constructor
    · intro heq
      rw [← List.take_append_drop 12 (List.zipWith (· &&& ·) h n.mask), List.take_zipWith,
        List.drop_zipWith, hh, hhead, ← heq, ← hpre.1, List.take_append_drop]
    · intro heq
      rw [← heq, List.drop_zipWith]
  next =>
    simp [hl, hn]

/-- For an address in its form, a network contains what its interval has. -/
theorem contains_iff_has (hp : n.Parsed ones) {h : IP} (hl : h.length = n.ip.length) :
    n.contains h = true ↔
      n.ip.to4.isSome = h.to4.isSome ∧ (ipNetToRange n).Has (ofBytes h) := by
  rw [has_ipNetToRange_iff hp hl]
  rcases hp.length with h4 | h16
  · have hto4 := to4_of_length_four (hl.trans h4)
    rw [n.contains_iff hp (Or.inl h4), to4_of_length_four h4, hto4]
    simp only [Option.getD_some, Option.isSome_some, true_and, hl]
  · have hl16 := hl.trans h16
    cases hn : n.ip.to4 with
    | some ip4 =>
      rw [contains_mapped hp h16 hn hl16, Option.isSome_some, eq_comm (a := true)]
    | none =>
      rw [n.contains_iff hp (Or.inr hn)]
      cases hh : h.to4 with
      | some h4 =>
        have hlen : h4.length ≠ n.ip.length := by
          rw [to4_of_length hl16] at hh
          split_ifs at hh
          cases hh
          rw [List.length_drop, hl16, h16]
          decide
        simp [hlen]
      | none => simp [hl]

/-- `IsSubset` admits an address where a network that is written in its form contains it. -/
theorem isSubset_single_iff {respondRange : List IPNet}
    (hr : ∀ n ∈ respondRange, ∃ ones, n.Parsed ones) {h : IP}
    (hl : h.length = 4 ∨ h.length = 16) :
    isSubset (single h) respondRange = true ↔
      ∃ n ∈ respondRange, n.ip.length = h.length ∧ n.contains h = true := by
  rw [isSubset_single hl]
  refine exists_congr fun n => and_congr_right fun hn => ?_
  obtain ⟨ones, hp⟩ := hr n hn
  constructor
  · rintro ⟨hf, hx⟩
    have hlen := length_eq_of_has hp hl hf hx
    exact ⟨hlen, (contains_iff_has hp hlen.symm).2 ⟨hf, hx⟩⟩
  · rintro ⟨hlen, hc⟩
    exact (contains_iff_has hp hlen.symm).1 hc

theorem checkIntersectIP_iff {h : IP} {respondRange : List IPNet} :
    checkIntersectIP h respondRange = true ↔ ∃ n ∈ respondRange, n.contains h = true :=
  List.any_eq_true

theorem filterIPs_single_iff {h : IP} {respondRange : List IPNet} :
    filterIPs [h] respondRange ≠ [] ↔ ∃ n ∈ respondRange, n.contains h = true := by
  simp [filterIPs, List.filter_eq_nil_iff]

/-- The three gates give the same answer. -/
def GatesAgree (h : IP) (respondRange : List IPNet) : Prop :=
  (isSubset (single h) respondRange = true ↔ checkIntersectIP h respondRange = true) ∧
    (checkIntersectIP h respondRange = true ↔ filterIPs [h] respondRange ≠ [])

/-- A range made of results of `ParseCIDR`. -/
def OfParseCIDR (respondRange : List IPNet) : Prop :=
  ∀ n ∈ respondRange, ∃ s ip, parseCIDR s = some (ip, n)

/-- The gates agree exactly where an address that a network of the other form contains is
also contained in one of its own form. -/
theorem gatesAgree_iff (respondRange : List IPNet) (_ : respondRange ≠ [])
    (hr : OfParseCIDR respondRange) (h : IP) (hl : h.length = 4 ∨ h.length = 16) :
    GatesAgree h respondRange ↔
      ∀ n ∈ respondRange, n.ip.length ≠ h.length → n.contains h = true →
        ∃ n' ∈ respondRange, n'.ip.length = h.length ∧ n'.contains h = true := by
  have hparsed : ∀ n ∈ respondRange, ∃ ones, n.Parsed ones := by
    intro n hn
    obtain ⟨s, ip, hs⟩ := hr n hn
    exact parseCIDR_parsed hs
  rw [GatesAgree, isSubset_single_iff hparsed hl, checkIntersectIP_iff, filterIPs_single_iff]
  constructor
  · intro hagree n hn _ hc
    exact hagree.1.2 ⟨n, hn, hc⟩
  · intro hcond
    refine ⟨⟨fun ⟨n, hn, _, hc⟩ => ⟨n, hn, hc⟩, fun ⟨n, hn, hc⟩ => ?_⟩, Iff.rfl⟩
    by_cases hlen : n.ip.length = h.length
    · exact ⟨n, hn, hlen, hc⟩
    · exact hcond n hn hlen hc

/-- `::ffff:1.2.3.0/120`. -/
def mappedNet : IPNet :=
  ⟨[0, 0, 0, 0, 0, 0, 0, 0, 0, 0, 255, 255, 1, 2, 3, 0], cidrMask 120 128⟩

theorem ofParseCIDR_mappedNet : OfParseCIDR [mappedNet] := by
  intro n hn
  rw [List.mem_singleton.1 hn]
  exact ⟨"::ffff:1.2.3.0/120", [0, 0, 0, 0, 0, 0, 0, 0, 0, 0, 255, 255, 1, 2, 3, 0], by decide⟩

/-- At an address of the mapped form the gates agree. -/
theorem gatesAgree_mapped :
    GatesAgree [0, 0, 0, 0, 0, 0, 0, 0, 0, 0, 255, 255, 1, 2, 3, 4] [mappedNet] :=
  (gatesAgree_iff [mappedNet] (by decide) ofParseCIDR_mappedNet
    [0, 0, 0, 0, 0, 0, 0, 0, 0, 0, 255, 255, 1, 2, 3, 4] (by decide)).2 fun n hn hlen _ =>
      absurd (by rw [List.mem_singleton.1 hn]; rfl) hlen

/-- `IsSubset` refuses 1.2.3.4 in a range that the other gates find it in. -/
theorem gates_disagree :
    OfParseCIDR [mappedNet] ∧ ¬GatesAgree [1, 2, 3, 4] [mappedNet] := by
  refine ⟨ofParseCIDR_mappedNet, fun hagree => ?_⟩
  have hparsed : ∀ n ∈ [mappedNet], ∃ ones, n.Parsed ones := by
    intro n hn
    obtain ⟨s, ip, hs⟩ := ofParseCIDR_mappedNet n hn
    exact parseCIDR_parsed hs
  have hsub := hagree.1.2 (by decide)
  obtain ⟨n, hn, hlen, _⟩ := (isSubset_single_iff hparsed (Or.inl rfl)).1 hsub
  rw [List.mem_singleton.1 hn] at hlen
  exact absurd hlen (by decide)

end CloudPing.Utils
