import CloudPing.Utils.IPText
import CloudPing.Utils.MemberAddrs

/-!
# `GetOffset` of the emitted addresses

`GetMemberAddresses32` looks at the length of the mask and `GetOffset` at the form of the
address, so they agree on what a network is of only if it does not map one of the other
family.  For such a native network the offset of the address at a place is the place.  For a
network that maps one of IPv4 every offset is zero (`getOffset_mapped`).

A probe event has the text of the address.  Reading it gives the address in its long form
(`parseIP_ipString`), which has the same offset.
-/

namespace CloudPing.Utils

open Conc Web

variable {n : IPNet} {l : MemberLoop} {bits h first len base ones i : Nat} {a : IP}

theorem getElem?_members (hi : i < l.total) : l.members[i]? = some (l.member i) := by
  rw [MemberLoop.members, List.getElem?_map, List.getElem?_range hi, Option.map_some]

theorem of_getElem?_members (ha : l.members[i]? = some a) : i < l.total ∧ a = l.member i := by
  rw [MemberLoop.members, List.getElem?_map] at ha
  obtain ⟨k, hk, rfl⟩ := Option.map_eq_some_iff.1 ha
  obtain ⟨hlt, rfl⟩ := List.getElem?_eq_some_iff.1 hk
  rw [List.length_range] at hlt
  rw [List.getElem_range]
  exact ⟨hlt, rfl⟩

theorem IPNet.Parsed.subnet (hp : n.Parsed ones) : n.Subnet ones (8 * n.ip.length) where
  size := hp.size
  bits := hp.bits
  fits := by
    rw [mask_of_length hp.length_mask.symm, hp.masked]
    intro hnil
    have hl := hp.length
    rw [hnil] at hl
    rcases hl with hl | hl <;> cases hl

/-- The place of an emitted address is the iteration that made it. -/
theorem Enumerates.offsetIn (he : Enumerates n l bits (8 * n.ip.length - ones) first len base)
    (hp : n.Parsed ones) (hi : i < 2 ^ (8 * n.ip.length - ones)) :
    n.contains (l.member i) = true ∧ offsetIn n (l.member i) = i := by
  have hpos := Nat.two_pow_pos (8 * n.ip.length - ones)
  have hmem : ∀ k, k < 2 ^ (8 * n.ip.length - ones) → n.contains (l.member k) = true := by
    intro k hk
    rw [he.contains, he.family k hk, he.place k hk]
    exact ⟨rfl, Nat.le_add_right _ _, Nat.add_lt_add_left hk _⟩
  refine ⟨hmem i hi, ?_⟩
  -- The first and the last member have one quotient, so the first has no remainder.
  have hfirst := (ofBytes_normal hp (hmem 0 hpos)).2
  have hlast := (ofBytes_normal hp (hmem _ (Nat.sub_lt hpos Nat.one_pos))).2
  rw [he.place 0 hpos, Nat.add_zero] at hfirst
  rw [he.place _ (Nat.sub_lt hpos Nat.one_pos)] at hlast
  have hquot := Nat.eq_of_mul_eq_mul_right hpos (hfirst.symm.trans hlast)
  have hlt := Nat.lt_mul_div_succ (base + (2 ^ (8 * n.ip.length - ones) - 1)) hpos
  have hle := Nat.div_mul_le_self base (2 ^ (8 * n.ip.length - ones))
  rw [← hquot, Nat.mul_succ, Nat.mul_comm (2 ^ (8 * n.ip.length - ones))] at hlt
  rw [CloudPing.Utils.offsetIn, he.place i hi, hfirst]
  omega

/-- Where `GetOffset` gives the place of an emitted address. -/
theorem getOffset_eq_iff (hp : n.Parsed ones) (hb : 8 * n.ip.length - ones ≤ 32)
    (hc : n.contains a = true) (ho : offsetIn n a = i) :
    getOffset n a = some i ↔ n.Native ∨ i = 0 := by
  by_cases hnative : n.Native
  · rw [getOffset_native hp hnative (Nat.le_trans hb (by decide)) hc, ho]
    exact iff_of_true rfl (Or.inl hnative)
  · rw [getOffset_mapped hp hnative hc, Option.some.injEq]
    exact ⟨fun hzero => Or.inr hzero.symm, fun h => (h.resolve_left hnative).symm⟩

/-- `GetOffset` gives the place of an emitted address, and of the same address read back from
its text, exactly if the network does not map one of IPv4 or the place is the first. -/
theorem getOffset_emitted_iff (s : String) (ip : IP) (n : IPNet)
    (hs : parseCIDR s = some (ip, n)) (hb : (maskSize n.mask).2 - (maskSize n.mask).1 ≤ 32) :
    ∃ addrs,
      EmitsMembers n ((maskSize n.mask).2 - (maskSize n.mask).1) n.ip.length addrs ∧
      ∀ i a, addrs[i]? = some a →
        (getOffset n a = some i ↔ n.Native ∨ i = 0) ∧
        ((∃ a', parseIP (ipAddrString { ip := a }) = some a' ∧ getOffset n a' = some i) ↔
          n.Native ∨ i = 0) := by
  obtain ⟨ones, hp⟩ := parseCIDR_parsed hs
  rw [hp.size] at hb ⊢
  obtain ⟨l, first, len, base, he⟩ := exists_enumerates hp.subnet hb
  have hlen : 8 * n.ip.length / 8 = n.ip.length := Nat.mul_div_cancel_left _ (by decide)
  have hemits := he.emits
  rw [hlen] at hemits
  refine ⟨l.members, hemits, fun i a ha => ?_⟩
  obtain ⟨hi, rfl⟩ := of_getElem?_members ha
  rw [he.total] at hi
  obtain ⟨hc, ho⟩ := he.offsetIn hp hi
  have hl : (l.member i).length = 4 ∨ (l.member i).length = 16 := by
    rw [he.length i, hlen]
    exact hp.length
  obtain ⟨a', ha', hnormal⟩ := parseIP_ipString hl
  have hc' : n.contains a' = true := (contains_congr hnormal).trans hc
  have ho' : offsetIn n a' = i := by
    rw [CloudPing.Utils.offsetIn, hnormal]
    exact ho
  refine ⟨getOffset_eq_iff hp hb hc ho, ?_⟩
  rw [← getOffset_eq_iff hp hb hc' ho']
  constructor
  · rintro ⟨b, hb, hoff⟩
    rw [ha'] at hb
    cases hb
    exact hoff
  · exact fun hoff => ⟨a', ha', hoff⟩

theorem parseCIDR_mappedNet : parseCIDR "::ffff:1.2.3.0/120" = some (mappedNet.ip, mappedNet) := by
  decide

theorem getOffset_emitted_mapped :
    ∃ addrs, EmitsMembers mappedNet 8 16 addrs ∧
      ∀ i a, addrs[i]? = some a →
        (getOffset mappedNet a = some i ↔ mappedNet.Native ∨ i = 0) ∧
        ((∃ a', parseIP (ipAddrString { ip := a }) = some a' ∧ getOffset mappedNet a' = some i) ↔
          mappedNet.Native ∨ i = 0) :=
  getOffset_emitted_iff "::ffff:1.2.3.0/120" mappedNet.ip mappedNet parseCIDR_mappedNet (by decide)

/-- The second address of that network is not at its place. -/
theorem getOffset_not_inverse :
    ¬∀ (s : String) (ip : IP) (n : IPNet), parseCIDR s = some (ip, n) →
      (maskSize n.mask).2 - (maskSize n.mask).1 ≤ 32 →
      ∀ addrs, EmitsMembers n ((maskSize n.mask).2 - (maskSize n.mask).1) n.ip.length addrs →
        ∀ i a, addrs[i]? = some a → getOffset n a = some i := by
  intro hall
  have hn : mappedNet.Subnet 120 128 := ⟨by decide, Or.inr rfl, by decide⟩
  obtain ⟨l, first, len, base, he⟩ := exists_enumerates hn (by decide)
  have hloop : memberLoop mappedNet =
      some ⟨128, [0, 0, 0, 0, 0, 0, 0, 0, 0, 0, 255, 255], 16909056, 256⟩ := by decide
  rw [he.loop] at hloop
  cases hloop
  have hoff := hall "::ffff:1.2.3.0/120" mappedNet.ip mappedNet parseCIDR_mappedNet (by decide)
    _ he.emits 1 _ (getElem?_members (by decide))
  cases hoff

end CloudPing.Utils
