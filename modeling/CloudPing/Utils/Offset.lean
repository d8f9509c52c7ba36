import CloudPing.Utils.IPRange
import CloudPing.Web.IPAddr
import Mathlib.Data.Nat.Bitwise

/-!
# The place of an address in its subnet

`GetOffset` of `pkg/utils/offset.go` is the exclusive or of an address and its network, cut
to the bits outside the mask.  For a network of native form and an address in it this is
the difference of their numbers (`getOffset_native`).

For an IPv4 address the function reads the first four bytes of the mask.  Those of a network
that maps one of IPv4 are all ones, and every address gets offset zero (`getOffset_mapped`).
-/

namespace CloudPing.Utils

open Interval Web

/-- `binary.BigEndian.Uint32`, `none` for the panic where there are fewer than four bytes. -/
def uint32 (bs : List UInt8) : Option Nat :=
  if 4 ≤ bs.length then some (ofBytes (bs.take 4)) else none

/-- `binary.BigEndian.Uint64`. -/
def uint64 (bs : List UInt8) : Option Nat :=
  if 8 ≤ bs.length then some (ofBytes (bs.take 8)) else none

/-- `(host ^ net) &^ mask` on words of `w` bits. -/
def xorAndNot (w host net mask : Nat) : Nat := (host ^^^ net) &&& (2 ^ w - 1 - mask)

/-- `GetOffset`, `none` for its panics. -/
def getOffset (network : IPNet) (host : IP) : Option Nat :=
  match host.to4 with
  | some v4 => do
    let netIP ← network.ip.to4
    let hostVal ← uint32 v4
    let netVal ← uint32 netIP
    let maskVal ← uint32 network.mask
    some (xorAndNot 32 hostVal netVal maskVal)
  | none =>
    if (maskSize network.mask).1 < 64 then none
    else do
      let v6 ← host.to16
      let netIP ← network.ip.to16
      let hostLower ← uint64 (v6.drop 8)
      let netLower ← uint64 (netIP.drop 8)
      let maskLower ← uint64 (network.mask.drop 8)
      some (xorAndNot 64 hostLower netLower maskLower)

/-! ## Words under a mask -/

/-- The bytes of a mask behind its first ones. -/
theorem drop_maskBytes (a b n : Nat) : (maskBytes (a + b) n).drop a = maskBytes b (n - 8 * a) := by
  induction a generalizing n with
  | zero => rw [Nat.zero_add, List.drop_zero, Nat.mul_zero, Nat.sub_zero]
  | succ a ih =>
    have hadd : a + 1 + b = a + b + 1 := by omega
    rw [hadd, maskBytes]
    split
    next h8 =>
      rw [List.drop_succ_cons, ih]
      congr 1
      omega
    next h8 =>
      rw [List.drop_succ_cons, ih]
      congr 1
      omega

/-- The number of a mask of leading ones. -/
theorem ofBytes_maskBytes {l n : Nat} (hn : n ≤ 8 * l) :
    ofBytes (maskBytes l n) = 2 ^ (8 * l) - 2 ^ (8 * l - n) := by
  induction l generalizing n with
  | zero =>
    obtain rfl : n = 0 := by omega
    rfl
  | succ l ih =>
    have hpow : 2 ^ (8 * (l + 1)) = 256 * 2 ^ (8 * l) := by
      rw [Nat.mul_add, Nat.pow_add, Nat.mul_comm]
    rw [maskBytes]
    split
    next h8 =>
      have hk : 8 * (l + 1) - n = 8 * l - (n - 8) := by omega
      have hle : 2 ^ (8 * l - (n - 8)) ≤ 2 ^ (8 * l) :=
        Nat.pow_le_pow_right (by decide) (Nat.sub_le _ _)
      have h255 : (255 : UInt8).toNat = 255 := rfl
      rw [ofBytes, length_maskBytes, ih (by omega), hpow, hk, h255]
      omega
    next h8 =>
      have hbyte : (~~~((255 : UInt8) >>> UInt8.ofNat n)).toNat = 256 - 2 ^ (8 - n) := by
        have hall : ∀ n : Fin 8,
            (~~~((255 : UInt8) >>> UInt8.ofNat n)).toNat = 256 - 2 ^ (8 - n.val) := by decide
        exact hall ⟨n, Nat.not_le.1 h8⟩
      have hk : 8 * (l + 1) - n = 8 - n + 8 * l := by omega
      rw [ofBytes, length_maskBytes, ih (Nat.zero_le _), hbyte, hpow, hk, Nat.pow_add,
        Nat.sub_mul, Nat.sub_zero, Nat.sub_self, Nat.add_zero]

/-- A word and its network differ below the mask only. -/
theorem xorAndNot_eq {w k host net : Nat} (hk : k ≤ w) (hnet : net % 2 ^ k = 0) :
    xorAndNot w host net (2 ^ w - 2 ^ k) = host % 2 ^ k := by
  have hle : 2 ^ k ≤ 2 ^ w := Nat.pow_le_pow_right (by decide) hk
  have hpos := Nat.two_pow_pos k
  have hnot : 2 ^ w - 1 - (2 ^ w - 2 ^ k) = 2 ^ k - 1 := by omega
  rw [xorAndNot, hnot, Nat.and_two_pow_sub_one_eq_mod, Nat.xor_mod_two_pow, hnet, Nat.xor_zero]

/-! ## Members -/

/-- The address in the form of its family. -/
def normal (ip : IP) : IP := ip.to4.getD ip

/-- The place of an address in a network: how far it is from the first. -/
def offsetIn (n : IPNet) (ip : IP) : Nat := ofBytes (normal ip) - ofBytes (normal n.ip)

variable {n : IPNet} {ones : Nat} {h : IP}

theorem normal_of_to4 {ip ip4 : IP} (h4 : ip.to4 = some ip4) : normal ip = ip4 := by
  rw [normal, h4]
  rfl

theorem length_of_to4 {ip ip4 : IP} (h4 : ip.to4 = some ip4) : ip4.length = 4 := by
  rw [IP.to4] at h4
  split_ifs at h4 with hl hp
  · cases h4
    exact hl
  · cases h4
    rw [List.length_drop, hp.1]

/-- A network of sixteen bytes that maps one of IPv4 has the mapping bytes in its mask. -/
theorem ones_of_mapped (hp : n.Parsed ones) (hl : n.ip.length = 16) {ip4 : IP}
    (h4 : n.ip.to4 = some ip4) : 96 ≤ ones := by
  rw [to4_of_length hl] at h4
  split_ifs at h4 with hpre
  have hmask := maskBytes_of_parsed hp
  rw [hl] at hmask
  have hdrop : n.mask.drop 11 = maskBytes 5 (ones - 8 * 11) := by
    rw [hmask]
    exact drop_maskBytes 11 5 ones
  have hip : n.ip.drop 11 = 255 :: n.ip.drop 12 := by
    rw [← List.take_append_drop 12 n.ip, hpre]
    rfl
  have hcut : List.zipWith (· &&& ·) (n.ip.drop 11) (n.mask.drop 11) = n.ip.drop 11 := by
    rw [← List.drop_zipWith, hp.masked]
  rw [hdrop, hip, maskBytes] at hcut
  by_contra hlt
  rw [if_neg (by omega), List.zipWith_cons_cons] at hcut
  have hbyte := (List.cons.inj hcut).1
  have hall : ∀ n : Fin 8, (255 : UInt8) &&& ~~~((255 : UInt8) >>> UInt8.ofNat n) ≠ 255 := by
    decide
  exact hall ⟨ones - 8 * 11, by omega⟩ hbyte

/-- A member of a network has its family, and the number of the network without the bits
outside the mask. -/
theorem ofBytes_normal (hp : n.Parsed ones) (hc : n.contains h = true) :
    (normal h).length = (normal n.ip).length ∧
      ofBytes (normal n.ip) = ofBytes (normal h) / 2 ^ (8 * n.ip.length - ones) *
        2 ^ (8 * n.ip.length - ones) := by
  by_cases hn : n.Native
  · obtain ⟨hlen, hcut⟩ := (n.contains_iff hp hn).1 hc
    have hself : normal n.ip = n.ip := hn.getD
    refine ⟨by rw [hself]; exact hlen, ?_⟩
    have hmask := (ofBytes_mask hlen hp.le).1
    rw [← maskBytes_of_parsed hp, hcut] at hmask
    rw [hself, hmask]
    rfl
  · have hl : n.ip.length = 16 := hp.length.resolve_left fun h4 => hn (Or.inl h4)
    obtain ⟨ip4, h4⟩ : ∃ ip4, n.ip.to4 = some ip4 :=
      Option.ne_none_iff_exists'.1 fun hnone => hn (Or.inr hnone)
    have hones := ones_of_mapped hp hl h4
    have hle := hp.le
    have hmasklen : n.mask.length = 16 := by rw [hp.length_mask, hl]
    have hip4 : ip4 = n.ip.drop 12 := by
      rw [to4_of_length hl] at h4
      split_ifs at h4
      exact (Option.some.inj h4).symm
    have hmask : n.mask.drop 12 = maskBytes 4 (ones - 96) := by
      rw [maskBytes_of_parsed hp, hl]
      exact drop_maskBytes 12 4 ones
    have hnn : n.networkNumberAndMask = (ip4, n.mask.drop 12) := by
      simp only [IPNet.networkNumberAndMask, h4, Option.getD_some, length_of_to4 h4, hmasklen]
      rfl
    have hcut : List.zipWith (· &&& ·) ip4 (n.mask.drop 12) = ip4 := by
      rw [hip4, ← List.drop_zipWith, hp.masked]
    simp only [IPNet.contains, hnn, hcut, decide_eq_true_eq] at hc
    have hlen : (normal h).length = 4 := hc.1.trans (length_of_to4 h4)
    have hval := (ofBytes_mask (n := ones - 96) hlen (by omega)).1
    have hbits : 8 * 4 - (ones - 96) = 8 * n.ip.length - ones := by omega
    rw [← hmask, hbits] at hval
    rw [normal_of_to4 h4]
    exact ⟨hc.1, (congrArg ofBytes hc.2).trans hval⟩

/-- A member is at the remainder of its number. -/
theorem offsetIn_eq (hp : n.Parsed ones) (hc : n.contains h = true) :
    offsetIn n h = ofBytes (normal h) % 2 ^ (8 * n.ip.length - ones) := by
  have hdiv := Nat.div_add_mod (ofBytes (normal h)) (2 ^ (8 * n.ip.length - ones))
  rw [Nat.mul_comm, ← (ofBytes_normal hp hc).2] at hdiv
  rw [offsetIn]
  omega

theorem offsetIn_lt (hp : n.Parsed ones) (hc : n.contains h = true) :
    offsetIn n h < 2 ^ (8 * n.ip.length - ones) := by
  rw [offsetIn_eq hp hc]
  exact Nat.mod_lt _ (Nat.two_pow_pos _)

/-- Members at one place are one address. -/
theorem normal_eq_iff (hp : n.Parsed ones) {h' : IP} (hc : n.contains h = true)
    (hc' : n.contains h' = true) : normal h = normal h' ↔ offsetIn n h = offsetIn n h' := by
  constructor
  · intro he
    rw [offsetIn, offsetIn, he]
  · intro he
    obtain ⟨hlen, hval⟩ := ofBytes_normal hp hc
    obtain ⟨hlen', hval'⟩ := ofBytes_normal hp hc'
    refine ofBytes_inj (hlen.trans hlen'.symm) ?_
    have hle : ofBytes (normal n.ip) ≤ ofBytes (normal h) := by
      rw [hval]
      exact Nat.div_mul_le_self _ _
    have hle' : ofBytes (normal n.ip) ≤ ofBytes (normal h') := by
      rw [hval']
      exact Nat.div_mul_le_self _ _
    rw [offsetIn, offsetIn] at he
    omega

/-- `Contains` does not depend on the form of the address. -/
theorem contains_congr {h' : IP} (he : normal h = normal h') : n.contains h = n.contains h' := by
  rw [normal, normal] at he
  simp only [IPNet.contains, he]

/-- A network with at most 32 host bits has a member at each place. -/
theorem exists_member (hp : n.Parsed ones) (hb : 8 * n.ip.length - ones ≤ 32) {i : Nat}
    (hi : i < 2 ^ (8 * n.ip.length - ones)) :
    ∃ a, n.contains a = true ∧ offsetIn n a = i := by
  have hle := hp.le
  have hpos := Nat.two_pow_pos (8 * n.ip.length - ones)
  have hself := (ofBytes_mask (rfl : n.ip.length = n.ip.length) hle).1
  rw [← maskBytes_of_parsed hp, hp.masked] at hself
  have hquot : (ofBytes n.ip + i) / 2 ^ (8 * n.ip.length - ones) =
      ofBytes n.ip / 2 ^ (8 * n.ip.length - ones) := by
    refine Nat.div_eq_of_lt_le ?_ ?_
    · rw [← hself]
      exact Nat.le_add_right _ _
    · rw [Nat.add_mul, Nat.one_mul, ← hself]
      omega
  have hlt : ofBytes n.ip + i < 2 ^ (8 * n.ip.length) := by
    have hsplit : 2 ^ (8 * n.ip.length) = 2 ^ ones * 2 ^ (8 * n.ip.length - ones) := by
      rw [← Nat.pow_add]
      congr 1
      omega
    have hmax := ofBytes_lt n.ip
    rw [hsplit, ← Nat.div_lt_iff_lt_mul hpos] at hmax ⊢
    rw [hquot]
    exact hmax
  obtain ⟨(a : IP), hl, hval⟩ := exists_ofBytes n.ip.length hlt
  have hhead : n.ip.length = 16 → a.take 12 = n.ip.take 12 := by
    intro h16
    have hdiv : ∀ {ip : IP}, ip.length = 16 → ofBytes (ip.take 12) = ofBytes ip / 2 ^ 32 := by
      intro ip hip
      have hdrop : (ip.drop 12).length = 4 := by rw [List.length_drop, hip]
      have hsmall := ofBytes_lt (ip.drop 12)
      have hsum := ofBytes_append (ip.take 12) (ip.drop 12)
      rw [List.take_append_drop] at hsum
      rw [hdrop] at hsmall hsum
      omega
    refine ofBytes_inj (by rw [List.length_take, List.length_take, hl]) ?_
    have hpow : 2 ^ 32 = 2 ^ (8 * n.ip.length - ones) * 2 ^ (32 - (8 * n.ip.length - ones)) := by
      rw [← Nat.pow_add]
      congr 1
      omega
    rw [hdiv (hl.trans h16), hdiv h16, hval, hpow, ← Nat.div_div_eq_div_mul, hquot,
      Nat.div_div_eq_div_mul]
  have hto4 : n.ip.to4.isSome = (IP.to4 a).isSome ∧
      ofBytes (normal a) = ofBytes (normal n.ip) + i := by
    rcases hp.length with h4 | h16
    · have ha := to4_of_length_four (hl.trans h4)
      have hn := to4_of_length_four h4
      rw [normal_of_to4 ha, normal_of_to4 hn, ha, hn]
      exact ⟨rfl, hval⟩
    · have ha := to4_of_length (hl.trans h16)
      have hn := to4_of_length h16
      rw [hhead h16] at ha
      by_cases hpre : n.ip.take 12 = v4InV6Prefix
      · rw [if_pos hpre] at ha hn
        rw [normal_of_to4 ha, normal_of_to4 hn, ha, hn]
        refine ⟨rfl, ?_⟩
        have hsum := ofBytes_append (a.take 12) (a.drop 12)
        have hsum' := ofBytes_append (n.ip.take 12) (n.ip.drop 12)
        rw [List.take_append_drop, List.length_drop, hl] at hsum
        rw [List.take_append_drop, List.length_drop] at hsum'
        rw [hhead h16] at hsum
        omega
      · rw [if_neg hpre] at ha hn
        rw [normal, normal, ha, hn]
        exact ⟨rfl, hval⟩
  refine ⟨a, (contains_iff_has hp hl).2 ⟨hto4.1, ?_⟩, ?_⟩
  · rw [ipNetToRange_eq hp, ← hself, hval]
    exact ⟨Nat.le_add_right _ _, by simp only; omega⟩
  · rw [offsetIn, hto4.2]
    omega

/-! ## `GetOffset` of a member -/

/-- A member of a network of four bytes has four bytes. -/
theorem to4_of_contains (hp : n.Parsed ones) {ip4 : IP} (h4 : n.ip.to4 = some ip4)
    (hc : n.contains h = true) : ∃ v4, h.to4 = some v4 := by
  have hlen := (ofBytes_normal hp hc).1
  rw [normal_of_to4 h4, length_of_to4 h4] at hlen
  cases hh : h.to4 with
  | some v4 => exact ⟨v4, rfl⟩
  | none =>
    rw [normal, hh, Option.getD_none] at hlen
    rw [to4_of_length_four hlen] at hh
    cases hh

theorem uint32_of_length {bs : List UInt8} (hl : bs.length = 4) :
    uint32 bs = some (ofBytes bs) := by
  rw [uint32, if_pos (Nat.le_of_eq hl.symm), List.take_of_length_le (Nat.le_of_eq hl)]

theorem uint64_of_length {bs : List UInt8} (hl : bs.length = 8) :
    uint64 bs = some (ofBytes bs) := by
  rw [uint64, if_pos (Nat.le_of_eq hl.symm), List.take_of_length_le (Nat.le_of_eq hl)]

/-- The lower half of an address has its remainder modulo a power of two that divides it. -/
theorem ofBytes_drop_mod {bs : List UInt8} (hl : bs.length = 16) {k : Nat} (hk : k ≤ 64) :
    ofBytes (bs.drop 8) % 2 ^ k = ofBytes bs % 2 ^ k := by
  have hlen : 8 * (bs.drop 8).length = k + (64 - k) := by
    rw [List.length_drop, hl]
    omega
  have hsplit : ofBytes bs = ofBytes (bs.take 8) * 2 ^ (64 - k) * 2 ^ k + ofBytes (bs.drop 8) := by
    rw [Nat.mul_assoc, ← Nat.pow_add, Nat.add_comm (64 - k), ← hlen, ← ofBytes_append,
      List.take_append_drop]
  rw [hsplit, Nat.add_comm, Nat.add_mul_mod_self_right]

theorem mod_of_masked (hp : n.Parsed ones) (hc : n.contains h = true) :
    ofBytes (normal n.ip) % 2 ^ (8 * n.ip.length - ones) = 0 := by
  rw [(ofBytes_normal hp hc).2]
  exact Nat.mul_mod_left _ _

/-- `GetOffset` of a member of a native network with at most 64 host bits is its place. -/
theorem getOffset_native (hp : n.Parsed ones) (hn : n.Native) (hbits : 8 * n.ip.length - ones ≤ 64)
    (hc : n.contains h = true) : getOffset n h = some (offsetIn n h) := by
  have hself : normal n.ip = n.ip := hn.getD
  have hlen := (ofBytes_normal hp hc).1
  have hmod := mod_of_masked hp hc
  have hmask := maskBytes_of_parsed hp
  have hle := hp.le
  rw [hself] at hlen hmod
  rw [offsetIn_eq hp hc]
  rcases hn with h4 | hnone
  · have hip := to4_of_length_four h4
    obtain ⟨v4, hv4⟩ := to4_of_contains hp hip hc
    have hval : ofBytes n.mask = 2 ^ 32 - 2 ^ (32 - ones) := by
      rw [hmask, h4, ofBytes_maskBytes (by omega)]
    have hlm : n.mask.length = 4 := by rw [hp.length_mask, h4]
    rw [h4] at hmod
    simp only [getOffset, hv4, hip, uint32_of_length (length_of_to4 hv4), uint32_of_length h4,
      uint32_of_length hlm, Option.bind_eq_bind, Option.bind_some, hval,
      xorAndNot_eq (Nat.sub_le 32 ones) hmod, normal_of_to4 hv4, h4]
  · have hl16 : n.ip.length = 16 := by
      refine hp.length.resolve_left fun h4 => ?_
      rw [to4_of_length_four h4] at hnone
      cases hnone
    have hh4 : h.to4 = none := by
      by_contra hsome
      obtain ⟨v4, hv4⟩ := Option.ne_none_iff_exists'.1 hsome
      rw [normal_of_to4 hv4, length_of_to4 hv4, hl16] at hlen
      cases hlen
    have hnormal : normal h = h := by rw [normal, hh4]; rfl
    rw [hnormal, hl16] at hlen
    rw [hl16] at hbits hmod hmask
    have hones : 64 ≤ ones := by omega
    have hdrop : n.mask.drop 8 = maskBytes 8 (ones - 64) := by
      rw [hmask]
      exact drop_maskBytes 8 8 ones
    have hk : 8 * 8 - (ones - 64) = 8 * 16 - ones := by omega
    have hval : ofBytes (maskBytes 8 (ones - 64)) = 2 ^ 64 - 2 ^ (8 * 16 - ones) := by
      rw [ofBytes_maskBytes (by omega), hk]
    have hto16 : ∀ {ip : IP}, ip.length = 16 → ip.to16 = some ip := by
      intro ip hl
      rw [IP.to16, if_neg (by omega), if_pos hl]
    have hlow : ∀ {ip : IP}, ip.length = 16 → (ip.drop 8).length = 8 := by
      intro ip hl
      rw [List.length_drop, hl]
    have hnet : ofBytes (n.ip.drop 8) % 2 ^ (8 * 16 - ones) = 0 := by
      rw [ofBytes_drop_mod hl16 hbits, hmod]
    have hsize : (maskSize n.mask).1 = ones := by rw [hp.size]
    simp only [getOffset, hh4, hsize, if_neg (Nat.not_lt.2 hones), hto16 hlen, hto16 hl16,
      uint64_of_length (hlow hlen), uint64_of_length (hlow hl16), hdrop,
      uint64_of_length (length_maskBytes 8 (ones - 64)), Option.bind_eq_bind, Option.bind_some,
      hval, xorAndNot_eq hbits hnet, ofBytes_drop_mod hlen hbits, hnormal, hl16]

/-- A network that maps one of IPv4 has ones in the first four bytes of its mask. -/
theorem uint32_mask_mapped (hp : n.Parsed ones) (hl : n.ip.length = 16) {ip4 : IP}
    (h4 : n.ip.to4 = some ip4) : uint32 n.mask = some (2 ^ 32 - 1) := by
  have hones := ones_of_mapped hp hl h4
  have hmask : n.mask = 255 :: 255 :: 255 :: 255 :: maskBytes 12 (ones - 8 - 8 - 8 - 8) := by
    rw [maskBytes_of_parsed hp, hl, maskBytes, if_pos (by omega), maskBytes, if_pos (by omega),
      maskBytes, if_pos (by omega), maskBytes, if_pos (by omega)]
  have h255 : ofBytes [255, 255, 255, 255] = 2 ^ 32 - 1 := by decide
  rw [hmask, uint32, if_pos (by simp), List.take_succ_cons, List.take_succ_cons,
    List.take_succ_cons, List.take_succ_cons, List.take_zero, h255]

/-- In a network that maps one of IPv4, `GetOffset` puts every member at zero. -/
theorem getOffset_mapped (hp : n.Parsed ones) (hn : ¬n.Native) (hc : n.contains h = true) :
    getOffset n h = some 0 := by
  have hl : n.ip.length = 16 := hp.length.resolve_left fun h4 => hn (Or.inl h4)
  obtain ⟨ip4, h4⟩ : ∃ ip4, n.ip.to4 = some ip4 :=
    Option.ne_none_iff_exists'.1 fun hnone => hn (Or.inr hnone)
  obtain ⟨v4, hv4⟩ := to4_of_contains hp h4 hc
  simp only [getOffset, hv4, h4, uint32_of_length (length_of_to4 hv4),
    uint32_of_length (length_of_to4 h4), uint32_mask_mapped hp hl h4, Option.bind_eq_bind,
    Option.bind_some, xorAndNot, Nat.sub_self, Nat.and_zero]

/-- What `GetOffset` makes of any address is a place in the network. -/
theorem getOffset_lt (hp : n.Parsed ones) {offset : Nat} (ho : getOffset n h = some offset) :
    offset < 2 ^ (8 * n.ip.length - ones) := by
  have hle := hp.le
  have hmask := maskBytes_of_parsed hp
  have hlow : ∀ {w k host net : Nat}, k ≤ w →
      xorAndNot w host net (2 ^ w - 2 ^ k) < 2 ^ k := by
    intro w k host net hk
    have hpow : 2 ^ k ≤ 2 ^ w := Nat.pow_le_pow_right (by decide) hk
    have hpos := Nat.two_pow_pos k
    have hnot : 2 ^ w - 1 - (2 ^ w - 2 ^ k) = 2 ^ k - 1 := by omega
    rw [xorAndNot, hnot, Nat.and_two_pow_sub_one_eq_mod]
    exact Nat.mod_lt _ hpos
  rw [getOffset] at ho
  split at ho
  next v4 _ =>
    obtain ⟨netIP, hnet, ho⟩ := Option.bind_eq_some_iff.1 ho
    obtain ⟨hostVal, _, ho⟩ := Option.bind_eq_some_iff.1 ho
    obtain ⟨netVal, _, ho⟩ := Option.bind_eq_some_iff.1 ho
    obtain ⟨maskVal, hm, ho⟩ := Option.bind_eq_some_iff.1 ho
    cases ho
    rcases hp.length with h4 | h16
    · rw [uint32_of_length (by rw [hp.length_mask, h4]), hmask, h4,
        ofBytes_maskBytes (by omega)] at hm
      cases hm
      rw [h4]
      exact hlow (Nat.sub_le _ _)
    · have hn : uint32 n.mask = some (2 ^ 32 - 1) := uint32_mask_mapped hp h16 hnet
      rw [hn] at hm
      cases hm
      rw [xorAndNot, Nat.sub_self, Nat.and_zero]
      exact Nat.two_pow_pos _
  next =>
    rw [hp.size] at ho
    split at ho
    next => cases ho
    next hones =>
      obtain ⟨v6, _, ho⟩ := Option.bind_eq_some_iff.1 ho
      obtain ⟨netIP, _, ho⟩ := Option.bind_eq_some_iff.1 ho
      obtain ⟨hostLower, _, ho⟩ := Option.bind_eq_some_iff.1 ho
      obtain ⟨netLower, _, ho⟩ := Option.bind_eq_some_iff.1 ho
      obtain ⟨maskLower, hm, ho⟩ := Option.bind_eq_some_iff.1 ho
      cases ho
      have h16 : n.ip.length = 16 := hp.length.resolve_left fun h4 => by omega
      have hdrop : n.mask.drop 8 = maskBytes 8 (ones - 64) := by
        rw [hmask, h16]
        exact drop_maskBytes 8 8 ones
      have hk : 8 * 8 - (ones - 64) = 8 * n.ip.length - ones := by omega
      rw [hdrop, uint64_of_length (length_maskBytes 8 _), ofBytes_maskBytes (by omega), hk] at hm
      cases hm
      exact hlow (by omega)

end CloudPing.Utils
