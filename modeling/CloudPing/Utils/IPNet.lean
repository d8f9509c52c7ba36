import CloudPing.Inet.ParseAddr
import CloudPing.Utils.Addr
import Mathlib.Tactic.SplitIfs

/-!
# Masks and networks

The functions of `net` on masks and networks, and its parsers of addresses and of CIDR
notation.  A nil address or mask is the empty list.

A network from `ParseCIDR` has an address of four or sixteen bytes, a mask of the same
length that starts with ones, and no bit of the address outside the mask (`Parsed`).  An
address of sixteen bytes may still be one that maps an IPv4 address.  A network that does
not map one is *native*, and contains exactly the addresses of its family that agree with it
under the mask (`contains_iff`).
-/

namespace CloudPing

/-- The first twelve bytes of a mapped address. -/
def v4InV6Prefix : List UInt8 := List.replicate 10 0 ++ [255, 255]

/-- `IP.Mask`. -/
def IP.mask (ip : IP) (mask : List UInt8) : IP :=
  let mask :=
    if mask.length = 16 ∧ ip.length = 4 ∧ mask.take 12 = List.replicate 12 255 then mask.drop 12
    else mask
  let ip := if mask.length = 4 ∧ ip.length = 16 ∧ ip.take 12 = v4InV6Prefix then ip.drop 12 else ip
  if ip.length = mask.length then List.zipWith (· &&& ·) ip mask else []

namespace Utils

/-! ## Masks -/

/-- The bytes of a mask of `l` bytes that starts with `n` ones. -/
def maskBytes : Nat → Nat → List UInt8
  | 0, _ => []
  | l + 1, n =>
    if 8 ≤ n then 255 :: maskBytes l (n - 8)
    else ~~~((255 : UInt8) >>> UInt8.ofNat n) :: maskBytes l 0

/-- `net.CIDRMask`. -/
def cidrMask (ones bits : Nat) : List UInt8 :=
  if bits ≠ 32 ∧ bits ≠ 128 then []
  else if bits < ones then []
  else maskBytes (bits / 8) ones

/-- The leading ones of a byte and what is left of it, shifted to the top. -/
def leadingOnes : Nat → UInt8 → Nat × UInt8
  | 0, v => (0, v)
  | k + 1, v =>
    if v &&& 0x80 ≠ 0 then ((leadingOnes k (v <<< 1)).1 + 1, (leadingOnes k (v <<< 1)).2)
    else (0, v)

/-- The number of leading ones, if nothing but zeros is behind them. -/
def simpleMaskLength : List UInt8 → Option Nat
  | [] => some 0
  | v :: mask =>
    if v = 255 then (simpleMaskLength mask).map (8 + ·)
    else if (leadingOnes 8 v).2 ≠ 0 then none
    else if mask.any (· ≠ 0) then none
    else some (leadingOnes 8 v).1

/-- `IPMask.Size`. -/
def maskSize (mask : List UInt8) : Nat × Nat :=
  match simpleMaskLength mask with
  | none => (0, 0)
  | some ones => (ones, 8 * mask.length)

theorem length_maskBytes (l n : Nat) : (maskBytes l n).length = l := by
  induction l generalizing n with
  | zero => rfl
  | succ l ih =>
    rw [maskBytes]
    split <;> rw [List.length_cons, ih]

theorem maskBytes_zero (l : Nat) : maskBytes l 0 = List.replicate l 0 := by
  induction l with
  | zero => rfl
  | succ l ih =>
    rw [maskBytes, if_neg (by decide), ih, List.replicate_succ]
    rfl

/-- A byte that starts with fewer than eight ones. -/
theorem leadingOnes_byte {n : Nat} (h : n < 8) :
    ~~~((255 : UInt8) >>> UInt8.ofNat n) ≠ 255 ∧
      leadingOnes 8 (~~~((255 : UInt8) >>> UInt8.ofNat n)) = (n, 0) := by
  have hall : ∀ n : Fin 8, ~~~((255 : UInt8) >>> UInt8.ofNat n) ≠ 255 ∧
      leadingOnes 8 (~~~((255 : UInt8) >>> UInt8.ofNat n)) = (n.val, 0) := by decide
  exact hall ⟨n, h⟩

theorem simpleMaskLength_maskBytes {l n : Nat} (h : n ≤ 8 * l) :
    simpleMaskLength (maskBytes l n) = some n := by
  induction l generalizing n with
  | zero =>
    have hn : n = 0 := by omega
    rw [hn]
    rfl
  | succ l ih =>
    rw [maskBytes]
    by_cases hn : 8 ≤ n
    · have hadd : 8 + (n - 8) = n := by omega
      rw [if_pos hn, simpleMaskLength, if_pos rfl, ih (by omega), Option.map_some, hadd]
    · obtain ⟨hne, hones⟩ := leadingOnes_byte (Nat.not_le.1 hn)
      have hzero : (maskBytes l 0).any (· ≠ 0) = false := by
        rw [maskBytes_zero]
        simp
      rw [if_neg hn, simpleMaskLength, if_neg hne, hones, hzero]
      rfl

theorem length_cidrMask {ones bits : Nat} (hb : bits = 32 ∨ bits = 128) (h : ones ≤ bits) :
    (cidrMask ones bits).length = bits / 8 := by
  rw [cidrMask, if_neg (by omega), if_neg (by omega), length_maskBytes]

theorem maskSize_cidrMask {ones bits : Nat} (hb : bits = 32 ∨ bits = 128) (h : ones ≤ bits) :
    maskSize (cidrMask ones bits) = (ones, bits) := by
  have hlen := length_cidrMask hb h
  have hbits : 8 * (bits / 8) = bits := by omega
  rw [maskSize, hlen, hbits, cidrMask, if_neg (by omega), if_neg (by omega),
    simpleMaskLength_maskBytes (by omega)]

/-! ## Parsers -/

/-- `net.ParseIP`. -/
def parseIP (s : String) : Option IP :=
  match Inet.parseAddr s.toList with
  | some addr => if addr.zone = [] then some addr.as16 else none
  | none => none

/-- A decimal number that is not too large and fills the text. -/
def dtoi (cs : List Char) : Option Nat :=
  if cs ≠ [] ∧ cs.all Char.isDigit ∧ Nat.ofDigitChars 10 cs 0 < 0xFFFFFF then
    some (Nat.ofDigitChars 10 cs 0)
  else none

/-- `net.ParseCIDR`: the address and its network. -/
def parseCIDR (s : String) : Option (IP × IPNet) :=
  match s.toList.dropWhile (· ≠ '/') with
  | [] => none
  | _ :: mask =>
    match Inet.parseAddr (s.toList.takeWhile (· ≠ '/')), dtoi mask with
    | some addr, some n =>
      if addr.zone = [] ∧ n ≤ addr.bitLen then
        let m := cidrMask n addr.bitLen
        some (addr.as16, { ip := IP.mask addr.as16 m, mask := m })
      else none
    | _, _ => none

example : parseCIDR "192.168.1.77/24" =
    some ([0, 0, 0, 0, 0, 0, 0, 0, 0, 0, 255, 255, 192, 168, 1, 77],
      ⟨[192, 168, 1, 0], [255, 255, 255, 0]⟩) := by decide

/-! ## What the parsers make -/

theorem length_parseIP {s : String} {ip : IP} (h : parseIP s = some ip) : ip.length = 16 := by
  rw [parseIP] at h
  split at h
  next addr _ =>
    split_ifs at h
    cases h
    exact addr.length_as16
  next => cases h

/-- The family of an address of sixteen bytes. -/
theorem to4_of_length {ip : IP} (h : ip.length = 16) :
    ip.to4 = if ip.take 12 = v4InV6Prefix then some (ip.drop 12) else none := by
  rw [IP.to4, if_neg (by omega)]
  simp only [h, true_and]
  rfl

theorem mask_of_length {ip : IP} {mask : List UInt8} (h : ip.length = mask.length) :
    IP.mask ip mask = List.zipWith (· &&& ·) ip mask := by
  have hmask : ¬(mask.length = 16 ∧ ip.length = 4 ∧ mask.take 12 = List.replicate 12 255) := by
    omega
  have hip : ¬(mask.length = 4 ∧ ip.length = 16 ∧ ip.take 12 = v4InV6Prefix) := by omega
  simp only [IP.mask, if_neg hmask, if_neg hip, if_pos h]

/-- A mask of four bytes goes to the IPv4 address. -/
theorem mask_of_mapped {ip ip4 : IP} {mask : List UInt8} (h : ip.length = 16)
    (h4 : ip.to4 = some ip4) (hm : mask.length = 4) :
    IP.mask ip mask = List.zipWith (· &&& ·) ip4 mask := by
  rw [to4_of_length h] at h4
  split_ifs at h4 with hp
  cases h4
  have hlen : (ip.drop 12).length = mask.length := by rw [List.length_drop, h, hm]
  have hmask : ¬(mask.length = 16 ∧ ip.length = 4 ∧ mask.take 12 = List.replicate 12 255) := by
    omega
  have hip : mask.length = 4 ∧ ip.length = 16 ∧ ip.take 12 = v4InV6Prefix := ⟨hm, h, hp⟩
  simp only [IP.mask, if_neg hmask, if_pos hip, if_pos hlen]

theorem zipWith_and_idem (ip mask : List UInt8) :
    List.zipWith (· &&& ·) (List.zipWith (· &&& ·) ip mask) mask =
      List.zipWith (· &&& ·) ip mask := by
  induction ip generalizing mask with
  | nil => rfl
  | cons b ip ih =>
    cases mask with
    | nil => rfl
    | cons m mask =>
      rw [List.zipWith_cons_cons, List.zipWith_cons_cons, ih, UInt8.and_assoc, UInt8.and_self]

/-- What `ParseCIDR` makes: an address of a family, cut to a mask with the given number of
ones. -/
structure IPNet.Parsed (n : IPNet) (ones : Nat) : Prop where
  length : n.ip.length = 4 ∨ n.ip.length = 16
  le : ones ≤ 8 * n.ip.length
  mask : n.mask = cidrMask ones (8 * n.ip.length)
  masked : List.zipWith (· &&& ·) n.ip n.mask = n.ip

theorem parsed_mask {ip : IP} {ones : Nat} (hl : ip.length = 4 ∨ ip.length = 16)
    (h : ones ≤ 8 * ip.length) :
    IPNet.Parsed ⟨List.zipWith (· &&& ·) ip (cidrMask ones (8 * ip.length)),
      cidrMask ones (8 * ip.length)⟩ ones := by
  have hm : (cidrMask ones (8 * ip.length)).length = ip.length := by
    rw [length_cidrMask (by omega) h]
    omega
  have hlen : (List.zipWith (· &&& ·) ip (cidrMask ones (8 * ip.length))).length = ip.length := by
    rw [List.length_zipWith, hm, Nat.min_self]
  exact {
    length := by rw [hlen]; exact hl
    le := by rw [hlen]; exact h
    mask := by rw [hlen]
    masked := zipWith_and_idem ip _ }

theorem parseCIDR_parsed {s : String} {ip : IP} {n : IPNet} (h : parseCIDR s = some (ip, n)) :
    ∃ ones, n.Parsed ones := by
  rw [parseCIDR] at h
  split at h
  next => cases h
  next =>
    split at h
    next addr ones _ _ =>
      split_ifs at h with hb
      cases h
      refine ⟨ones, ?_⟩
      cases addr with
      | v4 ip4 h4 =>
        have hlen : (Inet.Addr.v4 ip4 h4).as16.length = 16 := Inet.Addr.length_as16 _
        have hto4 : IP.to4 (Inet.Addr.v4 ip4 h4).as16 = some ip4 := by
          rw [to4_of_length hlen]
          simp [Inet.Addr.as16, v4InV6Prefix]
        have hb' : ones ≤ 32 := hb.2
        have hl : ip4.length = 4 ∨ ip4.length = 16 := Or.inl h4
        have hp := parsed_mask hl (show ones ≤ 8 * ip4.length by omega)
        rw [h4] at hp
        rw [Inet.Addr.bitLen, mask_of_mapped hlen hto4 (length_cidrMask (Or.inl rfl) hb')]
        exact hp
      | v6 ip6 zone h6 =>
        have hb' : ones ≤ 128 := hb.2
        have hl : ip6.length = 4 ∨ ip6.length = 16 := Or.inr h6
        have hp := parsed_mask hl (show ones ≤ 8 * ip6.length by omega)
        rw [h6] at hp
        rw [Inet.Addr.bitLen, Inet.Addr.as16, mask_of_length (by
          rw [h6, length_cidrMask (Or.inr rfl) hb'])]
        exact hp
    next => cases h

namespace IPNet

variable {n : IPNet} {ones : Nat}

theorem Parsed.bits (h : n.Parsed ones) : 8 * n.ip.length = 32 ∨ 8 * n.ip.length = 128 := by
  have := h.length
  omega

theorem Parsed.length_mask (h : n.Parsed ones) : n.mask.length = n.ip.length := by
  rw [h.mask, length_cidrMask h.bits h.le]
  omega

theorem Parsed.size (h : n.Parsed ones) : maskSize n.mask = (ones, 8 * n.ip.length) := by
  rw [h.mask, maskSize_cidrMask h.bits h.le]

/-- The address does not map one of another family. -/
def Native (n : IPNet) : Prop := n.ip.length = 4 ∨ n.ip.to4 = none

instance (n : IPNet) : Decidable n.Native := inferInstanceAs (Decidable (_ ∨ _))

theorem Native.getD (h : n.Native) : n.ip.to4.getD n.ip = n.ip := by
  rcases h with h | h
  · rw [IP.to4, if_pos h]
    rfl
  · rw [h]
    rfl

theorem Native.to4_isSome (h : n.Native) : n.ip.to4.isSome = decide (n.ip.length = 4) := by
  rcases h with h | h
  · rw [IP.to4, if_pos h, decide_eq_true h]
    rfl
  · have hne : n.ip.length ≠ 4 := by
      intro he
      rw [IP.to4, if_pos he] at h
      cases h
    rw [h, decide_eq_false hne]
    rfl

/-- A native network contains the addresses of its family that agree with it under the
mask. -/
theorem contains_iff (hp : n.Parsed ones) (hn : n.Native) {ip : IP} :
    n.contains ip = true ↔
      (ip.to4.getD ip).length = n.ip.length ∧
        List.zipWith (· &&& ·) (ip.to4.getD ip) n.mask = n.ip := by
  have hlen := hp.length
  have hnn : n.networkNumberAndMask = (n.ip, n.mask) := by
    have hfam : ¬(n.ip.length ≠ 4 ∧ n.ip.length ≠ 16) := by omega
    simp only [networkNumberAndMask, hn.getD, if_neg hfam, if_pos hp.length_mask]
  simp only [contains, hnn, decide_eq_true_eq, hp.masked]
  exact and_congr_right fun _ => eq_comm

end IPNet

end Utils

end CloudPing
