import CloudPing.Inet.AddrText
import CloudPing.Utils.IPText
import CloudPing.Utils.Parse

/-!
# Networks printed

`String` of `net.IPNet`.  Reading the text of a network that `ParseCIDR` made, of native form, gives
the network (`parseCIDR_ipNetString`).
-/

namespace CloudPing.Utils

/-- `networkNumberAndMask`. -/
def networkNumberAndMask (n : IPNet) : Option (IP × List UInt8) :=
  let ip := n.ip.to4.getD n.ip
  if n.ip.to4 = none ∧ n.ip.length ≠ 16 then none
  else if n.mask.length = 4 then if ip.length ≠ 4 then none else some (ip, n.mask)
  else if n.mask.length = 16 then some (ip, if ip.length = 4 then n.mask.drop 12 else n.mask)
  else none

/-- `IPNet.String`. -/
def ipNetString (n : IPNet) : String :=
  match networkNumberAndMask n with
  | none => "<nil>"
  | some (nn, m) =>
    match simpleMaskLength m with
    | none => ipString nn ++ "/" ++ hexString m
    | some l => ipString nn ++ "/" ++ toString l

example : ipNetString ⟨[172, 23, 0, 0], [255, 255, 255, 0]⟩ = "172.23.0.0/24" := by decide

variable {n : IPNet} {ones : Nat}

/-- The text of an address has an address of this family behind it, and no slash. -/
theorem parseAddr_ipString {ip : IP} (hl : ip.length = 4 ∨ ip.length = 16)
    (hn : ip.length = 4 ∨ ip.to4 = none) :
    ∃ addr : Inet.Addr, Inet.parseAddr (ipString ip).toList = some addr ∧ addr.zone = [] ∧
      addr.bitLen = 8 * ip.length ∧ addr.as16.length = 16 ∧
        ∀ mask : List UInt8, mask.length = ip.length →
          IP.mask addr.as16 mask = List.zipWith (· &&& ·) ip mask := by
  have hne : ip ≠ [] := by
    rintro rfl
    rcases hl with hl | hl <;> cases hl
  have hlen : ¬(ip.length ≠ 4 ∧ ip.length ≠ 16) := by omega
  rw [ipString, if_neg hne, if_neg hlen]
  rcases hn with h4 | hnone
  · rw [to4_of_length_four h4]
    refine ⟨.v4 ip h4, ?_, rfl, ?_, Inet.Addr.length_as16 _, fun mask hm => ?_⟩
    · rw [String.toList_ofList, Inet.parseAddr_format4 h4]
    · rw [h4]
      rfl
    · have hlong : IP.to4 (Inet.Addr.v4 ip h4).as16 = some ip := by
        rw [to4_of_length (Inet.Addr.length_as16 _)]
        rfl
      exact mask_of_mapped (Inet.Addr.length_as16 _) hlong (hm.trans h4)
  · have h16 : ip.length = 16 := by
      refine hl.resolve_left fun h4 => ?_
      rw [to4_of_length_four h4] at hnone
      cases hnone
    rw [hnone]
    refine ⟨.v6 ip [] h16, ?_, rfl, ?_, h16, fun mask hm => mask_of_length hm.symm⟩
    · rw [String.toList_ofList, Inet.parseAddr_format6 h16]
    · rw [h16]
      rfl

theorem networkNumberAndMask_native (hp : n.Parsed ones) (hn : n.Native) :
    networkNumberAndMask n = some (n.ip, n.mask) := by
  have hmask := hp.length_mask
  rcases hp.length with h4 | h16
  · have hto4 := to4_of_length_four h4
    simp only [networkNumberAndMask, hto4, hmask, h4]
    simp [h4]
  · have hne : n.ip.length ≠ 4 := by omega
    have hto4 : n.ip.to4 = none := hn.resolve_left hne
    simp only [networkNumberAndMask, hto4, hmask, h16]
    simp [h16]

theorem toList_ipNetString (hp : n.Parsed ones) (hn : n.Native) :
    (ipNetString n).toList = (ipString n.ip).toList ++ '/' :: Nat.toDigits 10 ones := by
  have hsize : simpleMaskLength n.mask = some ones := by
    have hsize := hp.size
    rw [maskSize] at hsize
    split at hsize
    next h =>
      obtain ⟨rfl, hzero⟩ := Prod.mk.inj hsize
      rcases hp.length with hl | hl <;> omega
    next ones' h => rw [h, (Prod.mk.inj hsize).1]
  simp only [ipNetString, networkNumberAndMask_native hp hn, hsize, String.toList_append]
  simp

/-- The text of a network has a slash behind the characters of an address. -/
theorem chars_of_ipNetString (hp : n.Parsed ones) (hn : n.Native) :
    ∀ c ∈ (ipNetString n).toList, Inet.IsAddrChar c ∨ c = '/' := by
  obtain ⟨addr, haddr, hzone, -, -, -⟩ := parseAddr_ipString hp.length hn
  intro c hc
  rw [toList_ipNetString hp hn, List.mem_append, List.mem_cons] at hc
  rcases hc with hc | hc | hc
  · exact Or.inl (Inet.chars_of_parseAddr haddr hzone c hc)
  · exact Or.inr hc
  · exact Or.inl (Or.inl (Inet.isHex_of_isDigit (Wire.isDigit_of_mem_toDigits hc)))

theorem le_of_isAddrChar {c : Char} (h : Inet.IsAddrChar c) : c ≤ 'f' := by
  rcases h with h | rfl | rfl
  · rw [Inet.isHex, Wire.hexValue] at h
    split_ifs at h with hdigit hlower hupper
    · rw [Char.isDigit, Bool.and_eq_true, decide_eq_true_eq, decide_eq_true_eq] at hdigit
      exact Char.le_trans (show c ≤ '9' from hdigit.2) (by decide)
    · exact hlower.2
    · exact Char.le_trans hupper.2 (by decide)
    · cases h
  · decide
  · decide

theorem not_isSpace_of_isAddrChar {c : Char} (h : Inet.IsAddrChar c) : isSpace c = false := by
  have hle := le_of_isAddrChar h
  rw [isSpace, decide_eq_false_iff_not]
  rintro (hm | ⟨hlo, -⟩)
  · simp only [List.mem_cons, List.not_mem_nil, or_false] at hm
    rcases hm with rfl | rfl | rfl | rfl | rfl | rfl | rfl | rfl | rfl | rfl | rfl | rfl | rfl |
      rfl <;>
      exact absurd h (by decide)
  · have hgap : '\u2000' ≤ 'f' := Char.le_trans hlo hle
    exact absurd hgap (by decide)

/-- The text of a network is read as the network. -/
theorem parseCIDR_ipNetString (hp : n.Parsed ones) (hn : n.Native) :
    ∃ ip, parseCIDR (ipNetString n) = some (ip, n) := by
  obtain ⟨addr, haddr, hzone, hbits, -, hmasked⟩ := parseAddr_ipString hp.length hn
  have htext := toList_ipNetString hp hn
  have hslash : ∀ c ∈ (ipString n.ip).toList, decide (c ≠ '/') = true := by
    intro c hc
    refine decide_eq_true ?_
    rintro rfl
    rcases Inet.chars_of_parseAddr haddr hzone '/' hc with h | h | h <;> revert h <;> decide
  have hdigits : dtoi (Nat.toDigits 10 ones) = some ones := by
    have hval : Nat.ofDigitChars 10 (Nat.toDigits 10 ones) 0 = ones :=
      Nat.ofDigitChars_ten_toDigits
    have hlt : ones < 0xFFFFFF := by
      have hle := hp.le
      rcases hp.length with hl | hl <;> omega
    have hall : (Nat.toDigits 10 ones).all Char.isDigit = true :=
      List.all_eq_true.2 fun c hc => Wire.isDigit_of_mem_toDigits hc
    rw [dtoi, hval, if_pos ⟨Nat.toDigits_ne_nil, hall, hlt⟩]
  have hm : cidrMask ones (8 * n.ip.length) = n.mask := hp.mask.symm
  have hself : IP.mask addr.as16 n.mask = n.ip := by rw [hmasked n.mask hp.length_mask, hp.masked]
  refine ⟨addr.as16, ?_⟩
  rw [parseCIDR, htext, List.takeWhile_append_of_pos hslash, List.dropWhile_append_of_pos hslash,
    List.takeWhile_cons, List.dropWhile_cons, if_neg (by decide), if_neg (by decide),
    List.append_nil]
  simp only [haddr, hdigits, hzone, true_and, hbits, if_pos hp.le, hm, hself]

end CloudPing.Utils
