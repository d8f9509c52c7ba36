import CloudPing.Web.IPAddr
import Mathlib.Data.List.Basic
import Mathlib.Data.Nat.Bitwise

/-!
# The bits of an address

The bits of an address are counted from its most significant one.  `getMaskedValue` reads some of
them, and `toMask` keeps those in front of a place.

`toMask` goes byte by byte.  In each byte it keeps as many of the highest bits as the prefix still
covers (`testBit_maskByte`), and a bit of the address is one of the byte it is in
(`testBit_ofBytes`).
-/

namespace CloudPing.Web

open Trie

namespace IPAddr

def bit (ip : IPAddr) (i : Nat) : Bool := ip.value.testBit (ip.maxBits - 1 - i)

/-! ## Masks -/

/-- What the loop of `toMask` pushes for a byte. -/
def maskByte (prefixLen : Nat) (x : UInt8 × Nat) : UInt8 :=
  let (byte, i) := x
  let bitsOffset := i * 8
  if bitsOffset ≥ prefixLen then 0
  else
    let nbits := min 8 (prefixLen - bitsOffset)
    UInt8.ofNat (byte.toNat &&& mask nbits)

def toMask (ip : IPAddr) (prefixLen : Nat) : IPAddr where
  data := ip.data.zipIdx.map (maskByte prefixLen)
  family := ip.family
  length_data := by rw [List.length_map, List.length_zipIdx, ip.length_data]

/-- The mask has the highest bits. -/
theorem testBit_mask {nbits j : Nat} (hj : j < 8) (hn : nbits ≤ 8) :
    (mask nbits).testBit j = decide (8 - nbits ≤ j) := by
  have hall : ∀ nbits ≤ 8, ∀ j < 8, (mask nbits).testBit j = decide (8 - nbits ≤ j) := by decide
  exact hall nbits hn j hj

/-- A byte keeps its bits in front of the place. -/
theorem testBit_maskByte (prefixLen i : Nat) (b : UInt8) {j : Nat} (hj : j < 8) :
    (maskByte prefixLen (b, i)).toNat.testBit (7 - j) =
      (b.toNat.testBit (7 - j) && decide (8 * i + j < prefixLen)) := by
  simp only [maskByte]
  split
  next hge =>
    have hout : ¬8 * i + j < prefixLen := by omega
    rw [decide_eq_false hout, Bool.and_false]
    exact Nat.zero_testBit _
  next hlt =>
    have hbyte : b.toNat &&& mask (min 8 (prefixLen - i * 8)) < 256 :=
      Nat.lt_of_le_of_lt Nat.and_le_left b.toNat_lt
    rw [UInt8.toNat_ofNat_of_lt' hbyte, Nat.testBit_and,
      testBit_mask (by omega) (Nat.min_le_left _ _)]
    congr 1
    exact decide_eq_decide.2 (by omega)

/-! ## Bits and bytes -/

/-- A bit of the number that bytes stand for is in one of them. -/
theorem testBit_ofBytes (bs : List UInt8) {i : Nat} (hi : i < 8 * bs.length) :
    (ofBytes bs).testBit (8 * bs.length - 1 - i) =
      (bs.getD (i / 8) 0).toNat.testBit (7 - i % 8) := by
  induction bs generalizing i with
  | nil => exact absurd hi (Nat.not_lt_zero _)
  | cons b bs ih =>
    rw [List.length_cons] at hi
    rw [ofBytes, List.length_cons, Nat.mul_comm b.toNat,
      Nat.testBit_two_pow_mul_add _ (ofBytes_lt bs)]
    rcases Nat.lt_or_ge i 8 with hlt | hge
    · -- the bit is in the first byte
      rw [if_neg (by omega), Nat.div_eq_of_lt hlt, Nat.mod_eq_of_lt hlt, List.getD_cons_zero]
      congr 1
      omega
    · obtain ⟨k, rfl⟩ : ∃ k, i = 8 + k := ⟨i - 8, by omega⟩
      have hpos : 8 * (bs.length + 1) - 1 - (8 + k) = 8 * bs.length - 1 - k := by omega
      have hdiv : (8 + k) / 8 = k / 8 + 1 := by omega
      rw [hpos, if_pos (by omega), ih (by omega), hdiv, List.getD_cons_succ, Nat.add_mod_left]

theorem bit_eq (ip : IPAddr) {i : Nat} (hi : i < ip.maxBits) :
    ip.bit i = (ip.data.getD (i / 8) 0).toNat.testBit (7 - i % 8) := by
  have hbits : ip.maxBits = 8 * ip.data.length := by
    rw [ip.length_data]
    exact ip.family.maxBits_eq
  rw [bit, value, hbits, testBit_ofBytes ip.data (hbits ▸ hi)]

theorem getD_toMask (ip : IPAddr) (prefixLen : Nat) {i : Nat} (hi : i < ip.data.length) :
    (ip.toMask prefixLen).data.getD i 0 = maskByte prefixLen (ip.data.getD i 0, i) := by
  simp [toMask, hi]

/-! ## Fields and prefixes -/

theorem testBit_bitField {w a off n k : Nat} (h : off + n ≤ w) (hk : k < n) :
    (bitField w a off n).testBit (n - 1 - k) = a.testBit (w - 1 - (off + k)) := by
  have hlt : n - 1 - k < n := by omega
  have hpos : n - 1 - k + (w - off - n) = w - 1 - (off + k) := by omega
  rw [bitField, Nat.testBit_mod_two_pow, decide_eq_true hlt, Bool.true_and,
    Nat.testBit_div_two_pow, hpos]

/-- `getMaskedValue` is the bits of the address from an offset on, and `toMask` the address with
the bits from a place on cleared. -/
theorem bits_exact (ip : IPAddr) :
    (∀ bitOffset nbits, bitOffset + nbits ≤ ip.maxBits →
      ip.getMaskedValue bitOffset nbits < 2 ^ nbits ∧
        ∀ k < nbits, (ip.getMaskedValue bitOffset nbits).testBit (nbits - 1 - k) =
          ip.bit (bitOffset + k)) ∧
    ∀ prefixLen, (ip.toMask prefixLen).family = ip.family ∧
      ∀ i < ip.maxBits, (ip.toMask prefixLen).bit i = (ip.bit i && decide (i < prefixLen)) := by
  refine ⟨fun bitOffset nbits h => ?_, fun prefixLen => ⟨rfl, fun i hi => ?_⟩⟩
  · rw [ip.getMaskedValue_eq h]
    exact ⟨Nat.mod_lt _ (Nat.two_pow_pos nbits), fun k hk => testBit_bitField h hk⟩
  · have hlen : i / 8 < ip.data.length := by
      have hbits := ip.family.maxBits_eq
      rw [← ip.length_data] at hbits
      have hi' : i < ip.family.maxBits := hi
      omega
    rw [bit_eq _ (show i < (ip.toMask prefixLen).maxBits from hi), bit_eq ip hi,
      getD_toMask ip prefixLen hlen, testBit_maskByte _ _ _ (Nat.mod_lt i (by decide)),
      Nat.div_add_mod]

/-- `192.168.77.1`. -/
def homeAddr : IPAddr := ⟨[192, 168, 77, 1], .ipv4, rfl⟩

/-- Ten bits that begin and end inside of a byte. -/
theorem bits_exact_homeAddr :
    homeAddr.getMaskedValue 12 10 < 2 ^ 10 ∧
      ∀ k < 10, (homeAddr.getMaskedValue 12 10).testBit (10 - 1 - k) = homeAddr.bit (12 + k) :=
  (bits_exact homeAddr).1 12 10 (by decide)

example : (homeAddr.getMaskedValue 12 10, (homeAddr.toMask 20).data) = (531, [192, 168, 64, 0]) :=
  rfl

end IPAddr

end CloudPing.Web
