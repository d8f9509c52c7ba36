import Mathlib.Data.Nat.Bitwise
import Mathlib.Tactic.Ring
import CloudPing.Grid.Position
import CloudPing.Trie.Prefix

/-!
# Addresses of the web client

`IPAddr` holds the bytes of an address.  `getMaskedValue` reads some of its bits as a
number, byte by byte with masks.  What it reads is a segment of the number the bytes stand
for (`getMaskedValue_eq`).
-/

namespace CloudPing.Web

open Trie

inductive IPAddressFamily where
  | ipv4
  | ipv6
  deriving DecidableEq, Repr

/-- The number of bytes of an address. -/
def IPAddressFamily.byteLength : IPAddressFamily → Nat
  | .ipv4 => 4
  | .ipv6 => 16

/-- The bits of an address of a family, `getMaxBits` of such an address. -/
def IPAddressFamily.maxBits : IPAddressFamily → Nat
  | .ipv4 => 32
  | .ipv6 => 128

theorem IPAddressFamily.maxBits_eq (family : IPAddressFamily) :
    family.maxBits = 8 * family.byteLength := by
  cases family <;> rfl

structure IPAddr where
  data : List UInt8
  family : IPAddressFamily
  length_data : data.length = family.byteLength
  deriving DecidableEq, Repr

/-! ## Bytes as a number -/

/-- The number that bytes stand for, most significant first. -/
def ofBytes : List UInt8 → Nat
  | [] => 0
  | b :: bs => b.toNat * 2 ^ (8 * bs.length) + ofBytes bs

theorem ofBytes_lt (bs : List UInt8) : ofBytes bs < 2 ^ (8 * bs.length) := by
  induction bs with
  | nil => decide
  | cons b bs ih =>
    have hb : b.toNat + 1 ≤ 2 ^ 8 := b.toNat_lt
    have hmul := Nat.mul_le_mul_right (2 ^ (8 * bs.length)) hb
    rw [ofBytes, List.length_cons, Nat.mul_add, Nat.mul_one, Nat.pow_add, Nat.mul_comm (2 ^ _)]
    rw [Nat.add_mul, Nat.one_mul] at hmul
    omega

/-- A number of so many bytes is written in them. -/
theorem exists_ofBytes (n : Nat) {v : Nat} (h : v < 2 ^ (8 * n)) :
    ∃ bs : List UInt8, bs.length = n ∧ ofBytes bs = v := by
  induction n generalizing v with
  | zero =>
    refine ⟨[], rfl, ?_⟩
    rw [Nat.mul_zero, Nat.pow_zero] at h
    exact (Nat.lt_one_iff.1 h).symm
  | succ n ih =>
    obtain ⟨bs, hlen, hbs⟩ := ih (Nat.mod_lt v (Nat.two_pow_pos (8 * n)))
    have hbyte : v / 2 ^ (8 * n) < 2 ^ 8 := by
      rw [Nat.div_lt_iff_lt_mul (Nat.two_pow_pos _), ← Nat.pow_add]
      rwa [Nat.mul_add, Nat.mul_one, Nat.add_comm] at h
    refine ⟨UInt8.ofNat (v / 2 ^ (8 * n)) :: bs, by rw [List.length_cons, hlen], ?_⟩
    rw [ofBytes, hlen, hbs, UInt8.toNat_ofNat', Nat.mod_eq_of_lt hbyte, Nat.mul_comm]
    exact Nat.div_add_mod v (2 ^ (8 * n))

theorem ofBytes_append (bs cs : List UInt8) :
    ofBytes (bs ++ cs) = ofBytes bs * 2 ^ (8 * cs.length) + ofBytes cs := by
  induction bs with
  | nil => simp [ofBytes]
  | cons b bs ih =>
    rw [List.cons_append, ofBytes, ih, ofBytes, List.length_append, Nat.mul_add, Nat.pow_add,
      Nat.add_mul, Nat.mul_assoc, Nat.add_assoc]

namespace IPAddr

def value (ip : IPAddr) : Nat := ofBytes ip.data

def maxBits (ip : IPAddr) : Nat := ip.family.maxBits

theorem value_lt (ip : IPAddr) : ip.value < 2 ^ ip.maxBits := by
  have hlt := ofBytes_lt ip.data
  rwa [ip.length_data, ← IPAddressFamily.maxBits_eq] at hlt

/-! ## Reading bits -/

/-- The lowest `8 - nbits` bits. -/
def revmask (nbits : Nat) : Nat := 1 <<< (8 - nbits) - 1

/-- The highest `nbits` of eight bits. -/
def mask (nbits : Nat) : Nat := 0xff - (1 <<< (8 - nbits) - 1)

/-- The body of the loop over the bytes, on the value and the bits that are left. -/
def readByte (byteOffset bitOffset : Nat) (st : Nat × Nat) (x : UInt8 × Nat) : Nat × Nat :=
  let (value, nbits) := st
  let (byte, i) := x
  if i < byteOffset then st
  else if i = byteOffset then
    let value := byte.toNat &&& revmask bitOffset
    let bitsRead := min (8 - bitOffset) nbits
    let value := value &&& mask (bitOffset + bitsRead)
    (value >>> (8 - bitOffset - bitsRead), nbits - bitsRead)
  else if nbits > 0 then
    let bitsRead := min 8 nbits
    let value := value <<< bitsRead
    (value ||| ((byte.toNat &&& mask bitsRead) >>> (8 - bitsRead)), nbits - bitsRead)
  else st

def getMaskedValue (ip : IPAddr) (bitOffset nbits : Nat) : Nat :=
  if nbits = 0 then 0
  else (ip.data.zipIdx.foldl (readByte (bitOffset / 8) (bitOffset % 8)) (0, nbits)).1

/-! ## What the masks do -/

theorem and_revmask (v nbits : Nat) : v &&& revmask nbits = v % 2 ^ (8 - nbits) := by
  rw [revmask, Nat.one_shiftLeft, Nat.and_two_pow_sub_one_eq_mod]

/-- The bits that the mask takes away are shifted out all the same. -/
theorem and_mask_shiftRight {v nbits : Nat} (hv : v < 2 ^ 8) :
    (v &&& mask nbits) >>> (8 - nbits) = v / 2 ^ (8 - nbits) := by
  have hle : 2 ^ (8 - nbits) ≤ 2 ^ 8 := Nat.pow_le_pow_right (by decide) (Nat.sub_le 8 nbits)
  have hpos := Nat.two_pow_pos (8 - nbits)
  have hmask : mask nbits = 2 ^ 8 - (2 ^ (8 - nbits) - 1 + 1) := by
    rw [mask, Nat.one_shiftLeft]
    omega
  rw [← Nat.shiftRight_eq_div_pow, hmask]
  apply Nat.eq_of_testBit_eq
  intro i
  rw [Nat.testBit_shiftRight, Nat.testBit_shiftRight, Nat.testBit_and,
    Nat.testBit_two_pow_sub_succ (by omega), Nat.testBit_two_pow_sub_one]
  rcases Nat.lt_or_ge (8 - nbits + i) 8 with hlt | hge
  · simp [hlt]
  · rw [Nat.testBit_lt_two_pow (Nat.lt_of_lt_of_le hv (Nat.pow_le_pow_right (by decide) hge))]
    rfl

/-! ## The bytes behind the first one -/

/-- The loop over the bytes behind the one at the offset shifts the value up and puts their
highest bits below it. -/
theorem foldl_readByte_after (byteOffset bitOffset : Nat) (bs : List UInt8) {i : Nat}
    (hi : byteOffset < i) (value nbits : Nat) (hn : nbits ≤ 8 * bs.length) :
    ((bs.zipIdx i).foldl (readByte byteOffset bitOffset) (value, nbits)).1 =
      value * 2 ^ nbits + ofBytes bs / 2 ^ (8 * bs.length - nbits) := by
  induction bs generalizing i value nbits with
  | nil =>
    have hzero : nbits = 0 := Nat.le_zero.1 hn
    subst hzero
    simp [ofBytes]
  | cons b bs ih =>
    have hstep : readByte byteOffset bitOffset (value, nbits) (b, i) =
        (value * 2 ^ (min 8 nbits) + b.toNat / 2 ^ (8 - min 8 nbits), nbits - min 8 nbits) := by
      have hnlt : ¬ i < byteOffset := by omega
      have hne : i ≠ byteOffset := by omega
      simp only [readByte, if_neg hnlt, if_neg hne]
      split
      next hpos =>
        have hr : 8 - min 8 nbits + min 8 nbits = 8 := by omega
        have hbyte : b.toNat / 2 ^ (8 - min 8 nbits) < 2 ^ (min 8 nbits) := by
          rw [Nat.div_lt_iff_lt_mul (Nat.two_pow_pos _), ← Nat.pow_add, Nat.add_comm, hr]
          exact b.toNat_lt
        rw [and_mask_shiftRight b.toNat_lt, ← Nat.shiftLeft_add_eq_or_of_lt hbyte,
          Nat.shiftLeft_eq]
      next hzero =>
        have hzero : nbits = 0 := by omega
        subst hzero
        simpa using b.toNat_lt
    rw [List.length_cons] at hn
    rw [List.zipIdx_cons, List.foldl_cons, hstep, ih (Nat.lt_succ_of_lt hi) _ _ (by omega),
      ofBytes, List.length_cons]
    rcases Nat.lt_or_ge nbits 8 with hlt | hge
    · -- the bits end in this byte
      have hmin : min 8 nbits = nbits := by omega
      have hbs : ofBytes bs / 2 ^ (8 * bs.length) = 0 := Nat.div_eq_of_lt (ofBytes_lt bs)
      have hsplit : 8 * (bs.length + 1) - nbits = 8 * bs.length + (8 - nbits) := by omega
      rw [hmin, Nat.sub_self, Nat.sub_zero, hbs, hsplit, Nat.pow_add, ← Nat.div_div_eq_div_mul,
        Grid.div_position (ofBytes_lt bs)]
      simp
    · -- the whole byte is read
      have hmin : min 8 nbits = 8 := by omega
      have hsplit : 8 * (bs.length + 1) - nbits = 8 * bs.length - (nbits - 8) := by omega
      have hpow : 2 ^ (8 * bs.length) = 2 ^ (nbits - 8) * 2 ^ (8 * bs.length - (nbits - 8)) := by
        rw [← Nat.pow_add]
        congr 1
        omega
      have hvalue : 2 ^ nbits = 2 ^ 8 * 2 ^ (nbits - 8) := by
        rw [← Nat.pow_add]
        congr 1
        omega
      rw [hmin, hsplit, hpow, ← Nat.mul_assoc, Nat.add_comm (_ * _ * _) (ofBytes bs),
        Nat.add_mul_div_right _ _ (Nat.two_pow_pos _), hvalue]
      simp only [Nat.sub_self, Nat.pow_zero, Nat.div_one]
      ring

/-! ## The bits that are read -/

theorem foldl_readByte_before (byteOffset bitOffset : Nat) (bs : List UInt8) {i : Nat}
    (hi : i + bs.length ≤ byteOffset) (st : Nat × Nat) :
    (bs.zipIdx i).foldl (readByte byteOffset bitOffset) st = st := by
  induction bs generalizing i with
  | nil => rfl
  | cons b bs ih =>
    rw [List.length_cons] at hi
    have hlt : i < byteOffset := by omega
    have hstep : readByte byteOffset bitOffset st (b, i) = st := by
      simp only [readByte, if_pos hlt]
    rw [List.zipIdx_cons, List.foldl_cons, hstep]
    exact ih (by omega)

/-- The byte at the offset. -/
theorem readByte_at {bitOffset nbits : Nat} (byteOffset : Nat) (b : UInt8) (value : Nat) :
    readByte byteOffset bitOffset (value, nbits) (b, byteOffset) =
      (b.toNat % 2 ^ (8 - bitOffset) / 2 ^ (8 - bitOffset - min (8 - bitOffset) nbits),
        nbits - min (8 - bitOffset) nbits) := by
  have hlt : b.toNat % 2 ^ (8 - bitOffset) < 2 ^ 8 :=
    Nat.lt_of_le_of_lt (Nat.mod_le _ _) b.toNat_lt
  simp only [readByte, Nat.lt_irrefl, if_false, if_true, and_revmask, Nat.sub_sub,
    and_mask_shiftRight hlt]

/-- A segment within the lowest bits of a number, cut off above it. -/
theorem div_mod_two_pow (x t n : Nat) : x / 2 ^ t % 2 ^ n = x % 2 ^ (n + t) / 2 ^ t := by
  rw [Nat.add_comm n t, Nat.pow_add, Nat.mod_mul_right_div_self]

/-- `getMaskedValue` reads a segment of the number the bytes stand for. -/
theorem getMaskedValue_eq (ip : IPAddr) {off n : Nat} (h : off + n ≤ ip.maxBits) :
    ip.getMaskedValue off n = bitField ip.maxBits ip.value off n := by
  rw [getMaskedValue]
  split
  next hzero =>
    rw [bitField, hzero, Nat.pow_zero, Nat.mod_one]
  next hpos =>
    have hbits : ip.maxBits = 8 * ip.data.length := by
      rw [ip.length_data]
      exact ip.family.maxBits_eq
    have hoff : off / 8 < ip.data.length := by omega
    obtain ⟨o, ho⟩ : ∃ o, o = off % 8 := ⟨_, rfl⟩
    obtain ⟨front, b, rest, hdata, hfront⟩ :
        ∃ front b rest, ip.data = front ++ b :: rest ∧ front.length = off / 8 :=
      ⟨ip.data.take (off / 8), ip.data[off / 8], ip.data.drop (off / 8 + 1), by simp,
        by rw [List.length_take]; omega⟩
    have hlen : ip.data.length = off / 8 + (rest.length + 1) := by
      rw [hdata, List.length_append, hfront, List.length_cons]
    have hvalue : ip.value = (ofBytes front * 2 ^ 8 + b.toNat) * 2 ^ (8 * rest.length) +
        ofBytes rest := by
      rw [value, hdata, ofBytes_append, ofBytes, List.length_cons, Nat.mul_add, Nat.pow_add]
      ring
    have hrest := ofBytes_lt rest
    have hread : (ip.data.zipIdx.foldl (readByte (off / 8) (off % 8)) (0, n)).1 =
        b.toNat % 2 ^ (8 - o) / 2 ^ (8 - o - min (8 - o) n) * 2 ^ (n - min (8 - o) n) +
          ofBytes rest / 2 ^ (8 * rest.length - (n - min (8 - o) n)) := by
      rw [← ho, hdata, List.zipIdx_append, List.foldl_append,
        foldl_readByte_before (off / 8) o front (i := 0) (by omega), List.zipIdx_cons,
        List.foldl_cons, Nat.zero_add, hfront, readByte_at]
      exact foldl_readByte_after _ _ _ (Nat.lt_succ_self _) _ _ (by omega)
    have hmod : (ofBytes front * 2 ^ 8 + b.toNat) % 2 ^ (8 - o) = b.toNat % 2 ^ (8 - o) := by
      have hpow : 2 ^ 8 = 2 ^ (8 - o) * 2 ^ o := by
        rw [← Nat.pow_add]
        congr 1
        omega
      rw [hpow, Nat.mul_comm (2 ^ (8 - o)), ← Nat.mul_assoc, Nat.mul_add_mod_self_right]
    rw [hread, bitField, hvalue, hbits, hlen]
    rcases Nat.le_total n (8 - o) with hle | hge
    · -- all bits are in the byte at the offset
      have hmin : min (8 - o) n = n := by omega
      have hshift : 8 * (off / 8 + (rest.length + 1)) - off - n =
          8 * rest.length + (8 - o - n) := by omega
      have hsum : n + (8 - o - n) = 8 - o := by omega
      rw [hmin, hshift, Nat.pow_add, ← Nat.div_div_eq_div_mul, Grid.div_position hrest,
        div_mod_two_pow, hsum, hmod, Nat.sub_self, Nat.sub_zero, Nat.div_eq_of_lt hrest]
      simp
    · -- the bits go on behind it
      have hmin : min (8 - o) n = 8 - o := by omega
      obtain ⟨k, hk⟩ : ∃ k, n = 8 - o + k := ⟨n - (8 - o), by omega⟩
      have hshift : 8 * (off / 8 + (rest.length + 1)) - off - n = 8 * rest.length - k := by omega
      have hpow : 2 ^ (8 * rest.length) = 2 ^ k * 2 ^ (8 * rest.length - k) := by
        rw [← Nat.pow_add]
        congr 1
        omega
      have hlow : ofBytes rest / 2 ^ (8 * rest.length - k) < 2 ^ k := by
        rw [Nat.div_lt_iff_lt_mul (Nat.two_pow_pos _), ← hpow]
        exact hrest
      have hsub : n - (8 - o) = k := by omega
      rw [hmin, hsub, hshift, hpow, ← Nat.mul_assoc, Nat.add_comm (_ * _ * _) (ofBytes rest),
        Nat.add_mul_div_right _ _ (Nat.two_pow_pos _), hk, Nat.sub_self, Nat.pow_zero, Nat.div_one,
        Nat.pow_add, Nat.mul_comm (2 ^ (8 - o)), Nat.mod_mul, Nat.add_mul_mod_self_right,
        Nat.mod_eq_of_lt hlow, Nat.add_mul_div_right _ _ (Nat.two_pow_pos k),
        Nat.div_eq_of_lt hlow, Nat.zero_add, hmod]
      ring

end IPAddr

end CloudPing.Web
