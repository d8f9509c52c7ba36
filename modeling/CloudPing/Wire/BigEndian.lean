import Mathlib.Data.List.GetD

/-!
# Big-endian fields of byte lists

Reading and writing 16-bit fields.  `put16` keeps the low 16 bits of an integer, as a
conversion to a 16-bit word does, so that reading gives the remainder modulo 65536
(`get16_put16`).  The other lemmas say where a field of a concatenation is.
-/

namespace Wire

/-- A sequence of bytes. -/
abbrev Bytes := List UInt8

/-- The byte at an offset, zero past the end. -/
def byteAt (b : Bytes) (i : Nat) : Nat := (b.getD i 0).toNat

/-- The field at an offset, most significant byte first. -/
def get16 (b : Bytes) (i : Nat) : Nat := byteAt b i * 256 + byteAt b (i + 1)

/-- The low 16 bits of an integer, most significant byte first. -/
def put16 (n : Int) : Bytes :=
  [UInt8.ofNat ((n % 65536).toNat / 256), UInt8.ofNat (n % 65536).toNat]

@[simp] theorem length_put16 (n : Int) : (put16 n).length = 2 := rfl

theorem byteAt_append_left {a b : Bytes} {i : Nat} (h : i < a.length) :
    byteAt (a ++ b) i = byteAt a i := by
  rw [byteAt, byteAt, List.getD_append _ _ _ _ h]

theorem byteAt_append_right {a b : Bytes} {i : Nat} (h : a.length ≤ i) :
    byteAt (a ++ b) i = byteAt b (i - a.length) := by
  rw [byteAt, byteAt, List.getD_append_right _ _ _ _ h]

theorem byteAt_take {b : Bytes} {n i : Nat} (h : i < n) : byteAt (b.take n) i = byteAt b i := by
  simp only [byteAt, List.getD_eq_getElem?_getD, List.getElem?_take_of_lt h]

theorem byteAt_drop (b : Bytes) (n i : Nat) : byteAt (b.drop n) i = byteAt b (n + i) := by
  simp only [byteAt, List.getD_eq_getElem?_getD, List.getElem?_drop]

theorem get16_append_left {a b : Bytes} {i : Nat} (h : i + 1 < a.length) :
    get16 (a ++ b) i = get16 a i := by
  rw [get16, get16, byteAt_append_left h, byteAt_append_left (Nat.lt_of_succ_lt h)]

theorem get16_append_right {a b : Bytes} {i : Nat} (h : a.length ≤ i) :
    get16 (a ++ b) i = get16 b (i - a.length) := by
  rw [get16, get16, byteAt_append_right h, byteAt_append_right (Nat.le_succ_of_le h),
    Nat.succ_sub h]

theorem get16_drop (b : Bytes) (n i : Nat) : get16 (b.drop n) i = get16 b (n + i) := by
  rw [get16, get16, byteAt_drop, byteAt_drop, Nat.add_assoc]

/-- A field reads back as the integer written, modulo 65536. -/
theorem get16_put16 (n : Int) (rest : Bytes) : (get16 (put16 n ++ rest) 0 : Int) = n % 65536 := by
  have hlt : (n % 65536).toNat < 65536 := by omega
  have hcast : ((n % 65536).toNat : Int) = n % 65536 := by omega
  show (((UInt8.ofNat ((n % 65536).toNat / 256)).toNat * 256 +
    (UInt8.ofNat (n % 65536).toNat).toNat : Nat) : Int) = n % 65536
  simp only [UInt8.toNat_ofNat']
  omega

/-- A field behind one that was written. -/
theorem get16_put16_skip (n : Int) (rest : Bytes) (i : Nat) :
    get16 (put16 n ++ rest) (i + 2) = get16 rest i := rfl

/-! ## Lists that start alike -/

/-- The first `n` bytes are there and are those of `b`. -/
structure Starts (n : Nat) (a b : Bytes) : Prop where
  length : n ≤ a.length
  byte : ∀ i < n, byteAt a i = byteAt b i

namespace Starts

variable {n : Nat} {a b : Bytes}

theorem get16 (h : Starts n a b) {i : Nat} (hi : i + 1 < n) : Wire.get16 a i = Wire.get16 b i := by
  rw [Wire.get16, Wire.get16, h.byte i (Nat.lt_of_succ_lt hi), h.byte (i + 1) hi]

/-- A list that is cut no shorter than `n`, with anything behind it. -/
theorem of_take {m : Nat} (hm : n ≤ m) (hb : n ≤ b.length) (rest : Bytes) :
    Starts n (b.take m ++ rest) b := by
  have hlen : n ≤ (b.take m).length := by rw [List.length_take]; omega
  refine ⟨?_, fun i hi => ?_⟩
  · rw [List.length_append]
    exact Nat.le_add_right_of_le hlen
  · rw [byteAt_append_left (Nat.lt_of_lt_of_le hi hlen), byteAt_take (Nat.lt_of_lt_of_le hi hm)]

theorem take (h : Starts n a b) {m : Nat} (hm : n ≤ m) : Starts n (a.take m) b := by
  have hlen := h.length
  refine ⟨by rw [List.length_take]; omega, fun i hi => ?_⟩
  rw [byteAt_take (Nat.lt_of_lt_of_le hi hm)]
  exact h.byte i hi

end Starts

end Wire
