import CloudPing.Utf8.Text

/-!
# Reading UTF-8

A reader takes the bytes of one character at a time.  A byte that belongs to no character is
read as the replacement character, and the reader goes on behind it.  The bytes of a text are
read as the text (`decode_encode`).

A byte below 0x80 in the bytes of a text is a character of the text (`mem_of_mem_encode`), so a
separator of one byte stands nowhere else.
-/

namespace Utf8

/-- The first character of some bytes. -/
def firstChar (bs : List UInt8) : Option Char := bs.toByteArray.utf8DecodeChar? 0

/-- The characters of some bytes. -/
def decode : List UInt8 → List Char
  | [] => []
  | b :: bs =>
    match firstChar (b :: bs) with
    | some c => c :: decode (bs.drop (c.utf8Size - 1))
    | none => '\ufffd' :: decode bs
termination_by bs => bs.length
decreasing_by
  · rw [List.length_drop, List.length_cons]
    omega
  · exact Nat.lt_succ_self _

theorem firstChar_append (c : Char) (bs : List UInt8) :
    firstChar (String.utf8EncodeChar c ++ bs) = some c := by
  rw [firstChar, List.toByteArray_append]
  exact ByteArray.utf8DecodeChar?_utf8EncodeChar_append

theorem decode_append (c : Char) (bs : List UInt8) :
    decode (String.utf8EncodeChar c ++ bs) = c :: decode bs := by
  have hchar := firstChar_append c bs
  obtain ⟨x, t, hx, -, -⟩ := encodeChar_eq_cons c
  have hlen := String.length_utf8EncodeChar c
  rw [hx, List.cons_append] at hchar
  rw [hx, List.length_cons] at hlen
  rw [hx, List.cons_append, decode, hchar]
  have hdrop : (t ++ bs).drop (c.utf8Size - 1) = bs := by
    rw [← hlen, Nat.add_sub_cancel, List.drop_left]
  simp only [hdrop]

/-- The bytes of a text are read as the text. -/
theorem decode_encode (cs : List Char) : decode (encode cs) = cs := by
  induction cs with
  | nil => rw [encode, List.flatMap_nil, decode]
  | cons c cs ih => rw [encode_cons, decode_append, ih]

/-! ## Bytes that are characters -/

/-- A byte of a character that is below 0x80 is the character. -/
theorem toNat_of_mem_encodeChar {c : Char} {b : UInt8} (hb : b ∈ String.utf8EncodeChar c)
    (hlt : b.toNat < 0x80) : b.toNat = c.toNat := by
  unfold String.utf8EncodeChar at hb
  dsimp only at hb
  split_ifs at hb with h₁ h₂ h₃
  · rw [List.mem_singleton] at hb
    subst hb
    rw [UInt8.toNat_ofNat']
    exact Nat.mod_eq_of_lt (Nat.lt_of_le_of_lt h₁ (by decide))
  all_goals
    simp only [List.mem_cons, List.not_mem_nil, or_false] at hb
    rcases hb with rfl | hb <;> grind [UInt8.toNat_ofNat']

theorem mem_of_mem_encode {cs : List Char} {b : UInt8} (hb : b ∈ encode cs)
    (hlt : b.toNat < 0x80) : ∃ c ∈ cs, b.toNat = c.toNat := by
  obtain ⟨c, hc, hbc⟩ := List.mem_flatMap.1 hb
  exact ⟨c, hc, toNat_of_mem_encodeChar hbc hlt⟩

end Utf8
