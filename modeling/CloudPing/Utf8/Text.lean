import Mathlib.Data.List.Basic
import Mathlib.Tactic.SplitIfs

/-!
# Texts in UTF-8

The bytes of a text are valid.  Where a text may be cut is seen from one byte: a piece that
begins with the first byte of a character, or is empty, may stand behind any text
(`valid_append_iff`), and in a text a front part is a text exactly if such a piece is left
(`Valid.front_iff`).

Runes are counted in any bytes.  A byte that belongs to no character is a rune of its own.  So
there are never more runes than bytes, and the runes of two pieces add up where the second one
may start (`runeCount_append`).
-/

namespace Utf8

/-! What holds of all bytes of a text is decided byte by byte. -/

scoped instance (priority := 2000) decidableForallMem (bs : List UInt8) (P : UInt8 → Prop)
    [DecidablePred P] : Decidable (∀ b ∈ bs, P b) := List.decidableBAll P bs

scoped instance (priority := 2000) decidableForallMemOption (o : Option UInt8) (P : UInt8 → Prop)
    [DecidablePred P] : Decidable (∀ b ∈ o, P b) := Option.decidableForallMem o

/-! ## Valid bytes -/

def encode (cs : List Char) : List UInt8 := cs.flatMap String.utf8EncodeChar

def Valid (bs : List UInt8) : Prop := ∃ cs, encode cs = bs

/-- A text may start here. -/
def Starts (bs : List UInt8) : Prop := ∀ b ∈ bs.head?, b.IsUTF8FirstByte

instance (bs : List UInt8) : Decidable (Starts bs) :=
  inferInstanceAs (Decidable (∀ b ∈ bs.head?, b.IsUTF8FirstByte))

variable {a b bs : List UInt8} {c d : Char} {cs : List Char}

theorem starts_nil : Starts [] := fun _ h => by cases h

theorem starts_cons {x : UInt8} : Starts (x :: bs) ↔ x.IsUTF8FirstByte :=
  ⟨fun h => h x rfl, fun h _ hy => Option.some.inj hy ▸ h⟩

/-- Of the bytes of a character only the first one is a first byte. -/
theorem encodeChar_eq_cons (c : Char) :
    ∃ x t, String.utf8EncodeChar c = x :: t ∧ x.IsUTF8FirstByte ∧
      ∀ y ∈ t, ¬y.IsUTF8FirstByte := by
  have hfirst : ∀ i (hi : i < (String.utf8EncodeChar c).length),
      (String.utf8EncodeChar c)[i].IsUTF8FirstByte ↔ i = 0 :=
    fun i hi => UInt8.isUTF8FirstByte_getElem_utf8EncodeChar
  cases h : String.utf8EncodeChar c with
  | nil =>
    have hlen := String.length_utf8EncodeChar c
    rw [h] at hlen
    exact absurd hlen.symm (Nat.ne_of_gt c.utf8Size_pos)
  | cons x t =>
    simp only [h] at hfirst
    refine ⟨x, t, rfl, (hfirst 0 (Nat.zero_lt_succ _)).2 rfl, fun y hy hy' => ?_⟩
    obtain ⟨i, hi, rfl⟩ := List.mem_iff_getElem.1 hy
    exact absurd ((hfirst (i + 1) (Nat.succ_lt_succ hi)).1 hy') (Nat.succ_ne_zero i)

theorem encode_cons (c : Char) (cs : List Char) :
    encode (c :: cs) = String.utf8EncodeChar c ++ encode cs := List.flatMap_cons

theorem starts_encode (cs : List Char) : Starts (encode cs) := by
  cases cs with
  | nil => exact starts_nil
  | cons c cs =>
    obtain ⟨x, t, h, hx, -⟩ := encodeChar_eq_cons c
    rw [encode_cons, h]
    exact starts_cons.2 hx

theorem Valid.starts (h : Valid bs) : Starts bs := by
  obtain ⟨cs, rfl⟩ := h
  exact starts_encode cs

theorem valid_nil : Valid [] := ⟨[], rfl⟩

/-- The characters of ASCII are their bytes. -/
theorem valid_ascii (h : ∀ x ∈ bs, x < 0x80) : Valid bs := by
  have hall : ∀ n : Fin 128,
      String.utf8EncodeChar (Char.ofNat n.val) = [UInt8.ofNat n.val] := by decide +kernel
  refine ⟨bs.map fun x => Char.ofNat x.toNat, ?_⟩
  rw [encode, List.flatMap_map]
  refine (List.flatMap_congr fun x hx => ?_).trans (List.flatMap_singleton' bs)
  have hx' := hall ⟨x.toNat, UInt8.lt_iff_toNat_lt.1 (h x hx)⟩
  rwa [UInt8.ofNat_toNat] at hx'

theorem Valid.append (ha : Valid a) (hb : Valid b) : Valid (a ++ b) := by
  obtain ⟨cs, rfl⟩ := ha
  obtain ⟨ds, rfl⟩ := hb
  exact ⟨cs ++ ds, List.flatMap_append⟩

theorem Starts.append (ha : Starts a) (hb : Starts b) : Starts (a ++ b) := by
  cases a with
  | nil => exact hb
  | cons x a => exact starts_cons.2 (starts_cons.1 ha)

/-- Inside a character no text may start. -/
theorem not_starts_of_encodeChar (h : String.utf8EncodeChar c = a ++ b) (ha : a ≠ [])
    (hb : b ≠ []) : ¬Starts b := by
  obtain ⟨x, t, hc, -, ht⟩ := encodeChar_eq_cons c
  obtain ⟨y, a, rfl⟩ := List.exists_cons_of_ne_nil ha
  obtain ⟨z, b, rfl⟩ := List.exists_cons_of_ne_nil hb
  rw [hc, List.cons_append, List.cons.injEq] at h
  intro hz
  exact ht z (h.2 ▸ List.mem_append_right _ List.mem_cons_self) (starts_cons.1 hz)

theorem valid_encodeChar (c : Char) : Valid (String.utf8EncodeChar c) := ⟨[c], List.append_nil _⟩

/-- The bytes of characters, in two pieces: either the first character is in the front piece, or
the pieces meet before, inside or behind it. -/
theorem encode_cons_eq_append (h : encode (c :: cs) = a ++ b) :
    (∃ a', a = String.utf8EncodeChar c ++ a' ∧ encode cs = a' ++ b) ∨
      ∃ b', String.utf8EncodeChar c = a ++ b' ∧ b' ≠ [] ∧ b = b' ++ encode cs := by
  rw [encode_cons] at h
  rcases List.append_eq_append_iff.1 h with ⟨a', ha, htail⟩ | ⟨b', hc, hb⟩
  · exact Or.inl ⟨a', ha, htail⟩
  · by_cases hnil : b' = []
    · subst hnil
      refine Or.inl ⟨[], ?_, hb.symm⟩
      rw [hc, List.append_nil, List.append_nil]
    · exact Or.inr ⟨b', hc, hnil, hb⟩

theorem valid_append_iff (hb : Starts b) : Valid (a ++ b) ↔ Valid a ∧ Valid b := by
  constructor
  · rintro ⟨cs, h⟩
    induction cs generalizing a with
    | nil =>
      obtain ⟨rfl, rfl⟩ := List.append_eq_nil_iff.1 h.symm
      exact ⟨valid_nil, valid_nil⟩
    | cons c cs ih =>
      rcases encode_cons_eq_append h with ⟨a', rfl, htail⟩ | ⟨b', hc, hb', rfl⟩
      · obtain ⟨ha, hb⟩ := ih htail
        exact ⟨(valid_encodeChar c).append ha, hb⟩
      · cases a with
        | nil =>
          rw [List.nil_append] at hc
          exact ⟨valid_nil, hc ▸ (valid_encodeChar c).append ⟨cs, rfl⟩⟩
        | cons x a =>
          have hin : ¬Starts b' := not_starts_of_encodeChar hc (List.cons_ne_nil _ _) hb'
          obtain ⟨y, b', rfl⟩ := List.exists_cons_of_ne_nil hb'
          exact absurd (starts_cons.2 (starts_cons.1 hb)) hin
  · exact fun h => h.1.append h.2

/-- How long a character is, by its first byte. -/
theorem length_encodeChar {x : UInt8} {t : List UInt8} (h : String.utf8EncodeChar c = x :: t) :
    t.length = if x < 0x80 then 0 else if x < 0xE0 then 1 else if x < 0xF0 then 2 else 3 := by
  have hle : c.val.toNat < 0x110000 := by
    have := c.valid
    simp only [UInt32.isValidChar, Nat.isValidChar] at this
    omega
  rw [String.utf8EncodeChar] at h
  generalize c.val.toNat = v at h hle
  simp only [UInt8.lt_iff_toNat_lt]
  split_ifs at h with h₁ h₂ h₃ <;> cases h <;> simp [UInt8.toNat_ofNat'] <;> split_ifs <;> omega

/-- A part of a character is no text. -/
theorem not_valid_of_encodeChar (h : String.utf8EncodeChar c = a ++ b) (ha : a ≠ [])
    (hb : b ≠ []) : ¬Valid a := by
  rintro ⟨ds, rfl⟩
  cases ds with
  | nil => exact ha rfl
  | cons d ds =>
    obtain ⟨x, t, hd, -, -⟩ := encodeChar_eq_cons d
    rw [encode_cons, List.append_assoc, hd, List.cons_append] at h
    have hlen := length_encodeChar hd
    rw [← length_encodeChar h, List.length_append, List.length_append] at hlen
    exact hb (List.length_eq_zero_iff.1 (by omega))

/-- A front part of a text is a text exactly if one may start behind it. -/
theorem Valid.front_iff (h : Valid (a ++ b)) : Valid a ↔ Starts b := by
  constructor
  · intro ha
    obtain ⟨cs, h⟩ := h
    induction cs generalizing a with
    | nil =>
      obtain ⟨-, rfl⟩ := List.append_eq_nil_iff.1 h.symm
      exact starts_nil
    | cons c cs ih =>
      rcases encode_cons_eq_append h with ⟨a', rfl, htail⟩ | ⟨b', hc, hb', rfl⟩
      · refine ih ?_ htail
        have ha' : Starts a' := by
          cases a' with
          | nil => exact starts_nil
          | cons x a' =>
            have hx := starts_encode cs
            rw [htail] at hx
            exact starts_cons.2 (starts_cons.1 hx)
        exact ((valid_append_iff ha').1 ha).2
      · cases a with
        | nil =>
          rw [List.nil_append] at hc
          rw [← hc, ← encode_cons]
          exact starts_encode _
        | cons x a => exact absurd ha (not_valid_of_encodeChar hc (List.cons_ne_nil _ _) hb')
  · exact fun hb => ((valid_append_iff hb).1 h).1

/-! ## Counting runes -/

/-- What a first byte asks for: the number of bytes, and the range of the second one.  The others
are between `0x80` and `0xBF`. -/
structure Lead where
  size : Nat
  lo : UInt8
  hi : UInt8

def lead (b : UInt8) : Option Lead :=
  if b < 0xC2 then none
  else if b < 0xE0 then some ⟨2, 0x80, 0xBF⟩
  else if b = 0xE0 then some ⟨3, 0xA0, 0xBF⟩
  else if b = 0xED then some ⟨3, 0x80, 0x9F⟩
  else if b < 0xF0 then some ⟨3, 0x80, 0xBF⟩
  else if b = 0xF0 then some ⟨4, 0x90, 0xBF⟩
  else if b < 0xF4 then some ⟨4, 0x80, 0xBF⟩
  else if b = 0xF4 then some ⟨4, 0x80, 0x8F⟩
  else none

/-- The bytes behind the first one are there and in their ranges. -/
def Lead.follow (l : Lead) (rest : List UInt8) : Prop :=
  (rest.take (l.size - 1)).length = l.size - 1 ∧
    (∀ x ∈ (rest.take (l.size - 1)).head?, l.lo ≤ x ∧ x ≤ l.hi) ∧
    ∀ x ∈ (rest.take (l.size - 1)).tail, 0x80 ≤ x ∧ x ≤ 0xBF

instance (l : Lead) (rest : List UInt8) : Decidable (l.follow rest) :=
  inferInstanceAs (Decidable (_ ∧ _ ∧ _))

/-- The bytes of the rune behind its first byte, none if it is no character. -/
def behind (b : UInt8) (rest : List UInt8) : Nat :=
  match lead b with
  | none => 0
  | some l => if l.follow rest then l.size - 1 else 0

/-- The runes that begin behind the next `skip` bytes. -/
def runesFrom : Nat → List UInt8 → Nat
  | _, [] => 0
  | 0, b :: rest => runesFrom (behind b rest) rest + 1
  | skip + 1, _ :: rest => runesFrom skip rest

def runeCount (bs : List UInt8) : Nat := runesFrom 0 bs

example : runeCount [0x61, 0xC3, 0xA9, 0xE2, 0x82, 0xAC, 0xF0, 0x9F, 0x98, 0x80] = 4 := by decide

example : runeCount [0xE2, 0x82, 0xED, 0xA0, 0x80] = 5 := by decide

theorem runesFrom_le (skip : Nat) (bs : List UInt8) : runesFrom skip bs ≤ bs.length := by
  induction bs generalizing skip with
  | nil => exact Nat.zero_le _
  | cons b bs ih =>
    cases skip with
    | zero => exact Nat.succ_le_succ (ih _)
    | succ skip => exact Nat.le_succ_of_le (ih skip)

/-- There are no more runes than bytes. -/
theorem runeCount_le (bs : List UInt8) : runeCount bs ≤ bs.length := runesFrom_le 0 bs

theorem lead_range {x : UInt8} {l : Lead} (h : lead x = some l) : 0x80 ≤ l.lo ∧ l.hi ≤ 0xBF := by
  rw [lead] at h
  split_ifs at h <;> cases h <;> exact ⟨by decide, by decide⟩

/-- The bytes behind a first byte are no first bytes. -/
theorem not_first_of_range {y : UInt8} (h₁ : 0x80 ≤ y) (h₂ : y ≤ 0xBF) : ¬y.IsUTF8FirstByte := by
  have hall : ∀ n : Fin 256, 0x80 ≤ UInt8.ofNat n.val → UInt8.ofNat n.val ≤ 0xBF →
      ¬(UInt8.ofNat n.val).IsUTF8FirstByte := by decide +kernel
  have hy := hall ⟨y.toNat, y.toNat_lt⟩
  rw [UInt8.ofNat_toNat] at hy
  exact hy h₁ h₂

theorem follow_range {x : UInt8} {l : Lead} (hl : lead x = some l) {rest : List UInt8}
    (h : l.follow rest) : ∀ y ∈ rest.take (l.size - 1), ¬y.IsUTF8FirstByte := by
  obtain ⟨-, hhead, htail⟩ := h
  obtain ⟨hlo, hhi⟩ := lead_range hl
  intro y hy
  generalize rest.take (l.size - 1) = bs at hhead htail hy
  cases bs with
  | nil => cases hy
  | cons z bs =>
    rcases List.mem_cons.1 hy with rfl | hy
    · obtain ⟨h₁, h₂⟩ := hhead y rfl
      exact not_first_of_range (UInt8.le_trans hlo h₁) (UInt8.le_trans h₂ hhi)
    · exact not_first_of_range (htail y hy).1 (htail y hy).2

/-- A rune does not reach into a piece where a text may start. -/
theorem follow_append (hb : Starts b) {x : UInt8} {l : Lead} (hl : lead x = some l) :
    l.follow (a ++ b) ↔ l.follow a := by
  by_cases hlen : l.size - 1 ≤ a.length
  · rw [Lead.follow, Lead.follow, List.take_append_of_le_length hlen]
  · have hshort : ¬l.follow a := by
      intro h
      have hcut := h.1
      rw [List.length_take] at hcut
      omega
    refine iff_of_false (fun h => ?_) hshort
    cases b with
    | nil =>
      rw [List.append_nil] at h
      exact hshort h
    | cons y b =>
      have hy : y ∈ (a ++ y :: b).take (l.size - 1) := by
        rw [List.take_append]
        refine List.mem_append_right _ ?_
        obtain ⟨n, hn⟩ : ∃ n, l.size - 1 - a.length = n + 1 := ⟨l.size - 1 - a.length - 1, by omega⟩
        rw [hn, List.take_succ_cons]
        exact List.mem_cons_self
      exact follow_range hl h y hy (starts_cons.1 hb)

theorem behind_append (hb : Starts b) (x : UInt8) : behind x (a ++ b) = behind x a := by
  rw [behind, behind]
  cases hl : lead x with
  | none => rfl
  | some l => simp only [follow_append hb hl]

theorem behind_le (x : UInt8) (a : List UInt8) : behind x a ≤ a.length := by
  rw [behind]
  split
  · exact Nat.zero_le _
  · split
    next h =>
      have hcut := h.1
      rw [List.length_take] at hcut
      omega
    next => exact Nat.zero_le _

theorem runesFrom_append (hb : Starts b) {skip : Nat} (hskip : skip ≤ a.length) :
    runesFrom skip (a ++ b) = runesFrom skip a + runeCount b := by
  induction a generalizing skip with
  | nil =>
    obtain rfl := Nat.le_zero.1 hskip
    exact (Nat.zero_add _).symm
  | cons x a ih =>
    cases skip with
    | zero =>
      rw [List.cons_append, runesFrom, runesFrom, behind_append hb, ih (behind_le x a)]
      omega
    | succ skip => exact ih (Nat.le_of_succ_le_succ hskip)

theorem runeCount_append (hb : Starts b) : runeCount (a ++ b) = runeCount a + runeCount b :=
  runesFrom_append hb (Nat.zero_le _)

/-- In ASCII every byte is a rune. -/
theorem runeCount_ascii (h : ∀ x ∈ bs, x < 0x80) : runeCount bs = bs.length := by
  induction bs with
  | nil => rfl
  | cons x bs ih =>
    have hx : lead x = none := if_pos (UInt8.lt_trans (h x List.mem_cons_self) (by decide))
    have hbehind : behind x bs = 0 := by rw [behind, hx]
    rw [runeCount, runesFrom, hbehind, ← runeCount, ih fun y hy => h y (List.mem_cons_of_mem _ hy)]
    rfl

end Utf8
