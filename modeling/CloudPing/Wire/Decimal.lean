import Mathlib.Algebra.Order.Ring.Int

/-!
# Numbers in texts

Integers of 64 bits as decimal digits, and single hexadecimal digits.  A reader takes a sign,
then at least one digit, and stops at the first character that is no digit or brings the
value out of range, so the error says which of the two came first.  What `decimal` writes is read back
(`parseInt64_decimal`), and what is read is the text of an integer in range
(`parseInt64_eq_ok`).
-/

namespace Wire

/-- Why a text is no number. -/
inductive NumErr where
  | syntax_
  | range
  deriving DecidableEq, Repr

/-! ## Writing -/

/-- The digits of an integer, after a minus sign for a negative one. -/
def decimal : Int → List Char
  | .ofNat n => Nat.toDigits 10 n
  | .negSucc n => '-' :: Nat.toDigits 10 (n + 1)

/-! ## Reading -/

/-- The value of digits behind digits of the value `n`, up to `max`. -/
def parseDigits (max : Nat) : Nat → List Char → Except NumErr Nat
  | n, [] => .ok n
  | n, c :: cs =>
    if c.isDigit then
      let n' := 10 * n + (c.toNat - '0'.toNat)
      if n' ≤ max then parseDigits max n' cs else .error .range
    else .error .syntax_

/-- An unsigned number of 64 bits. -/
def parseUint64 (cs : List Char) : Except NumErr Nat :=
  if cs = [] then .error .syntax_ else parseDigits (2 ^ 64 - 1) 0 cs

/-- The number of a magnitude and a sign, if it has 64 bits. -/
def signed (neg : Bool) (n : Nat) : Except NumErr Int64 :=
  if n < 2 ^ 63 ∨ neg ∧ n = 2 ^ 63 then .ok (Int64.ofInt (if neg then -n else n))
  else .error .range

/-- A signed number of 64 bits. -/
def parseInt64 : List Char → Except NumErr Int64
  | '-' :: cs => parseUint64 cs >>= signed true
  | '+' :: cs => parseUint64 cs >>= signed false
  | cs => parseUint64 cs >>= signed false

/-! ## What is written is read -/

theorem isDigit_of_mem_toDigits {n : Nat} {c : Char} (h : c ∈ Nat.toDigits 10 n) :
    c.isDigit = true := Nat.isDigit_of_mem_toDigits (by decide) (by decide) h

/-- The value of digits only grows. -/
theorem le_ofDigitChars (cs : List Char) (n : Nat) : n ≤ Nat.ofDigitChars 10 cs n := by
  induction cs generalizing n with
  | nil => simp
  | cons c cs ih =>
    rw [Nat.ofDigitChars_cons]
    exact Nat.le_trans (by omega) (ih _)

/-- Digits of a value in range are read. -/
theorem parseDigits_eq {max : Nat} {cs : List Char} (hd : ∀ c ∈ cs, c.isDigit = true) {n : Nat}
    (hmax : Nat.ofDigitChars 10 cs n ≤ max) :
    parseDigits max n cs = .ok (Nat.ofDigitChars 10 cs n) := by
  induction cs generalizing n with
  | nil => simp [parseDigits]
  | cons c cs ih =>
    rw [Nat.ofDigitChars_cons] at hmax ⊢
    have hc : c.isDigit = true := hd c List.mem_cons_self
    have hn := Nat.le_trans (le_ofDigitChars cs _) hmax
    rw [parseDigits, if_pos hc]
    simp only [hn, if_true]
    exact ih (fun c' h => hd c' (List.mem_cons_of_mem _ h)) hmax

theorem parseUint64_toDigits {n : Nat} (h : n < 2 ^ 64) :
    parseUint64 (Nat.toDigits 10 n) = .ok n := by
  have hv : Nat.ofDigitChars 10 (Nat.toDigits 10 n) 0 = n := Nat.ofDigitChars_ten_toDigits
  rw [parseUint64, if_neg Nat.toDigits_ne_nil,
    parseDigits_eq (fun c hc => isDigit_of_mem_toDigits hc) (by rw [hv]; omega), hv]

/-- A text of digits has no sign to take. -/
theorem parseInt64_of_digits {cs : List Char} (hd : ∀ c ∈ cs, c.isDigit = true) :
    parseInt64 cs = parseUint64 cs >>= signed false := by
  unfold parseInt64
  split
  · exact absurd (hd '-' List.mem_cons_self) (by decide)
  · exact absurd (hd '+' List.mem_cons_self) (by decide)
  · rfl

/-- Digits without a sign are no negative number. -/
theorem toInt_nonneg_of_digits {cs : List Char} (hd : ∀ c ∈ cs, c.isDigit = true) {n : Int64}
    (h : parseInt64 cs = .ok n) : 0 ≤ n.toInt := by
  rw [parseInt64_of_digits hd] at h
  cases hu : parseUint64 cs with
  | error e =>
    rw [hu] at h
    cases h
  | ok m =>
    rw [hu] at h
    change signed false m = .ok n at h
    rw [signed] at h
    split at h
    · next hm =>
      have hlt : m < 2 ^ 63 := hm.resolve_right fun hf => absurd hf.1 (by decide)
      obtain rfl := Except.ok.inj h
      rw [if_neg (by decide), Int64.toInt_ofInt_of_le (by omega) (by omega)]
      exact Int.natCast_nonneg m
    · cases h

theorem parseInt64_decimal (n : Int64) : parseInt64 (decimal n.toInt) = .ok n := by
  have hlo := n.le_toInt
  have hhi := n.toInt_lt
  cases hn : n.toInt with
  | ofNat m =>
    rw [hn] at hhi
    have hm : m < 2 ^ 63 := by
      rw [Int.ofNat_eq_natCast] at hhi
      omega
    rw [decimal, parseInt64_of_digits fun c hc => isDigit_of_mem_toDigits hc,
      parseUint64_toDigits (by omega)]
    show signed false m = .ok n
    rw [signed, if_pos (Or.inl hm), if_neg (by decide), ← Int.ofNat_eq_natCast, ← hn,
      Int64.ofInt_toInt]
  | negSucc m =>
    rw [hn, Int.negSucc_eq] at hlo
    have hm : m + 1 < 2 ^ 63 ∨ m + 1 = 2 ^ 63 := by omega
    show (parseUint64 (Nat.toDigits 10 (m + 1)) >>= signed true) = .ok n
    rw [parseUint64_toDigits (by omega)]
    show signed true (m + 1) = .ok n
    have hv : -((m + 1 : Nat) : Int) = n.toInt := by rw [hn, Int.negSucc_eq]; push_cast; rfl
    rw [signed, if_pos (hm.imp_right fun h => ⟨rfl, h⟩), if_pos rfl, hv, Int64.ofInt_toInt]

/-! ## What is read -/

/-- A number in digits. -/
structure Digits (cs : List Char) (n : Nat) : Prop where
  ne_nil : cs ≠ []
  digit : ∀ c ∈ cs, c.isDigit = true
  value : Nat.ofDigitChars 10 cs 0 = n

/-- A digit by itself. -/
theorem Digits.single {c : Char} (h : c.isDigit = true) :
    Digits [c] (Nat.ofDigitChars 10 [c] 0) :=
  ⟨List.cons_ne_nil c [], List.forall_mem_singleton.2 h, rfl⟩

/-- The text of an integer of 64 bits, which may have a sign. -/
inductive IntText : List Char → Int → Prop where
  | plain {cs : List Char} {n : Nat} : Digits cs n → n < 2 ^ 63 → IntText cs n
  | plus {cs : List Char} {n : Nat} : Digits cs n → n < 2 ^ 63 → IntText ('+' :: cs) n
  | minus {cs : List Char} {n : Nat} : Digits cs n → n ≤ 2 ^ 63 → IntText ('-' :: cs) (-n)

theorem digits_of_parseDigits {max m n : Nat} {cs : List Char} (hm : m ≤ max)
    (h : parseDigits max m cs = .ok n) :
    (∀ c ∈ cs, c.isDigit = true) ∧ Nat.ofDigitChars 10 cs m = n ∧ n ≤ max := by
  induction cs generalizing m with
  | nil =>
    obtain rfl := Except.ok.inj h
    exact ⟨fun _ hc => (List.not_mem_nil hc).elim, rfl, hm⟩
  | cons c cs ih =>
    rw [parseDigits] at h
    split at h
    · next hc =>
      dsimp only at h
      split at h
      · next hle =>
        obtain ⟨hd, hv, hn⟩ := ih hle h
        refine ⟨fun c' hc' => ?_, ?_, hn⟩
        · rcases List.mem_cons.1 hc' with rfl | hc'
          · exact hc
          · exact hd c' hc'
        · rw [Nat.ofDigitChars_cons]
          exact hv
      · cases h
    · cases h

theorem parseUint64_eq_ok {cs : List Char} {n : Nat} :
    parseUint64 cs = .ok n ↔ Digits cs n ∧ n < 2 ^ 64 := by
  rw [parseUint64]
  constructor
  · intro h
    split at h
    · cases h
    · next hne =>
      obtain ⟨hd, hv, hn⟩ := digits_of_parseDigits (Nat.zero_le _) h
      exact ⟨⟨hne, hd, hv⟩, by omega⟩
  · rintro ⟨⟨hne, hd, rfl⟩, hn⟩
    rw [if_neg hne, parseDigits_eq hd (by omega)]

theorem signed_eq_ok {neg : Bool} {n : Nat} {z : Int64} :
    signed neg n = .ok z ↔
      (n < 2 ^ 63 ∨ neg = true ∧ n = 2 ^ 63) ∧ z.toInt = if neg then -(n : Int) else n := by
  rw [signed]
  constructor
  · intro h
    split at h
    · next hn =>
      obtain rfl := Except.ok.inj h
      have hle : n ≤ 2 ^ 63 := hn.elim Nat.le_of_lt fun hf => Nat.le_of_eq hf.2
      refine ⟨hn, Int64.toInt_ofInt_of_le ?_ ?_⟩
      · split <;> omega
      · split
        · omega
        · next hneg =>
          have hlt : n < 2 ^ 63 := hn.resolve_right fun hf => hneg hf.1
          omega
    · cases h
  · rintro ⟨hn, hz⟩
    rw [if_pos hn, ← hz, Int64.ofInt_toInt]

theorem unsigned_eq_ok {cs : List Char} {neg : Bool} {z : Int64} :
    parseUint64 cs >>= signed neg = .ok z ↔
      ∃ n, Digits cs n ∧ (n < 2 ^ 63 ∨ neg = true ∧ n = 2 ^ 63) ∧
        z.toInt = if neg then -(n : Int) else n := by
  cases hu : parseUint64 cs with
  | error err =>
    refine iff_of_false (by rintro ⟨⟩) ?_
    rintro ⟨n, hd, hn, -⟩
    have hle : n ≤ 2 ^ 63 := hn.elim Nat.le_of_lt fun hf => Nat.le_of_eq hf.2
    rw [parseUint64_eq_ok.2 ⟨hd, by omega⟩] at hu
    cases hu
  | ok n =>
    refine signed_eq_ok.trans ⟨fun h => ⟨n, (parseUint64_eq_ok.1 hu).1, h⟩, ?_⟩
    rintro ⟨n', hd, h⟩
    obtain rfl := hd.value
    obtain rfl := (parseUint64_eq_ok.1 hu).1.value
    exact h

/-- A number is read exactly from the texts of the integers that are in range. -/
theorem parseInt64_eq_ok {cs : List Char} {z : Int64} :
    parseInt64 cs = .ok z ↔ IntText cs z.toInt := by
  constructor
  · intro h
    rw [parseInt64.eq_def] at h
    split at h
    · obtain ⟨n, hd, hn, hz⟩ := unsigned_eq_ok.1 h
      rw [hz]
      exact .minus hd (hn.elim Nat.le_of_lt fun hf => Nat.le_of_eq hf.2)
    · obtain ⟨n, hd, hn, hz⟩ := unsigned_eq_ok.1 h
      rw [hz]
      exact .plus hd (hn.resolve_right fun hf => absurd hf.1 (by decide))
    · obtain ⟨n, hd, hn, hz⟩ := unsigned_eq_ok.1 h
      rw [hz]
      exact .plain hd (hn.resolve_right fun hf => absurd hf.1 (by decide))
  · intro h
    generalize hz : z.toInt = i at h
    cases h with
    | plain hd hn =>
      rw [parseInt64_of_digits hd.digit]
      exact unsigned_eq_ok.2 ⟨_, hd, Or.inl hn, hz⟩
    | plus hd hn => exact unsigned_eq_ok.2 ⟨_, hd, Or.inl hn, hz⟩
    | minus hd hn =>
      refine unsigned_eq_ok.2 ⟨_, hd, ?_, hz⟩
      rcases Nat.lt_or_eq_of_le hn with hlt | heq
      · exact Or.inl hlt
      · exact Or.inr ⟨rfl, heq⟩

/-! ## What the digits look like -/

/-- Digits, or a minus sign and digits. -/
theorem decimal_cases (n : Int) :
    ∃ m : Nat, decimal n = Nat.toDigits 10 m ∨ decimal n = '-' :: Nat.toDigits 10 m := by
  cases n with
  | ofNat m => exact ⟨m, Or.inl rfl⟩
  | negSucc m => exact ⟨m + 1, Or.inr rfl⟩

theorem decimal_natCast (n : Nat) : decimal (n : Int) = Nat.toDigits 10 n := rfl

theorem decimal_ne_nil (n : Int) : decimal n ≠ [] := by
  obtain ⟨m, h | h⟩ := decimal_cases n
  · rw [h]
    exact Nat.toDigits_ne_nil
  · rw [h]
    exact List.cons_ne_nil _ _

theorem mem_decimal {n : Int} {c : Char} (h : c ∈ decimal n) : c.isDigit = true ∨ c = '-' := by
  obtain ⟨m, hm | hm⟩ := decimal_cases n
  · rw [hm] at h
    exact Or.inl (isDigit_of_mem_toDigits h)
  · rw [hm, List.mem_cons] at h
    exact h.symm.imp_left isDigit_of_mem_toDigits

/-- A number that is not a single zero does not start with one. -/
theorem toDigits_eq_zero_cons {n : Nat} {cs : List Char} (h : Nat.toDigits 10 n = '0' :: cs) :
    cs = [] := by
  induction n using Nat.strongRecOn generalizing cs with
  | ind n ih =>
    by_cases hn : n < 10
    · rw [Nat.toDigits_of_lt_base hn] at h
      exact (List.cons.inj h).2.symm
    · rw [Nat.toDigits_of_base_le (by decide) (by omega)] at h
      cases hq : Nat.toDigits 10 (n / 10) with
      | nil => exact absurd hq Nat.toDigits_ne_nil
      | cons d ds =>
        rw [hq, List.cons_append] at h
        obtain ⟨rfl, hds⟩ := List.cons.inj h
        have hnil := ih (n / 10) (by omega) hq
        -- A single zero is the number zero, and the quotient is not.
        have hz : n / 10 = 0 := by
          rw [← Nat.ofDigitChars_ten_toDigits (n := n / 10), hq, hnil]
          decide
        omega

/-! ## Hexadecimal digits -/

def hexValue (c : Char) : Option Nat :=
  if c.isDigit then some (c.toNat - '0'.toNat)
  else if 'a' ≤ c ∧ c ≤ 'f' then some (c.toNat - 'a'.toNat + 10)
  else if 'A' ≤ c ∧ c ≤ 'F' then some (c.toNat - 'A'.toNat + 10)
  else none

theorem hexValue_digitChar {d : Nat} (h : d < 16) : hexValue d.digitChar = some d := by
  have hall : ∀ d : Fin 16, hexValue d.val.digitChar = some d.val := by decide
  exact hall ⟨d, h⟩

end Wire
