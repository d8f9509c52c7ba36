import Mathlib.Data.List.Basic
import Mathlib.Tactic.SplitIfs

/-!
# Strings as code units

A character is one code unit, or a high and a low surrogate.  A surrogate without its other half
stands for the replacement character.  The code units of a text stand for the text
(`chars_codeUnits`), and a unit that is no surrogate is a character of the text
(`mem_of_mem_codeUnits`).
-/

namespace Ecma

/-- The code units of a character. -/
def charUnits (c : Char) : List UInt16 :=
  if c.toNat < 0x10000 then [UInt16.ofNat c.toNat]
  else
    [UInt16.ofNat (0xD800 + (c.toNat - 0x10000) / 0x400),
      UInt16.ofNat (0xDC00 + (c.toNat - 0x10000) % 0x400)]

def codeUnits (cs : List Char) : List UInt16 := cs.flatMap charUnits

def isHigh (u : UInt16) : Bool := 0xD800 ≤ u.toNat ∧ u.toNat < 0xDC00

def isLow (u : UInt16) : Bool := 0xDC00 ≤ u.toNat ∧ u.toNat < 0xE000

/-- The character of a unit that stands alone. -/
def unitChar (u : UInt16) : Char := if isHigh u || isLow u then '\ufffd' else Char.ofNat u.toNat

/-- The character of a surrogate pair. -/
def pairChar (high low : UInt16) : Char :=
  Char.ofNat (0x10000 + (high.toNat - 0xD800) * 0x400 + (low.toNat - 0xDC00))

/-- The characters of a string. -/
def chars : List UInt16 → List Char
  | [] => []
  | [u] => [unitChar u]
  | u :: v :: rest =>
    if isHigh u && isLow v then pairChar u v :: chars rest else unitChar u :: chars (v :: rest)

theorem chars_cons_of_not_isHigh {u : UInt16} (h : isHigh u = false) (rest : List UInt16) :
    chars (u :: rest) = unitChar u :: chars rest := by
  cases rest with
  | nil => rfl
  | cons v rest => rw [chars, h, Bool.false_and, if_neg Bool.false_ne_true]

/-- The numbers of characters have a gap where the surrogates are. -/
theorem toNat_range (c : Char) : c.toNat < 0xD800 ∨ 0xDFFF < c.toNat ∧ c.toNat < 0x110000 :=
  c.valid

theorem toNat_small {n : Nat} (h : n < 0x10000) : (UInt16.ofNat n).toNat = n := by
  rw [UInt16.toNat_ofNat']
  exact Nat.mod_eq_of_lt h

theorem chars_append (c : Char) (rest : List UInt16) :
    chars (charUnits c ++ rest) = c :: chars rest := by
  have hrange := toNat_range c
  rw [charUnits]
  split_ifs with hc
  · have hunit := toNat_small hc
    have hhigh : isHigh (UInt16.ofNat c.toNat) = false := by
      rw [isHigh, hunit]
      exact decide_eq_false (by omega)
    have hlow : isLow (UInt16.ofNat c.toNat) = false := by
      rw [isLow, hunit]
      exact decide_eq_false (by omega)
    rw [List.singleton_append, chars_cons_of_not_isHigh hhigh, unitChar, hhigh, hlow, hunit]
    exact congrArg (· :: chars rest) (Char.ofNat_toNat c)
  · have hh := toNat_small (n := 0xD800 + (c.toNat - 0x10000) / 0x400) (by omega)
    have hl := toNat_small (n := 0xDC00 + (c.toNat - 0x10000) % 0x400) (by omega)
    have hhigh : isHigh (UInt16.ofNat (0xD800 + (c.toNat - 0x10000) / 0x400)) = true := by
      rw [isHigh, hh]
      exact decide_eq_true (by omega)
    have hlow : isLow (UInt16.ofNat (0xDC00 + (c.toNat - 0x10000) % 0x400)) = true := by
      rw [isLow, hl]
      exact decide_eq_true (by omega)
    have hpair : 0x10000 + (0xD800 + (c.toNat - 0x10000) / 0x400 - 0xD800) * 0x400 +
        (0xDC00 + (c.toNat - 0x10000) % 0x400 - 0xDC00) = c.toNat := by
      omega
    rw [List.cons_append, List.singleton_append, chars, hhigh, hlow, Bool.true_and, if_pos rfl,
      pairChar, hh, hl, hpair]
    exact congrArg (· :: chars rest) (Char.ofNat_toNat c)

/-- The code units of a text stand for the text. -/
theorem chars_codeUnits (cs : List Char) : chars (codeUnits cs) = cs := by
  induction cs with
  | nil => rfl
  | cons c cs ih => rw [codeUnits, List.flatMap_cons, chars_append, ← codeUnits, ih]

theorem codeUnits_append (cs ds : List Char) :
    codeUnits (cs ++ ds) = codeUnits cs ++ codeUnits ds := List.flatMap_append

/-- A unit below the surrogates is a character. -/
theorem mem_of_mem_codeUnits {cs : List Char} {u : UInt16} (hu : u ∈ codeUnits cs)
    (hlt : u.toNat < 0xD800) : ∃ c ∈ cs, u.toNat = c.toNat := by
  obtain ⟨c, hc, huc⟩ := List.mem_flatMap.1 hu
  have hrange := toNat_range c
  refine ⟨c, hc, ?_⟩
  rw [charUnits] at huc
  split_ifs at huc with hsmall
  · rw [List.mem_singleton.1 huc]
    exact toNat_small hsmall
  · have hh := toNat_small (n := 0xD800 + (c.toNat - 0x10000) / 0x400) (by omega)
    have hl := toNat_small (n := 0xDC00 + (c.toNat - 0x10000) % 0x400) (by omega)
    rcases List.mem_pair.1 huc with rfl | rfl
    · rw [hh] at hlt
      omega
    · rw [hl] at hlt
      omega

end Ecma
