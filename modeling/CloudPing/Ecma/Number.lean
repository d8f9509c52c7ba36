import Mathlib.Algebra.Group.Nat.Defs
import Mathlib.Data.Nat.Log

/-!
# Sums of numbers

A number of the language has 53 significant bits.  The sum of two integers is rounded to the
nearest number that there is, and where there are two, to the one whose last bit is zero.  Up to
`2 ^ 53` nothing is rounded (`add_of_safe`).

The sums here are far from where numbers end and infinity begins.
-/

namespace Ecma.Number

/-- Rounded to a multiple of the unit. -/
def roundTo (unit n : Nat) : Nat :=
  if 2 * (n % unit) < unit then n / unit * unit
  else if unit < 2 * (n % unit) then (n / unit + 1) * unit
  else (n / unit + n / unit % 2) * unit

/-- The last of the 53 bits. -/
def lastBit (n : Nat) : Nat := 2 ^ (Nat.log 2 n - 52)

/-- The number nearest to an integer. -/
def ofInt (a : Int) : Int := a.sign * roundTo (lastBit a.natAbs) a.natAbs

def add (a b : Int) : Int := ofInt (a + b)

theorem roundTo_of_dvd {unit n : Nat} (hunit : 0 < unit) (h : unit ∣ n) : roundTo unit n = n := by
  rw [roundTo, Nat.mod_eq_zero_of_dvd h, Nat.mul_zero, if_pos hunit, Nat.div_mul_cancel h]

theorem lastBit_pos (n : Nat) : 0 < lastBit n := Nat.two_pow_pos _

theorem lastBit_dvd {n : Nat} (h : n ≤ 2 ^ 53) : lastBit n ∣ n := by
  rcases Nat.lt_or_eq_of_le h with hlt | rfl
  · have hlog : Nat.log 2 n < 53 := Nat.log_lt_of_lt_pow' (by decide) hlt
    rw [lastBit, Nat.sub_eq_zero_of_le (by omega), Nat.pow_zero]
    exact Nat.one_dvd n
  · rw [lastBit, Nat.log_pow (by decide)]
    exact Nat.pow_dvd_pow 2 (by decide)

theorem ofInt_of_safe {a : Int} (h : a.natAbs ≤ 2 ^ 53) : ofInt a = a := by
  rw [ofInt, roundTo_of_dvd (lastBit_pos _) (lastBit_dvd h)]
  exact Int.sign_mul_natAbs a

theorem add_of_safe {a b : Int} (h : (a + b).natAbs ≤ 2 ^ 53) : add a b = a + b := ofInt_of_safe h

/-- Halfway between two numbers the even one is taken. -/
example : add (2 ^ 53) 1 = 2 ^ 53 := by decide

end Ecma.Number
