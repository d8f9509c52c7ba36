import Mathlib.Algebra.Order.Ring.Int
import Mathlib.Data.Int.GCD

/-!
# Integers of 64 bits

A machine integer is an `Int` here, and what does not fit wraps around.  Wrapping at the end of a
sum is as good as wrapping at each step (`add_bmod`).

Division truncates.  Of a sum that may have wrapped it gives the floor only if the sum fits
(`bmod_tdiv_eq_fdiv_iff`).
-/

namespace Word

def Fits (n : Int) : Prop := -2 ^ 63 ≤ n ∧ n < 2 ^ 63

instance (n : Int) : Decidable (Fits n) := inferInstanceAs (Decidable (_ ∧ _))

/-- The sum of two machine integers. -/
def add (a b : Int) : Int := (a + b).bmod (2 ^ 64)

theorem bmod_bounds (n : Int) : -2 ^ 63 ≤ n.bmod (2 ^ 64) ∧ n.bmod (2 ^ 64) < 2 ^ 63 := by
  have hlo : -((2 ^ 64 : Nat) / 2 : Int) ≤ n.bmod (2 ^ 64) := Int.le_bmod (by decide)
  have hhi : n.bmod (2 ^ 64) < ((2 ^ 64 : Nat) + 1 : Int) / 2 := Int.bmod_lt (by decide)
  omega

theorem bmod_of_bounds {n : Int} (hlo : -2 ^ 63 ≤ n) (hhi : n < 2 ^ 63) :
    n.bmod (2 ^ 64) = n := Int.bmod_eq_of_le (by omega) (by omega)

theorem bmod_of_fits {n : Int} (h : Fits n) : n.bmod (2 ^ 64) = n := bmod_of_bounds h.1 h.2

theorem fits_bmod (n : Int) : Fits (n.bmod (2 ^ 64)) := bmod_bounds n

theorem add_of_fits {a b : Int} (h : Fits (a + b)) : add a b = a + b := bmod_of_fits h

theorem add_bmod (a b : Int) : add (a.bmod (2 ^ 64)) b = (a + b).bmod (2 ^ 64) :=
  Int.bmod_add_bmod

/-! ## Division -/

/-- Truncation is the floor for a number that is not negative, and for one that is divided
without a rest. -/
theorem tdiv_eq_fdiv_iff {a n : Int} (hn : 0 < n) : a.tdiv n = a.fdiv n ↔ 0 ≤ a ∨ n ∣ a := by
  rw [Int.tdiv_eq_ediv, Int.fdiv_eq_ediv_of_nonneg a (Int.le_of_lt hn), Int.sign_eq_one_of_pos hn]
  split
  next h => exact ⟨fun _ => h, fun _ => Int.add_zero _⟩
  next h => exact ⟨fun h' => absurd h' (by omega), fun h' => absurd h' h⟩

/-- Two numbers with one quotient are less than two divisors apart. -/
theorem sub_lt_of_tdiv_eq_fdiv {a w n : Int} (hn : 0 < n) (h : w.tdiv n = a.fdiv n) :
    a - w < 2 * n ∧ w - a < 2 * n := by
  have hw : n * w.tdiv n + w.tmod n = w := Int.mul_tdiv_add_tmod w n
  have ha : n * a.fdiv n + a.fmod n = a := Int.mul_fdiv_add_fmod a n
  have hlo : -n < w.tmod n := by
    have habs := Int.lt_tmod_of_pos w hn
    omega
  have hhi := Int.tmod_lt_of_pos w hn
  have hlo' := Int.fmod_nonneg_of_pos a hn
  have hhi' := Int.fmod_lt_of_pos a hn
  rw [h] at hw
  constructor <;> omega

/-- What wrapped is at least `2 ^ 64` from the number it stands for, and so is the floor of no
division by a number that fits. -/
theorem bmod_tdiv_eq_fdiv_iff {a n : Int} (hn : 0 < n) (hsmall : n < 2 ^ 63) :
    (a.bmod (2 ^ 64)).tdiv n = a.fdiv n ↔ Fits a ∧ (0 ≤ a ∨ n ∣ a) := by
  constructor
  · intro h
    obtain ⟨k, hk⟩ : ((2 ^ 64 : Nat) : Int) ∣ a.bmod (2 ^ 64) - a := Int.dvd_bmod_sub_self
    obtain ⟨hlt, hlt'⟩ := sub_lt_of_tdiv_eq_fdiv hn h
    have hsame : a.bmod (2 ^ 64) = a := by omega
    have hfits := fits_bmod a
    rw [hsame] at h hfits
    exact ⟨hfits, (tdiv_eq_fdiv_iff hn).1 h⟩
  · rintro ⟨hfits, hfloor⟩
    rw [bmod_of_fits hfits]
    exact (tdiv_eq_fdiv_iff hn).2 hfloor

end Word
