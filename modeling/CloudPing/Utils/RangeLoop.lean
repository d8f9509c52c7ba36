import CloudPing.Utils.Parse
import Mathlib.Data.Int.GCD
import Mathlib.Tactic.LinearCombination
import Mathlib.Tactic.Ring

/-!
# Which ranges end

The loop of `ParseInts` over a range goes up from the first number by the step, in machine
integers, until it is past the last one.  An index that does not fit wraps around to a
negative one, from which the loop goes up again.  So the indices are the numbers that differ
from the first one by a multiple of the greatest common divisor of the step and `2 ^ 64`
(`exists_index_iff`), and the loop ends exactly if one of these is past the last number
(`ends_iff`).  For the step zero that is the first number only.
-/

namespace CloudPing.Utils

/-- The loop over a range. -/
structure RangeLoop where
  start : Int64
  end_ : Int64
  step : Int64
  deriving DecidableEq, Repr

namespace RangeLoop

variable {l : RangeLoop}

/-- The index after some turns. -/
def index (l : RangeLoop) (k : Nat) : Int64 := (· + l.step)^[k] l.start

/-- The loop is past the end at some time. -/
def Ends (l : RangeLoop) : Prop := ∃ k, l.end_ < l.index k

/-- By this the indices differ, and by all its multiples. -/
def stride (l : RangeLoop) : Nat := Int.gcd l.step.toInt (2 ^ 64)

theorem toInt_index (l : RangeLoop) (k : Nat) :
    (l.index k).toInt = (l.start.toInt + k * l.step.toInt).bmod (2 ^ 64) := by
  rw [index, iterate_add]
  simp [Int64.toInt_add, Int64.toInt_mul]

theorem stride_dvd_index (l : RangeLoop) (k : Nat) :
    (l.stride : Int) ∣ (l.index k).toInt - l.start.toInt := by
  have hstep : (l.stride : Int) ∣ l.step.toInt := Int.gcd_dvd_left ..
  have hsize : (l.stride : Int) ∣ ((2 ^ 64 : Nat) : Int) := Int.gcd_dvd_right ..
  have hmod : (l.stride : Int) ∣
      (l.start.toInt + k * l.step.toInt).bmod (2 ^ 64) - (l.start.toInt + k * l.step.toInt) :=
    hsize.trans Int.dvd_bmod_sub_self
  have hadd := Int.dvd_add hmod (hstep.mul_left k)
  have hsum : (l.start.toInt + k * l.step.toInt).bmod (2 ^ 64) -
      (l.start.toInt + k * l.step.toInt) + k * l.step.toInt =
        (l.start.toInt + k * l.step.toInt).bmod (2 ^ 64) - l.start.toInt := by ring
  rw [toInt_index, ← hsum]
  exact hadd

/-- A machine integer is the only one that differs from a number by a multiple of the size. -/
theorem bmod_eq_of_dvd {a x : Int} (hlo : -2 ^ 63 ≤ x) (hhi : x < 2 ^ 63)
    (h : (2 ^ 64 : Int) ∣ x - a) : a.bmod (2 ^ 64) = x := by
  obtain ⟨q, hq⟩ := h
  have ha : a = x + ((2 ^ 64 : Nat) : Int) * -q := by
    push_cast
    omega
  rw [ha, Int.add_mul_bmod_self_left]
  exact Int.bmod_eq_of_le (by omega) (by omega)

/-- The indices are the machine integers in the stride of the first one. -/
theorem exists_index_iff {x : Int} (hlo : -2 ^ 63 ≤ x) (hhi : x < 2 ^ 63) :
    (∃ k, (l.index k).toInt = x) ↔ (l.stride : Int) ∣ x - l.start.toInt := by
  constructor
  · rintro ⟨k, rfl⟩
    exact l.stride_dvd_index k
  · rintro ⟨m, hm⟩
    -- a multiple of the greatest common divisor is a number of steps, up to the size
    have hbezout := Int.gcd_eq_gcd_ab l.step.toInt (2 ^ 64)
    have hsteps : x - l.start.toInt =
        l.step.toInt * (Int.gcdA l.step.toInt (2 ^ 64) * m) +
          2 ^ 64 * (Int.gcdB l.step.toInt (2 ^ 64) * m) := by
      rw [hm, stride, hbezout]
      ring
    generalize Int.gcdA l.step.toInt (2 ^ 64) * m = u at hsteps
    generalize Int.gcdB l.step.toInt (2 ^ 64) * m = v at hsteps
    refine ⟨(u % 2 ^ 64).toNat, ?_⟩
    have hk : (((u % 2 ^ 64).toNat : Nat) : Int) = u - 2 ^ 64 * (u / 2 ^ 64) := by
      rw [Int.toNat_of_nonneg (Int.emod_nonneg _ (by decide)), Int.emod_def]
    rw [toInt_index, hk]
    refine bmod_eq_of_dvd hlo hhi ⟨l.step.toInt * (u / 2 ^ 64) + v, ?_⟩
    linear_combination hsteps

/-- A loop ends exactly if a machine integer in its stride is past the end. -/
theorem ends_iff :
    l.Ends ↔ ∃ x : Int, l.end_.toInt < x ∧ x < 2 ^ 63 ∧ (l.stride : Int) ∣ x - l.start.toInt := by
  have hlo := l.end_.le_toInt
  constructor
  · rintro ⟨k, hk⟩
    exact ⟨(l.index k).toInt, Int64.lt_iff_toInt_lt.1 hk, (l.index k).toInt_lt,
      l.stride_dvd_index k⟩
  · rintro ⟨x, hend, hhi, hdvd⟩
    obtain ⟨k, rfl⟩ := (exists_index_iff (by omega) hhi).2 hdvd
    exact ⟨k, Int64.lt_iff_toInt_lt.2 hend⟩

theorem not_ends_iff : ¬l.Ends ↔ countUp l.end_ l.step (2 ^ 64) l.start = none := by
  rw [countUp_eq_none_iff, Ends, not_exists]
  exact forall_congr' fun k => by rw [index, Int64.not_lt]

end RangeLoop

/-! ## The loop of a text -/

/-- The loop over a range that `ParseInts` comes to, if it comes to one. -/
def rangeLoop (s : String) : Option RangeLoop :=
  match rangePattern s, rangeStepPattern s with
  | some (start, end_), _ =>
    match atoi start, atoi end_ with
    | .ok start, .ok end_ => some ⟨start, end_, 1⟩
    | _, _ => none
  | none, some (start, end_, step) =>
    match atoi start, atoi end_, atoi step with
    | .ok start, .ok end_, .ok step => some ⟨start, end_, step⟩
    | _, _, _ => none
  | none, none => none

theorem someResults_ne_endless (results : List Int64) :
    someResults results ≠ .error .endless := by
  rw [someResults]
  split <;> rintro ⟨⟩

/-- A range loop that does not end is an endless one. -/
theorem rangeInts_eq_endless (l : RangeLoop) :
    rangeInts l.start l.end_ l.step >>= someResults = .error .endless ↔ ¬l.Ends := by
  rw [RangeLoop.not_ends_iff, rangeInts]
  cases countUp l.end_ l.step (2 ^ 64) l.start with
  | none => exact iff_of_true rfl rfl
  | some results =>
    exact iff_of_false (someResults_ne_endless results) (by rintro ⟨⟩)

/-- `ParseInts` is endless exactly if the loop of the text is. -/
theorem parseInts_eq_endless (s : String) :
    parseInts s = .error .endless ↔ ∃ l, rangeLoop s = some l ∧ ¬l.Ends := by
  cases hp : rangePattern s with
  | some p =>
    simp only [parseInts, rangeLoop, hp]
    cases atoi p.1 with
    | error err => exact iff_of_false (by rintro ⟨⟩) (by rintro ⟨_, ⟨⟩, _⟩)
    | ok start =>
      cases atoi p.2 with
      | error err => exact iff_of_false (by rintro ⟨⟩) (by rintro ⟨_, ⟨⟩, _⟩)
      | ok end_ =>
        refine (rangeInts_eq_endless ⟨start, end_, 1⟩).trans ?_
        simp only [Option.some.injEq, exists_eq_left']
  | none =>
    cases hq : rangeStepPattern s with
    | some q =>
      simp only [parseInts, rangeLoop, hp, hq]
      cases atoi q.1 with
      | error err => exact iff_of_false (by rintro ⟨⟩) (by rintro ⟨_, ⟨⟩, _⟩)
      | ok start =>
        cases atoi q.2.1 with
        | error err => exact iff_of_false (by rintro ⟨⟩) (by rintro ⟨_, ⟨⟩, _⟩)
        | ok end_ =>
          cases atoi q.2.2 with
          | error err => exact iff_of_false (by rintro ⟨⟩) (by rintro ⟨_, ⟨⟩, _⟩)
          | ok step =>
            refine (rangeInts_eq_endless ⟨start, end_, step⟩).trans ?_
            simp only [Option.some.injEq, exists_eq_left']
    | none =>
      simp only [parseInts, rangeLoop, hp, hq]
      refine iff_of_false ?_ (by rintro ⟨_, ⟨⟩, _⟩)
      cases atois (split s ',') with
      | error err => rintro ⟨⟩
      | ok results => exact someResults_ne_endless results

/-- `ParseInts` returns exactly if the loop of the text, if there is one, has an index past its
end. -/
theorem parseInts_returns_iff (s : String) :
    parseInts s ≠ .error .endless ↔
      ∀ l, rangeLoop s = some l →
        ∃ x : Int, l.end_.toInt < x ∧ x < 2 ^ 63 ∧ (l.stride : Int) ∣ x - l.start.toInt := by
  rw [ne_eq, parseInts_eq_endless]
  constructor
  · intro h l hl
    by_contra hends
    exact h ⟨l, hl, fun he => hends (RangeLoop.ends_iff.1 he)⟩
  · rintro h ⟨l, hl, hends⟩
    exact hends (RangeLoop.ends_iff.2 (h l hl))

/-- A step of zero goes on for ever. -/
theorem parseInts_zero_step : parseInts "range(1;5;0)" = .error .endless := by
  have hloop : rangeLoop "range(1;5;0)" = some ⟨1, 5, 0⟩ := by decide
  refine (parseInts_eq_endless _).2 ⟨_, hloop, ?_⟩
  rintro ⟨k, hk⟩
  have hindex : RangeLoop.index ⟨1, 5, 0⟩ k = 1 := by
    rw [RangeLoop.index, iterate_add, Int64.mul_zero, Int64.add_zero]
  rw [hindex] at hk
  exact absurd hk (by decide)

end CloudPing.Utils
