import Mathlib.Logic.Basic

/-!
# Positions in a grid

The position of a place, row by row in rows of length `n`, is `r * n + c`.  Row and column are its
quotient and its remainder (`div_position`, `mod_position`), so each place has its own position
(`position_inj`).  The same holds of the digits of a number in base `n`.
-/

namespace Grid

variable {m n r c r' c' : Nat}

theorem div_position (hc : c < n) (r : Nat) : (r * n + c) / n = r := by
  rw [Nat.mul_comm, Nat.mul_add_div (Nat.zero_lt_of_lt hc), Nat.div_eq_of_lt hc, Nat.add_zero]

theorem mod_position (hc : c < n) (r : Nat) : (r * n + c) % n = c := by
  rw [Nat.add_comm, Nat.add_mul_mod_self_right, Nat.mod_eq_of_lt hc]

theorem position_lt (hr : r < m) (hc : c < n) : r * n + c < m * n :=
  calc r * n + c < r * n + n := Nat.add_lt_add_left hc _
    _ = (r + 1) * n := (Nat.succ_mul r n).symm
    _ ≤ m * n := Nat.mul_le_mul_right n hr

theorem position_inj (hc : c < n) (hc' : c' < n) (h : r * n + c = r' * n + c') :
    r = r' ∧ c = c' := by
  constructor
  · rw [← div_position hc r, h, div_position hc']
  · rw [← mod_position hc r, h, mod_position hc']

end Grid
