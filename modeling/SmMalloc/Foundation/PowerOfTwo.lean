import Mathlib.Data.Nat.Bitwise
import Mathlib.Algebra.Order.Ring.Nat

namespace Foundation

/-!
# Rounding to powers of two

Masking with `2 ^ k - 1` and with its complement in a machine word are the
remainder and the rounding down of ordinary arithmetic.  The second half is
about rounding a positive number up: `roundUp n g` is the least multiple of
`g` that is at least `n`, written the way size classes count it, with a
division of `n - 1`.

Memory is cut into cells of one size; cell `i` starts at `i * size`.
-/

/-! ## Cells of one size -/

theorem cell_le {i j : Nat} (before : i < j) (size : Nat) : i * size + size ≤ j * size := by
  have step : (i + 1) * size ≤ j * size := Nat.mul_le_mul_right size before
  rwa [Nat.succ_mul] at step

theorem cells_apart {i j : Nat} (different : i ≠ j) (size : Nat) :
    i * size + size ≤ j * size ∨ j * size + size ≤ i * size :=
  (Nat.lt_or_gt_of_ne different).imp (fun before => cell_le before size)
    (fun after => cell_le after size)

/-- A cell that is counted ends within the whole. -/
theorem cell_end_le {i size total : Nat} (inside : i < total / size) :
    i * size + size ≤ total :=
  Nat.le_trans (cell_le inside size) (Nat.div_mul_le_self total size)

/-! ## Rounding -/

/-- Clearing the low `k` bits of a word rounds it down to a multiple of `2 ^ k`. -/
theorem and_high_bits {x width k : Nat} (small : k ≤ width) (bound : x < 2 ^ width) :
    x &&& (2 ^ width - 1 - (2 ^ k - 1)) = x / 2 ^ k * 2 ^ k := by
  have low : 2 ^ k - 1 < 2 ^ width := by
    have := Nat.pow_le_pow_right Nat.two_pos small
    have := Nat.two_pow_pos k
    omega
  have mask : 2 ^ width - 1 - (2 ^ k - 1) = 2 ^ width - (2 ^ k - 1 + 1) := by omega
  rw [mask, ← Nat.shiftRight_eq_div_pow, ← Nat.shiftLeft_eq]
  apply Nat.eq_of_testBit_eq
  intro i
  rw [Nat.testBit_and, Nat.testBit_two_pow_sub_succ low, Nat.testBit_two_pow_sub_one,
    Nat.testBit_shiftLeft, Nat.testBit_shiftRight]
  by_cases high : k ≤ i
  · by_cases inside : i < width
    · have shifted : k + (i - k) = i := by omega
      have notLow : ¬ i < k := by omega
      simp [high, inside, shifted, notLow]
    · have zero : x.testBit i = false := by
        apply Nat.testBit_lt_two_pow
        exact Nat.lt_of_lt_of_le bound (Nat.pow_le_pow_right Nat.two_pos (by omega))
      have shifted : k + (i - k) = i := by omega
      simp [zero, shifted]
  · have isLow : i < k := by omega
    have notHigh : ¬ i ≥ k := high
    simp [isLow, notHigh]

/-- The least multiple of `g` that is at least `n`, for positive `n`. -/
def roundUp (n g : Nat) : Nat := ((n - 1) / g + 1) * g

theorem le_roundUp (n : Nat) {g : Nat} (positive : 0 < g) : n ≤ roundUp n g := by
  have split := Nat.div_add_mod (n - 1) g
  have rest := Nat.mod_lt (n - 1) positive
  rw [roundUp, Nat.add_mul, Nat.one_mul, Nat.mul_comm]
  omega

theorem dvd_roundUp (n g : Nat) : g ∣ roundUp n g := Dvd.intro_left _ rfl

theorem roundUp_of_dvd {n g : Nat} (positive : 0 < n) (divides : g ∣ n) : roundUp n g = n := by
  rcases divides with ⟨q, rfl⟩
  have gPositive : 0 < g := Nat.pos_of_mul_pos_right positive
  have qPositive : 0 < q := Nat.pos_of_mul_pos_left positive
  have quotient : (g * q - 1) / g = q - 1 := by
    rw [Nat.div_eq_iff gPositive]
    have expand : (q - 1) * g + g = g * q := by
      rw [← Nat.succ_mul, Nat.succ_eq_add_one, Nat.sub_add_cancel qPositive, Nat.mul_comm]
    omega
  rw [roundUp, quotient, Nat.sub_add_cancel qPositive, Nat.mul_comm]

/-- Rounding up to one power of two keeps divisibility by every other. -/
theorem dvd_roundUp_of_dvd {n a k : Nat} (positive : 0 < n) (divides : 2 ^ k ∣ n) :
    2 ^ k ∣ roundUp n (2 ^ a) := by
  by_cases small : k ≤ a
  · exact Dvd.dvd.trans (pow_dvd_pow 2 small) (dvd_roundUp n (2 ^ a))
  · have coarse : 2 ^ a ∣ n := Dvd.dvd.trans (pow_dvd_pow 2 (by omega)) divides
    rw [roundUp_of_dvd positive coarse]
    exact divides

end Foundation
