/- digest: The decimal with the fewest digits lies among the reals that round to the double. -/

import Mathlib
import ScreenStudio.Number.Digits
import ScreenStudio.Proofs.Number.Rounding

set_option autoImplicit false
set_option relaxedAutoImplicit false

namespace ScreenStudio.Number

/-- The value of a decimal. -/
def Decimal.value (decimal : Decimal) : ℚ := decimal.digits * 10 ^ decimal.exponent

section Grids

/-- A power is that of the part of the exponent above zero, divided by that of the part below. -/
theorem zpow_mul_pow_toNat {base : ℚ} (nonzero : base ≠ 0) (exponent : Int) :
    base ^ exponent * base ^ (-exponent).toNat = base ^ exponent.toNat := by
  rw [← zpow_natCast, ← zpow_natCast, ← zpow_add₀ nonzero]
  congr 1
  omega

theorem Grid.quarter_pos (binary decimal : Int) : (0 : ℚ) < (Grid.of binary decimal).quarter := by
  unfold Grid.of
  push_cast
  positivity

theorem Grid.step_eq (binary decimal : Int) :
    ((Grid.of binary decimal).step : ℚ) =
      4 * (10 ^ decimal / 2 ^ binary) * (Grid.of binary decimal).quarter := by
  have tens : (10 : ℚ) ^ decimal * 10 ^ (-decimal).toNat = 10 ^ decimal.toNat :=
    zpow_mul_pow_toNat (by norm_num) decimal
  have twos : (2 : ℚ) ^ (2 - binary) * 2 ^ (-(2 - binary)).toNat = 2 ^ (2 - binary).toNat :=
    zpow_mul_pow_toNat two_ne_zero (2 - binary)
  have quarters : (2 : ℚ) ^ (2 - binary) = 4 / 2 ^ binary := by
    rw [zpow_sub₀ two_ne_zero]
    norm_num
  unfold Grid.of
  push_cast
  rw [← tens, ← twos, quarters, neg_sub]
  ring

end Grids

section Intervals

variable {significand : Nat} {exponent : Int}

theorem quartersBelow_pos (significand : Nat) (exponent : Int) : 0 < quartersBelow significand exponent := by
  unfold quartersBelow
  split <;> omega

theorem near_exact (significand : Nat) (exponent : Int) :
    Near significand exponent (significand * 2 ^ exponent) := by
  have scaled : (significand : ℚ) * 2 ^ exponent / 2 ^ exponent = significand :=
    mul_div_cancel_right₀ _ (two_zpow_pos exponent).ne'
  have below : (0 : ℚ) < quartersBelow significand exponent := by
    exact_mod_cast quartersBelow_pos significand exponent
  constructor
  · rw [scaled]
    linarith
  · rw [scaled]
    linarith
  · intro _
    rw [scaled]
    constructor <;> linarith

/-- A grid point that reads back lies between the ends, and not on one if the significand is odd. -/
theorem bounds_of_readsBack {grid : Grid} {point : Nat}
    (hit : readsBack grid significand exponent point = true) :
    ((4 * significand - quartersBelow significand exponent) * grid.quarter ≤ point * grid.step ∧
      point * grid.step ≤ (4 * significand + 2) * grid.quarter) ∧
    (significand % 2 = 1 →
      (4 * significand - quartersBelow significand exponent) * grid.quarter < point * grid.step ∧
        point * grid.step < (4 * significand + 2) * grid.quarter) := by
  unfold readsBack at hit
  dsimp only at hit
  split at hit
  · exact ⟨of_decide_eq_true hit, fun odd => by omega⟩
  · have inside := of_decide_eq_true hit
    exact ⟨inside.imp Nat.le_of_lt Nat.le_of_lt, fun _ => inside⟩

theorem near_of_readsBack {decimal : Int} {point : Nat} (positive : 0 < significand)
    (hit : readsBack (Grid.of exponent decimal) significand exponent point = true) :
    Near significand exponent (point * 10 ^ decimal) := by
  have filled := Grid.quarter_pos exponent decimal
  have few := quartersBelow_le significand exponent
  have low : ((4 * significand - quartersBelow significand exponent : Nat) : ℚ) =
      4 * (significand : ℚ) - quartersBelow significand exponent := by
    rw [Nat.cast_sub (by omega)]
    push_cast
    rfl
  have place : (point : ℚ) * (Grid.of exponent decimal).step =
      4 * (point * 10 ^ decimal / 2 ^ exponent) * (Grid.of exponent decimal).quarter := by
    rw [Grid.step_eq]
    ring
  obtain ⟨⟨least, most⟩, inside⟩ := bounds_of_readsBack hit
  generalize (Grid.of exponent decimal).quarter = quarter at *
  generalize (Grid.of exponent decimal).step = step at *
  constructor
  · refine le_of_mul_le_mul_right ?_ filled
    rw [← place, ← low]
    exact_mod_cast least
  · refine le_of_mul_le_mul_right ?_ filled
    rw [← place]
    exact_mod_cast most
  · intro odd
    obtain ⟨less, more⟩ := inside odd
    constructor
    · refine lt_of_mul_lt_mul_right ?_ filled.le
      rw [← place, ← low]
      exact_mod_cast less
    · refine lt_of_mul_lt_mul_right ?_ filled.le
      rw [← place]
      exact_mod_cast more

theorem readsBack_of_gridPoint? {tie : TieRule} {decimal : Int} {point : Nat}
    (taken : gridPoint? tie significand exponent decimal = some point) :
    readsBack (Grid.of exponent decimal) significand exponent point = true := by
  unfold gridPoint? at taken
  dsimp only at taken
  generalize 4 * significand * (Grid.of exponent decimal).quarter / (Grid.of exponent decimal).step = below
    at taken
  have even : below + below % 2 = below ∨ below + below % 2 = below + 1 := by omega
  split at taken
  · rename_i hit next
    split at taken
    · cases taken
      exact hit
    · split at taken
      · cases taken
        exact next
      · cases tie with
        | up =>
          cases taken
          exact next
        | even =>
          cases taken
          rcases even with same | above
          · rw [same]
            exact hit
          · rw [above]
            exact next
  · rename_i hit _
    cases taken
    exact hit
  · rename_i _ next
    cases taken
    exact next
  · cases taken

theorem value_searchGrids_zero (tie : TieRule) (significand : Nat) (exponent decimal : Int) :
    (searchGrids tie significand exponent 0 decimal).value = significand * 2 ^ exponent := by
  unfold searchGrids
  split
  · rename_i wide
    obtain ⟨shift, rfl⟩ := Int.eq_ofNat_of_zero_le wide
    unfold Decimal.value
    rw [Int.toNat_natCast, zpow_zero, zpow_natCast]
    push_cast
    rw [mul_one]
  · rename_i narrow
    obtain ⟨shift, rfl⟩ : ∃ shift : Nat, exponent = -(shift : Int) := ⟨(-exponent).toNat, by omega⟩
    unfold Decimal.value
    have ten : (10 : ℚ) ^ shift = 5 ^ shift * 2 ^ shift := by
      rw [← mul_pow]
      norm_num
    rw [neg_neg, Int.toNat_natCast, zpow_neg, zpow_neg, zpow_natCast, zpow_natCast, ten]
    push_cast
    field_simp

theorem near_searchGrids (tie : TieRule) (positive : 0 < significand) (count : Nat) (decimal : Int) :
    Near significand exponent (searchGrids tie significand exponent count decimal).value := by
  induction count generalizing decimal with
  | zero =>
    rw [value_searchGrids_zero]
    exact near_exact significand exponent
  | succ count ih =>
    unfold searchGrids
    split
    · rename_i digits taken
      exact near_of_readsBack positive (readsBack_of_gridPoint? taken)
    · exact ih (decimal - 1)

theorem near_shortest (tie : TieRule) (positive : 0 < significand) :
    Near significand exponent (shortest tie significand exponent).value := by
  unfold shortest
  rw [if_neg (Nat.ne_of_gt positive)]
  exact near_searchGrids tie positive 24 (topExponent significand exponent)

end Intervals

end ScreenStudio.Number
