/- digest: Decimal digits of naturals, and the digits of the shortest decimal of a double. -/

import ScreenStudio.Number.Notation
import ScreenStudio.Number.Reading

set_option autoImplicit false
set_option relaxedAutoImplicit false

namespace ScreenStudio.Number

theorem isDigit_digitChars {value : Nat} {c : Char} (member : c ∈ digitChars value) :
    isDigit c = true := by
  have digit : c.isDigit = true := Nat.isDigit_of_mem_toDigits (by decide) (by decide) member
  unfold Char.isDigit at digit
  unfold isDigit
  simp only [ge_iff_le, Bool.and_eq_true, decide_eq_true_eq] at digit ⊢
  exact digit

theorem digitChars_ne_nil (value : Nat) : digitChars value ≠ [] := Nat.toDigits_ne_nil

theorem digitChars_head {value : Nat} (positive : 0 < value) :
    ∃ first more, digitChars value = first :: more ∧ first ≠ '0' := by
  induction value using Nat.strongRecOn with
  | _ value ih =>
    unfold digitChars
    by_cases small : value < 10
    · refine ⟨value.digitChar, [], Nat.toDigits_of_lt_base small, ?_⟩
      have cases : value = 1 ∨ value = 2 ∨ value = 3 ∨ value = 4 ∨ value = 5 ∨ value = 6 ∨
          value = 7 ∨ value = 8 ∨ value = 9 := by omega
      rcases cases with rfl | rfl | rfl | rfl | rfl | rfl | rfl | rfl | rfl <;> decide
    · obtain ⟨first, more, digits, noZero⟩ := ih (value / 10) (by omega) (by omega)
      refine ⟨first, more ++ [(value % 10).digitChar], ?_, noZero⟩
      unfold digitChars at digits
      rw [Nat.toDigits_of_base_le (by decide) (by omega), digits]
      rfl

theorem digitChars_zero : digitChars 0 = ['0'] := Nat.toDigits_zero 10

theorem digitsFrom_digitChars (value : Nat) : digitsFrom 0 (digitChars value) = value := by
  have known : Nat.ofDigitChars 10 (Nat.toDigits 10 value) 0 = value := Nat.ofDigitChars_ten_toDigits
  rw [Nat.ofDigitChars_eq_foldl] at known
  unfold digitsFrom digitChars
  simpa only [Nat.mul_comm] using known

theorem le_digitsFrom (start : Nat) (digits : List Char) : start ≤ digitsFrom start digits := by
  unfold digitsFrom
  induction digits generalizing start with
  | nil => exact Nat.le_refl start
  | cons c rest ih =>
    have step := ih (start * 10 + (c.toNat - '0'.toNat))
    rw [List.foldl_cons]
    omega

private theorem readsBack_pos {grid : Grid} {significand : Nat} {exponent : Int} {point : Nat}
    (positive : 0 < significand) (quarter : 0 < grid.quarter)
    (reads : readsBack grid significand exponent point = true) : 0 < point := by
  rcases Nat.eq_zero_or_pos point with rfl | other
  · exfalso
    have below : quartersBelow significand exponent ≤ 2 := by
      unfold quartersBelow
      split <;> omega
    have low : 0 < (4 * significand - quartersBelow significand exponent) * grid.quarter :=
      Nat.mul_pos (by omega) quarter
    unfold readsBack at reads
    simp only [Nat.zero_mul] at reads
    split at reads
    · have bounds := of_decide_eq_true reads
      omega
    · have bounds := of_decide_eq_true reads
      omega
  · exact other

private theorem quarter_pos (binary decimal : Int) : 0 < (Grid.of binary decimal).quarter :=
  Nat.mul_pos (Nat.pow_pos (by decide)) (Nat.pow_pos (by decide))

private theorem gridPoint?_pos {tie : TieRule} {significand : Nat} {exponent decimal : Int}
    {digits : Nat} (positive : 0 < significand)
    (point : gridPoint? tie significand exponent decimal = some digits) : 0 < digits := by
  have quarter := quarter_pos exponent decimal
  unfold gridPoint? at point
  dsimp only at point
  split at point
  · rename_i below _
    have least := readsBack_pos positive quarter below
    split at point
    · cases point
      exact least
    · split at point
      · cases point
        omega
      · cases tie with
        | up =>
          cases point
          omega
        | even =>
          cases point
          omega
  · rename_i below _
    cases point
    exact readsBack_pos positive quarter below
  · rename_i above
    cases point
    exact readsBack_pos positive quarter above
  · cases point

private theorem searchGrids_pos {tie : TieRule} {significand : Nat} {exponent : Int}
    (positive : 0 < significand) (count : Nat) (decimal : Int) :
    0 < (searchGrids tie significand exponent count decimal).digits := by
  induction count generalizing decimal with
  | zero =>
    unfold searchGrids
    split
    · exact Nat.mul_pos positive (Nat.pow_pos (by decide))
    · exact Nat.mul_pos positive (Nat.pow_pos (by decide))
  | succ count ih =>
    unfold searchGrids
    split
    · rename_i digits point
      exact gridPoint?_pos positive point
    · exact ih (decimal - 1)

theorem shortest_digits_pos {tie : TieRule} {significand : Nat} {exponent : Int}
    (positive : 0 < significand) : 0 < (shortest tie significand exponent).digits := by
  unfold shortest
  rw [if_neg (by omega)]
  exact searchGrids_pos positive _ _

end ScreenStudio.Number
