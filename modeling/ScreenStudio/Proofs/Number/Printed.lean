/- digest: The text of a finite number is a sign and digits that are read as the number. -/

import Mathlib
import ScreenStudio.Number.Notation
import ScreenStudio.Proofs.Number.Positional
import ScreenStudio.Proofs.Number.Shortest
import ScreenStudio.Proofs.Number.Whole

set_option autoImplicit false
set_option relaxedAutoImplicit false

namespace ScreenStudio.Number

/-- Digits with at most one point, with digits on both sides of it. -/
inductive IsPlain : List Char → Prop
  | whole {digits : List Char} (start : IsWhole digits) : IsPlain digits
  | point {whole fraction : List Char} (start : IsWhole whole) (nonempty : fraction ≠ [])
    (all : ∀ c ∈ fraction, isDigit c = true) : IsPlain (whole ++ '.' :: fraction)

/-- Digits with a minus sign before them, or without one. -/
def signed (negative : Bool) (digits : List Char) : List Char := if negative then '-' :: digits else digits

theorem IsWhole.all {digits : List Char} (whole : IsWhole digits) : ∀ c ∈ digits, isDigit c = true := by
  obtain ⟨_, _, _, _, all⟩ := whole
  exact all

theorem positional_read {decimal : Decimal} (positive : 0 < decimal.digits) :
    IsPlain (positional decimal) ∧ ∃ (digits : Nat) (power : Int),
      ofPlainDigits (positional decimal) = ofDecimal false digits power ∧
        (digits : ℚ) * 10 ^ power = decimal.value := by
  rcases Int.lt_or_le decimal.exponent 0 with narrow | wide
  · obtain ⟨whole, fraction, form, start, nonempty, all, value, places⟩ := positional_point positive narrow
    rw [form]
    refine ⟨.point start nonempty all, decimal.digits, decimal.exponent, ?_, rfl⟩
    rw [ofPlainDigits_point start.all, value, places]
  · obtain ⟨start, value⟩ := positional_whole positive wide
    refine ⟨.whole start, _, 0, ofPlainDigits_whole start.all, ?_⟩
    obtain ⟨count, exponent⟩ := Int.eq_ofNat_of_zero_le wide
    unfold Decimal.value
    rw [value, exponent, zpow_zero, mul_one, Int.toNat_natCast, zpow_natCast]
    push_cast
    rfl

section Doubles

variable {x : Float} {negative : Bool} {significand : Nat} {exponent : Int}

theorem natAbs_of_toInt? {value : Int} (is : toInt? x = some value)
    (form : parts x = .finite negative significand exponent) :
    (value.natAbs : ℚ) = significand * 2 ^ exponent ∧
      value = if negative then -(value.natAbs : Int) else (value.natAbs : Int) := by
  obtain ⟨sign, units, power, same, signed, right, left⟩ := parts_of_toInt? is
  rw [form] at same
  cases same
  refine ⟨?_, signed⟩
  rcases Int.le_total 0 exponent with wide | narrow
  · obtain ⟨count, rfl⟩ := Int.eq_ofNat_of_zero_le wide
    rw [right wide, Int.toNat_natCast, zpow_natCast]
    push_cast
    rfl
  · obtain ⟨count, rfl⟩ : ∃ count : Nat, exponent = -(count : Int) := ⟨(-exponent).toNat, by omega⟩
    rw [left narrow, neg_neg, Int.toNat_natCast, zpow_neg, zpow_natCast]
    push_cast
    rw [mul_assoc, mul_inv_cancel₀ (by positivity), mul_one]

/-- The digits are read as the double with this significand and exponent. -/
structure ReadAs (digits : List Char) (significand : Nat) (exponent : Int) : Prop where
  plain : IsPlain digits
  read : ∀ magnitude, HasMagnitude significand exponent magnitude →
    ofPlainDigits digits = ofSignedBits false magnitude

theorem literalText_digits (form : parts x = .finite negative significand exponent)
    (positive : 0 < significand) :
    ∃ digits, literalText x = String.ofList (signed negative digits) ∧ ReadAs digits significand exponent := by
  obtain ⟨plain, digits, power, read, value⟩ :=
    @positional_read (shortest .up significand exponent) (shortest_digits_pos positive)
  refine ⟨positional (shortest .up significand exponent), ?_, plain, fun magnitude has => ?_⟩
  · unfold literalText
    rw [form]
    rfl
  · rw [read]
    refine ofDecimal_of_near false positive has ?_
    rw [value]
    exact near_shortest .up positive

theorem integerChars_digits {value : Int} (form : parts x = .finite negative significand exponent)
    (positive : 0 < significand) (is : toInt? x = some value) :
    ∃ digits, integerChars value = signed negative digits ∧ ReadAs digits significand exponent := by
  obtain ⟨equal, sign⟩ := natAbs_of_toInt? is form
  have nonzero : 0 < value.natAbs := by
    have room : (0 : ℚ) < significand * 2 ^ exponent :=
      mul_pos (Nat.cast_pos.mpr positive) (two_zpow_pos exponent)
    rw [← equal] at room
    exact Nat.cast_pos.mp room
  have start := isWhole_digitChars value.natAbs
  refine ⟨digitChars value.natAbs, ?_, .whole start, fun magnitude has => ?_⟩
  · unfold integerChars
    cases negative with
    | false =>
      rw [if_neg Bool.false_ne_true] at sign
      rw [if_neg (by omega)]
      rfl
    | true =>
      rw [if_pos rfl] at sign
      rw [if_pos (by omega)]
      rfl
  · rw [ofPlainDigits_whole start.all, digitsFrom_digitChars]
    refine ofDecimal_of_near false positive has ?_
    rw [zpow_zero, mul_one, equal]
    exact near_exact significand exponent

/-- A finite number other than zero is displayed as digits that are read as it without its sign. -/
theorem display_digits (form : parts x = .finite negative significand exponent) (positive : 0 < significand) :
    ∃ digits, display x = String.ofList (signed negative digits) ∧ ReadAs digits significand exponent := by
  unfold display
  rw [form]
  dsimp only
  split
  · rename_i value is
    split
    · obtain ⟨digits, chars, read⟩ := integerChars_digits form positive is
      exact ⟨digits, congrArg String.ofList chars, read⟩
    · exact literalText_digits form positive
  · exact literalText_digits form positive

/-- A finite number is displayed as an optional minus sign and digits that are read as the number; the
negative zero is displayed as zero. -/
theorem display_read (finite : isFinite x = true) :
    ∃ (negative : Bool) (digits : List Char),
      display x = String.ofList (signed negative digits) ∧ IsPlain digits ∧
        (if negative then -ofPlainDigits digits else ofPlainDigits digits) = if x = -0 then 0 else x := by
  obtain ⟨negative, significand, exponent, form⟩ := parts_of_isFinite finite
  rcases Nat.eq_zero_or_pos significand with rfl | positive
  · have zero : x = 0 ∨ x = -0 := by
      refine eq_zero_of_toInt? ?_
      unfold toInt?
      rw [form]
      dsimp only
      split <;> cases negative <;> simp
    refine ⟨false, ['0'], ?_, .whole isWhole_zero, ?_⟩
    · rcases zero with rfl | rfl <;> decide +kernel
    · rcases zero with rfl | rfl <;> decide +kernel
  · obtain ⟨digits, displayed, plain, read⟩ := display_digits form positive
    obtain ⟨magnitude, has, is⟩ := exists_hasMagnitude form
    have other : x ≠ -0 := by
      rintro rfl
      have zero : parts (-0) = .finite true 0 leastExponent := by decide +kernel
      rw [zero] at form
      cases form
      exact Nat.lt_irrefl 0 positive
    refine ⟨negative, digits, displayed, plain, ?_⟩
    rw [if_neg other, read magnitude has, is]
    cases negative with
    | false => rfl
    | true => exact neg_ofSignedBits has.finite

end Doubles

end ScreenStudio.Number
