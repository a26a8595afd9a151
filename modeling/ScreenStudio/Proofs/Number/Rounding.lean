/- digest: A quotient is rounded to the double in whose interval it lies. -/

import Mathlib
import ScreenStudio.Number.Digits
import ScreenStudio.Proofs.Number.Bits

/-!
The reals that round to a double lie around it, from half way to the double below to half way to the double
above. Such a quotient lies in the binade of the double, or just below it where the double is the first of
its binade; there it is rounded up into the next binade. So rounding a quotient of naturals, or a decimal,
gives back every double in whose interval it lies.
-/

set_option autoImplicit false
set_option relaxedAutoImplicit false

namespace ScreenStudio.Number

/-- The value lies among the reals that round to `significand · 2 ^ exponent`. The ends do so if the
significand is even. -/
structure Near (significand : Nat) (exponent : Int) (value : ℚ) : Prop where
  low : 4 * (significand : ℚ) - quartersBelow significand exponent ≤ 4 * (value / 2 ^ exponent)
  high : 4 * (value / 2 ^ exponent) ≤ 4 * significand + 2
  inside : significand % 2 = 1 →
    4 * (significand : ℚ) - quartersBelow significand exponent < 4 * (value / 2 ^ exponent) ∧
      4 * (value / 2 ^ exponent) < 4 * significand + 2

/-- The magnitude bits are those of the double `significand · 2 ^ exponent`. -/
structure HasMagnitude (significand : Nat) (exponent : Int) (magnitude : Nat) : Prop where
  least : leastExponent ≤ exponent
  most : significand < 2 ^ 53
  normal : 2 ^ 52 ≤ significand ∨ exponent = leastExponent
  is : magnitude = significand + (exponent - leastExponent).toNat * 2 ^ 52
  finite : magnitude < 2047 * 2 ^ 52

section Magnitudes

variable {significand magnitude : Nat} {exponent : Int}

theorem exists_hasMagnitude {x : Float} {negative : Bool}
    (is : parts x = .finite negative significand exponent) :
    ∃ magnitude, HasMagnitude significand exponent magnitude ∧ x = ofSignedBits negative magnitude := by
  have finite : isFinite x = true := by
    unfold isFinite
    rw [is]
  obtain ⟨sign, magnitude, bound, rfl⟩ := exists_ofSignedBits finite
  rw [parts_ofSignedBits bound] at is
  split at is
  · rename_i subnormal
    cases is
    refine ⟨_, ⟨Int.le_refl _, by omega, .inr rfl, ?_, bound⟩, rfl⟩
    rw [Int.sub_self]
    exact (Nat.add_zero _).symm
  · rename_i normal
    cases is
    refine ⟨_, ⟨?_, by omega, .inl (Nat.le_add_right _ _), ?_, bound⟩, rfl⟩
    · unfold leastExponent
      omega
    · unfold leastExponent
      omega

theorem quartersBelow_le (significand : Nat) (exponent : Int) : quartersBelow significand exponent ≤ 2 := by
  unfold quartersBelow
  split <;> omega

theorem HasMagnitude.exponent_le (has : HasMagnitude significand exponent magnitude) : exponent ≤ 971 := by
  obtain ⟨least, most, normal, is, finite⟩ := has
  unfold leastExponent at least normal is
  omega

end Magnitudes

section Quotients

variable {numerator denominator : Nat}

/-- A quotient within half of a natural is rounded to it, and half way to it if it is even. -/
theorem roundHalfEven_eq {count : Nat} (positive : 0 < denominator)
    (low : 2 * (denominator * count) ≤ 2 * numerator + denominator)
    (high : 2 * numerator ≤ 2 * (denominator * count) + denominator)
    (inside : count % 2 = 1 → 2 * (denominator * count) < 2 * numerator + denominator ∧
      2 * numerator < 2 * (denominator * count) + denominator) :
    roundHalfEven numerator denominator = count := by
  have split : denominator * (numerator / denominator) + numerator % denominator = numerator :=
    Nat.div_add_mod numerator denominator
  have small : numerator % denominator < denominator := Nat.mod_lt _ positive
  unfold roundHalfEven
  dsimp only
  generalize numerator / denominator = quotient at split
  generalize numerator % denominator = rest at split small
  subst split
  have upper : count ≤ quotient + 1 := by
    by_contra far
    have step := Nat.mul_le_mul_left denominator (show quotient + 2 ≤ count by omega)
    rw [Nat.mul_add] at step
    omega
  have lower : quotient ≤ count := by
    by_contra far
    have step := Nat.mul_le_mul_left denominator (show count + 1 ≤ quotient by omega)
    rw [Nat.mul_add] at step
    omega
  obtain rfl | rfl : count = quotient ∨ count = quotient + 1 := by omega
  · split
    · rfl
    · split
      · omega
      · omega
  · rw [Nat.mul_add] at low high inside
    split
    · omega
    · split
      · rfl
      · omega

theorem roundHalfEven_of_near {count : Nat} (positive : 0 < denominator)
    (low : 2 * (count : ℚ) - 1 ≤ 2 * ((numerator : ℚ) / denominator))
    (high : 2 * ((numerator : ℚ) / denominator) ≤ 2 * count + 1)
    (inside : count % 2 = 1 → 2 * (count : ℚ) - 1 < 2 * ((numerator : ℚ) / denominator) ∧
      2 * ((numerator : ℚ) / denominator) < 2 * count + 1) :
    roundHalfEven numerator denominator = count := by
  have place : (0 : ℚ) < denominator := Nat.cast_pos.mpr positive
  rw [← mul_div_assoc, le_div_iff₀ place] at low
  rw [← mul_div_assoc, div_le_iff₀ place] at high
  rw [← mul_div_assoc, lt_div_iff₀ place, div_lt_iff₀ place] at inside
  refine roundHalfEven_eq positive ?_ ?_ fun odd => ?_
  · have scaled : 2 * ((denominator : ℚ) * count) ≤ 2 * numerator + denominator := by linarith
    exact_mod_cast scaled
  · have scaled : 2 * (numerator : ℚ) ≤ 2 * (denominator * count) + denominator := by linarith
    exact_mod_cast scaled
  · obtain ⟨less, more⟩ := inside odd
    have least : 2 * ((denominator : ℚ) * count) < 2 * numerator + denominator := by linarith
    have most : 2 * (numerator : ℚ) < 2 * (denominator * count) + denominator := by linarith
    exact ⟨by exact_mod_cast least, by exact_mod_cast most⟩

theorem scaleRatio_eq (numerator : Nat) (positive : 0 < denominator) (exponent : Int) :
    0 < (scaleRatio numerator denominator exponent).2 ∧
      ((scaleRatio numerator denominator exponent).1 : ℚ) / (scaleRatio numerator denominator exponent).2 =
        (numerator : ℚ) / denominator / 2 ^ exponent := by
  unfold scaleRatio
  split
  · rename_i wide
    obtain ⟨count, rfl⟩ := Int.eq_ofNat_of_zero_le wide
    refine ⟨Nat.mul_pos positive (Nat.two_pow_pos _), ?_⟩
    simp only [Int.toNat_natCast, zpow_natCast]
    push_cast
    rw [div_div]
  · rename_i narrow
    obtain ⟨count, rfl⟩ : ∃ count : Nat, exponent = -(count : Int) := ⟨(-exponent).toNat, by omega⟩
    refine ⟨positive, ?_⟩
    simp only [neg_neg, Int.toNat_natCast, zpow_neg, zpow_natCast]
    push_cast
    rw [div_inv_eq_mul, mul_div_right_comm]

theorem two_zpow_pos (exponent : Int) : (0 : ℚ) < 2 ^ exponent := zpow_pos two_pos exponent

theorem two_zpow_add (count : Nat) (exponent : Int) :
    (2 : ℚ) ^ (exponent + count) = 2 ^ count * 2 ^ exponent := by
  rw [zpow_add₀ two_ne_zero, zpow_natCast, mul_comm]

private theorem log2_bounds {value : Nat} (positive : 0 < value) :
    (2 : ℚ) ^ (value.log2 : Int) ≤ value ∧ (value : ℚ) < 2 ^ ((value.log2 : Int) + 1) := by
  obtain ⟨least, most⟩ := (Nat.log2_eq_iff (Nat.ne_of_gt positive)).mp (rfl : value.log2 = value.log2)
  constructor
  · rw [zpow_natCast]
    exact_mod_cast least
  · have next : (value.log2 : Int) + 1 = ((value.log2 + 1 : Nat) : Int) := rfl
    rw [next, zpow_natCast]
    exact_mod_cast most

/-- Up to the least one, the exponent of a quotient is the one of the binade in which it lies. -/
theorem exists_binade (filled : 0 < numerator) (positive : 0 < denominator) :
    ∃ binade : Int, ratioExponent numerator denominator = max leastExponent binade ∧
      (2 : ℚ) ^ (binade + 52) ≤ (numerator : ℚ) / denominator ∧
      (numerator : ℚ) / denominator < 2 ^ (binade + 53) := by
  have place : (0 : ℚ) < denominator := Nat.cast_pos.mpr positive
  obtain ⟨least, most⟩ := log2_bounds filled
  obtain ⟨leastBelow, mostBelow⟩ := log2_bounds positive
  let guess : Int := (numerator.log2 : Int) - (denominator.log2 : Int) - 53
  obtain ⟨scaledPositive, scaled⟩ := scaleRatio_eq numerator positive guess
  have low : (2 : ℚ) ^ (guess + 52) ≤ (numerator : ℚ) / denominator := by
    rw [le_div_iff₀ place]
    calc (2 : ℚ) ^ (guess + 52) * denominator
        ≤ 2 ^ (guess + 52) * 2 ^ ((denominator.log2 : Int) + 1) :=
          mul_le_mul_of_nonneg_left mostBelow.le (two_zpow_pos _).le
      _ = 2 ^ (numerator.log2 : Int) := by
          rw [← zpow_add₀ two_ne_zero]
          congr 1
          omega
      _ ≤ numerator := least
  have high : (numerator : ℚ) / denominator < 2 ^ (guess + 54) := by
    rw [div_lt_iff₀ place]
    calc (numerator : ℚ) < 2 ^ ((numerator.log2 : Int) + 1) := most
      _ = 2 ^ (guess + 54) * 2 ^ (denominator.log2 : Int) := by
          rw [← zpow_add₀ two_ne_zero]
          congr 1
          omega
      _ ≤ 2 ^ (guess + 54) * denominator := mul_le_mul_of_nonneg_left leastBelow (two_zpow_pos _).le
  have side : (scaleRatio numerator denominator guess).1 / (scaleRatio numerator denominator guess).2 < 2 ^ 53 ↔
      (numerator : ℚ) / denominator < 2 ^ (guess + 53) := by
    have above : (0 : ℚ) < (scaleRatio numerator denominator guess).2 := Nat.cast_pos.mpr scaledPositive
    have power : (2 : ℚ) ^ (guess + 53) = 2 ^ 53 * 2 ^ guess := two_zpow_add 53 guess
    rw [Nat.div_lt_iff_lt_mul scaledPositive, power, ← div_lt_iff₀ (two_zpow_pos guess), ← scaled,
      div_lt_iff₀ above]
    exact_mod_cast Iff.rfl
  unfold ratioExponent
  dsimp only
  split
  · rename_i small
    exact ⟨guess, rfl, low, side.mp small⟩
  · rename_i large
    refine ⟨guess + 1, rfl, ?_, ?_⟩
    · rw [show guess + 1 + 52 = guess + 53 by omega]
      exact not_lt.mp fun less => large (side.mpr less)
    · rw [show guess + 1 + 53 = guess + 54 by omega]
      exact high

theorem Near.lt_next {significand magnitude : Nat} {exponent : Int} {value : ℚ}
    (near : Near significand exponent value) (has : HasMagnitude significand exponent magnitude) :
    value < 2 ^ (exponent + 53) := by
  have most : (significand : ℚ) ≤ 2 ^ 53 - 1 := by
    have bound : significand + 1 ≤ 2 ^ 53 := has.most
    have cast : (significand : ℚ) + 1 ≤ 2 ^ 53 := by exact_mod_cast bound
    linarith
  have power : (2 : ℚ) ^ (exponent + 53) = 2 ^ 53 * 2 ^ exponent := two_zpow_add 53 exponent
  have high := near.high
  rw [power, ← div_lt_iff₀ (two_zpow_pos exponent)]
  linarith

/-- A value that rounds to a positive double is at least half of the last place of the double. -/
theorem Near.half_le {significand : Nat} {exponent : Int} {value : ℚ} (positive : 0 < significand)
    (near : Near significand exponent value) : 2 ^ (exponent - 1) ≤ value := by
  have least : (1 : ℚ) ≤ significand := by exact_mod_cast positive
  have below : (quartersBelow significand exponent : ℚ) ≤ 2 := by
    exact_mod_cast quartersBelow_le significand exponent
  have power : (2 : ℚ) ^ (exponent - 1) = 1 / 2 * 2 ^ exponent := by
    rw [zpow_sub_one₀ two_ne_zero, mul_comm, one_div]
  have low := near.low
  rw [power, ← le_div_iff₀ (two_zpow_pos exponent)]
  linarith

/-- A value that rounds to a double lies in its binade, or just below it if the double is the first of its
binade. -/
theorem Near.binade {significand magnitude : Nat} {exponent binade : Int} {value : ℚ}
    (near : Near significand exponent value) (has : HasMagnitude significand exponent magnitude)
    (low : 2 ^ (binade + 52) ≤ value) (high : value < 2 ^ (binade + 53)) :
    max leastExponent binade = exponent ∨
      (max leastExponent binade = exponent - 1 ∧ significand = 2 ^ 52 ∧ leastExponent < exponent) := by
  have least := has.least
  have notAbove : binade ≤ exponent := by
    have less := low.trans_lt (near.lt_next has)
    rw [zpow_lt_zpow_iff_right₀ one_lt_two] at less
    omega
  rcases Int.lt_or_le (max leastExponent binade) exponent with less | equal
  · right
    have normal : 2 ^ 52 ≤ significand := has.normal.resolve_right (by omega)
    have under : value / 2 ^ exponent < 2 ^ 52 := by
      have power : (2 : ℚ) ^ (exponent + 52) = 2 ^ 52 * 2 ^ exponent := two_zpow_add 52 exponent
      rw [div_lt_iff₀ (two_zpow_pos exponent), ← power]
      exact high.trans_le (zpow_le_zpow_right₀ one_le_two (by omega))
    have below : (quartersBelow significand exponent : ℚ) ≤ 2 := by
      exact_mod_cast quartersBelow_le significand exponent
    have lowest := near.low
    have first : significand = 2 ^ 52 := by
      have close : (significand : ℚ) < 2 ^ 52 + 1 := by linarith
      have cast : significand < 2 ^ 52 + 1 := by exact_mod_cast close
      omega
    have quarter : quartersBelow significand exponent = 1 := if_pos ⟨first, by omega⟩
    have atLeast : 2 ^ (exponent + 51) ≤ value := by
      have power : (2 : ℚ) ^ (exponent + 51) = 2 ^ 51 * 2 ^ exponent := two_zpow_add 51 exponent
      rw [power, ← le_div_iff₀ (two_zpow_pos exponent)]
      rw [quarter, first] at lowest
      push_cast at lowest
      linarith
    have next := atLeast.trans_lt high
    rw [zpow_lt_zpow_iff_right₀ one_lt_two] at next
    exact ⟨by omega, first, by omega⟩
  · exact .inl (by omega)

/-- At the exponent of the double, a quotient in its interval is rounded to its significand. -/
theorem Near.rounds {significand : Nat} {exponent : Int} (positive : 0 < denominator)
    (near : Near significand exponent ((numerator : ℚ) / denominator)) :
    roundHalfEven (scaleRatio numerator denominator exponent).1
      (scaleRatio numerator denominator exponent).2 = significand := by
  obtain ⟨scaledPositive, scaled⟩ := scaleRatio_eq numerator positive exponent
  have below : (quartersBelow significand exponent : ℚ) ≤ 2 := by
    exact_mod_cast quartersBelow_le significand exponent
  have lowest := near.low
  have highest := near.high
  refine roundHalfEven_of_near scaledPositive ?_ ?_ fun odd => ?_
  · rw [scaled]
    linarith
  · rw [scaled]
    linarith
  · obtain ⟨more, less⟩ := near.inside odd
    rw [scaled]
    constructor <;> linarith

/-- One exponent below that of the first double of a binade, a quotient in its interval and below it is
rounded up to the double. -/
theorem Near.rounds_up {exponent : Int} (above : leastExponent < exponent) (positive : 0 < denominator)
    (near : Near (2 ^ 52) exponent ((numerator : ℚ) / denominator))
    (under : (numerator : ℚ) / denominator < 2 ^ (exponent + 52)) :
    roundHalfEven (scaleRatio numerator denominator (exponent - 1)).1
      (scaleRatio numerator denominator (exponent - 1)).2 = 2 ^ 53 := by
  obtain ⟨scaledPositive, scaled⟩ := scaleRatio_eq numerator positive (exponent - 1)
  have double : (numerator : ℚ) / denominator / 2 ^ (exponent - 1) =
      2 * ((numerator : ℚ) / denominator / 2 ^ exponent) := by
    rw [zpow_sub_one₀ two_ne_zero]
    field_simp
  have quarter : quartersBelow (2 ^ 52) exponent = 1 := if_pos ⟨rfl, above⟩
  have lowest := near.low
  rw [quarter] at lowest
  push_cast at lowest
  have power : (2 : ℚ) ^ (exponent + 52) = 2 ^ 52 * 2 ^ exponent := two_zpow_add 52 exponent
  rw [power, ← div_lt_iff₀ (two_zpow_pos exponent)] at under
  refine roundHalfEven_of_near scaledPositive ?_ ?_ fun odd => absurd odd (by decide)
  · rw [scaled, double]
    push_cast
    linarith
  · rw [scaled, double]
    push_cast
    linarith

theorem ratioBits_of_near {significand magnitude : Nat} {exponent : Int} (filled : 0 < numerator)
    (positive : 0 < denominator) (has : HasMagnitude significand exponent magnitude)
    (near : Near significand exponent ((numerator : ℚ) / denominator)) :
    ratioBits numerator denominator = magnitude := by
  obtain ⟨binade, is, low, high⟩ := exists_binade filled positive
  have finite := has.finite
  have least := has.least
  unfold ratioBits
  dsimp only
  rw [if_neg (Nat.ne_of_gt filled), is]
  rcases near.binade has low high with same | ⟨previous, rfl, above⟩
  · rw [same, near.rounds positive, has.is]
    exact Nat.min_eq_left (has.is ▸ finite.le)
  · have under : (numerator : ℚ) / denominator < 2 ^ (exponent + 52) :=
      high.trans_le (zpow_le_zpow_right₀ one_le_two (by omega))
    rw [previous, near.rounds_up above positive under]
    have carried : 2 ^ 53 + (exponent - 1 - leastExponent).toNat * 2 ^ 52 = magnitude := by
      rw [has.is]
      omega
    rw [carried]
    exact Nat.min_eq_left finite.le

private theorem zpow_lt_zpow_of_nat {base other count more : Nat} (less : base ^ count < other ^ more) :
    (base : ℚ) ^ (count : Int) < (other : ℚ) ^ (more : Int) := by
  rw [zpow_natCast, zpow_natCast]
  exact_mod_cast less

private theorem two_pow_lt_ten_pow : (2 : ℚ) ^ (1024 : Int) < 10 ^ (311 : Int) :=
  @zpow_lt_zpow_of_nat 2 10 1024 311 (by decide +kernel)

private theorem ten_pow_lt_two_pow : (10 : ℚ) ^ (-330 : Int) < 2 ^ (-1075 : Int) := by
  have less : (2 : ℚ) ^ (1075 : Int) < 10 ^ (330 : Int) :=
    @zpow_lt_zpow_of_nat 2 10 1075 330 (by decide +kernel)
  rw [zpow_neg, zpow_neg]
  exact inv_strictAnti₀ (two_zpow_pos _) less

private theorem ten_pow_lt_of_near {significand magnitude : Nat} {exponent : Int} {value : ℚ}
    (positive : 0 < significand) (has : HasMagnitude significand exponent magnitude)
    (near : Near significand exponent value) : (10 : ℚ) ^ (-330 : Int) < value := by
  have least := has.least
  refine ten_pow_lt_two_pow.trans_le (le_trans (zpow_le_zpow_right₀ one_le_two ?_) (near.half_le positive))
  unfold leastExponent at least
  omega

private theorem lt_ten_pow_of_near {significand magnitude : Nat} {exponent : Int} {value : ℚ}
    (has : HasMagnitude significand exponent magnitude) (near : Near significand exponent value) :
    value < 10 ^ (311 : Int) := by
  refine (near.lt_next has).trans_le (le_trans (zpow_le_zpow_right₀ one_le_two ?_) two_pow_lt_ten_pow.le)
  have bound := has.exponent_le
  omega

private theorem ofDecimal_of_between {digits : Nat} {power : Int} (negative : Bool)
    (low : (10 : ℚ) ^ (-330 : Int) < digits * 10 ^ power)
    (high : (digits : ℚ) * 10 ^ power < 10 ^ (311 : Int)) :
    ∃ numerator denominator : Nat, 0 < numerator ∧ 0 < denominator ∧
      (digits : ℚ) * 10 ^ power = (numerator : ℚ) / denominator ∧
      ofDecimal negative digits power = ofRatio negative numerator denominator := by
  have ten : (0 : ℚ) < 10 ^ power := zpow_pos (by norm_num) power
  have filled : 0 < digits := by
    rcases Nat.eq_zero_or_pos digits with rfl | filled
    · rw [Nat.cast_zero, zero_mul] at low
      exact absurd low (not_lt.mpr (zpow_pos (by norm_num) _).le)
    · exact filled
  have one : (1 : ℚ) ≤ digits := by exact_mod_cast filled
  have notLarge : ¬ 310 < power := by
    intro large
    refine absurd high (not_lt.mpr ?_)
    calc (10 : ℚ) ^ (311 : Int) ≤ 10 ^ power := zpow_le_zpow_right₀ (by norm_num) (by omega)
      _ ≤ digits * 10 ^ power := le_mul_of_one_le_left ten.le one
  have notSmall : ¬ power + (digits.log2 : Int) + 1 < -330 := by
    intro small
    have digitsBelow : (digits : ℚ) ≤ 10 ^ ((digits.log2 : Int) + 1) := by
      refine (log2_bounds filled).2.le.trans ?_
      have nonneg : 0 ≤ (digits.log2 : Int) + 1 := by omega
      exact zpow_le_zpow_left₀ nonneg (by norm_num) (by norm_num)
    refine absurd low (not_lt.mpr ?_)
    calc (digits : ℚ) * 10 ^ power ≤ 10 ^ ((digits.log2 : Int) + 1) * 10 ^ power :=
          mul_le_mul_of_nonneg_right digitsBelow ten.le
      _ = 10 ^ ((digits.log2 : Int) + 1 + power) := (zpow_add₀ (by norm_num) _ _).symm
      _ ≤ 10 ^ (-330 : Int) := zpow_le_zpow_right₀ (by norm_num) (by omega)
  unfold ofDecimal
  rw [if_neg (Nat.ne_of_gt filled), if_neg notLarge, if_neg notSmall]
  split
  · rename_i wide
    obtain ⟨count, rfl⟩ := Int.eq_ofNat_of_zero_le wide
    refine ⟨_, _, Nat.mul_pos filled (Nat.pow_pos (by decide)), one_pos, ?_, rfl⟩
    rw [Int.toNat_natCast, zpow_natCast]
    push_cast
    rw [div_one]
  · rename_i narrow
    obtain ⟨count, rfl⟩ : ∃ count : Nat, power = -(count : Int) := ⟨(-power).toNat, by omega⟩
    refine ⟨_, _, filled, Nat.pow_pos (by decide), ?_, rfl⟩
    rw [neg_neg, Int.toNat_natCast, zpow_neg, zpow_natCast]
    push_cast
    rw [div_eq_mul_inv]

theorem ofDecimal_of_near {significand magnitude digits : Nat} {exponent power : Int} (negative : Bool)
    (positive : 0 < significand) (has : HasMagnitude significand exponent magnitude)
    (near : Near significand exponent (digits * 10 ^ power)) :
    ofDecimal negative digits power = ofSignedBits negative magnitude := by
  obtain ⟨numerator, denominator, filled, divides, equal, is⟩ :=
    ofDecimal_of_between negative (ten_pow_lt_of_near positive has near) (lt_ten_pow_of_near has near)
  rw [equal] at near
  rw [is, ofRatio, ratioBits_of_near filled divides has near]

end Quotients

end ScreenStudio.Number
