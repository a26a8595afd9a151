/- digest: Integers below 2 ^ 53 as doubles and back. -/

import Mathlib
import ScreenStudio.Proofs.Number.Bits

set_option autoImplicit false
set_option relaxedAutoImplicit false

namespace ScreenStudio.Number

section Shifted

variable {count shift : Nat}

theorem shift_le (positive : 0 < count) (high : count * 2 ^ shift < 2 ^ 53) : shift ≤ 52 := by
  have wide : (2 ^ shift : Nat) < 2 ^ 53 :=
    Nat.lt_of_le_of_lt (Nat.le_mul_of_pos_left _ positive) high
  exact Nat.le_of_lt_succ ((Nat.pow_lt_pow_iff_right (Nat.lt_succ_self 1)).mp wide)

theorem exists_shift (positive : 0 < count) (small : count < 2 ^ 53) :
    ∃ shift, 2 ^ 52 ≤ count * 2 ^ shift ∧ count * 2 ^ shift < 2 ^ 53 := by
  have nonzero : count ≠ 0 := Nat.ne_of_gt positive
  have log : count.log2 < 53 := (Nat.log2_lt nonzero).mpr small
  obtain ⟨least, most⟩ := (Nat.log2_eq_iff nonzero).mp (rfl : count.log2 = count.log2)
  have wide := Nat.mul_le_mul_right (2 ^ (52 - count.log2)) least
  have narrow := Nat.mul_lt_mul_of_pos_right most (Nat.two_pow_pos (52 - count.log2))
  rw [← Nat.pow_add] at wide narrow
  refine ⟨52 - count.log2, ?_, ?_⟩
  · rwa [Nat.add_sub_cancel' (by omega)] at wide
  · rwa [show count.log2 + 1 + (52 - count.log2) = 53 by omega] at narrow

theorem log2_of_shifted (low : 2 ^ 52 ≤ count * 2 ^ shift) (high : count * 2 ^ shift < 2 ^ 53) :
    count.log2 + shift = 52 := by
  have positive : 0 < count := Nat.pos_of_ne_zero (by rintro rfl; omega)
  have few := shift_le positive high
  have half : (2 ^ (52 - shift) * 2 ^ shift : Nat) = 2 ^ 52 := by
    rw [← Nat.pow_add, Nat.sub_add_cancel few]
  have full : (2 ^ (52 - shift + 1) * 2 ^ shift : Nat) = 2 ^ 53 := by
    rw [← Nat.pow_add, show 52 - shift + 1 + shift = 53 by omega]
  have log : count.log2 = 52 - shift := by
    refine (Nat.log2_eq_iff (Nat.ne_of_gt positive)).mpr ⟨?_, ?_⟩
    · exact Nat.le_of_mul_le_mul_right (half ▸ low) (Nat.two_pow_pos shift)
    · exact Nat.lt_of_mul_lt_mul_right (full ▸ high)
  omega

theorem scaleRatio_neg (count shift : Nat) :
    scaleRatio count 1 (-(shift : Int)) = (count * 2 ^ shift, 1) := by
  unfold scaleRatio
  cases shift with
  | zero => rw [if_pos (by omega), Nat.pow_zero, Nat.mul_one]; rfl
  | succ shift => rw [if_neg (by omega), Int.neg_neg, Int.toNat_natCast]

theorem ratioBits_of_shifted (low : 2 ^ 52 ≤ count * 2 ^ shift) (high : count * 2 ^ shift < 2 ^ 53) :
    ratioBits count 1 = count * 2 ^ shift + (1074 - shift) * 2 ^ 52 := by
  have nonzero : count ≠ 0 := by
    rintro rfl
    omega
  have few := shift_le (Nat.pos_of_ne_zero nonzero) high
  have log := log2_of_shifted low high
  have exponent : ratioExponent count 1 = -(shift : Int) := by
    have guess : (count.log2 : Int) - ((1 : Nat).log2 : Int) - 53 = -((shift + 1 : Nat) : Int) := by
      rw [show (1 : Nat).log2 = 0 from rfl]
      omega
    have wide : ¬ count * 2 ^ (shift + 1) < 2 ^ 53 := by
      rw [Nat.pow_succ, ← Nat.mul_assoc]
      omega
    unfold ratioExponent leastExponent
    dsimp only
    rw [guess, scaleRatio_neg]
    dsimp only
    rw [Nat.div_one, if_neg wide]
    omega
  have exact : roundHalfEven (count * 2 ^ shift) 1 = count * 2 ^ shift := by
    unfold roundHalfEven
    dsimp only
    rw [Nat.mod_one, Nat.div_one]
    rfl
  unfold ratioBits
  dsimp only
  rw [if_neg nonzero, exponent, scaleRatio_neg]
  dsimp only
  rw [exact]
  unfold leastExponent
  omega

end Shifted

section Integers

variable {value : Int}

theorem parts_ofInt {shift : Nat} (low : 2 ^ 52 ≤ value.natAbs * 2 ^ shift)
    (high : value.natAbs * 2 ^ shift < 2 ^ 53) :
    parts (ofInt value) = .finite (decide (value < 0)) (value.natAbs * 2 ^ shift) (-(shift : Int)) := by
  have few := shift_le (Nat.pos_of_ne_zero (by intro none; rw [none] at low; omega)) high
  unfold ofInt ofRatio
  rw [ratioBits_of_shifted low high, parts_ofSignedBits (by omega), if_neg (by omega)]
  have significand : 2 ^ 52 + (value.natAbs * 2 ^ shift + (1074 - shift) * 2 ^ 52) % 2 ^ 52 =
      value.natAbs * 2 ^ shift := by omega
  have exponent : (((value.natAbs * 2 ^ shift + (1074 - shift) * 2 ^ 52) / 2 ^ 52 : Nat) : Int) - 1075 =
      -(shift : Int) := by omega
  rw [significand, exponent]

theorem toInt?_of_shifted {x : Float} {negative : Bool} {count shift : Nat}
    (is : parts x = .finite negative (count * 2 ^ shift) (-(shift : Int))) :
    toInt? x = some (if negative then -(count : Int) else (count : Int)) := by
  unfold toInt?
  rw [is]
  dsimp only
  cases shift with
  | zero =>
    rw [if_pos (by omega), Nat.pow_zero, Nat.mul_one]
    exact congrArg (fun scaled : Nat => some (if negative then -(scaled : Int) else (scaled : Int)))
      (Nat.mul_one count)
  | succ shift =>
    rw [if_neg (by omega), Int.neg_neg, Int.toNat_natCast, Nat.mul_mod_left, if_pos rfl,
      Nat.mul_div_cancel _ (Nat.two_pow_pos _)]

theorem toInt?_ofInt (small : value.natAbs < 2 ^ 53) : toInt? (ofInt value) = some value := by
  rcases Nat.eq_zero_or_pos value.natAbs with none | positive
  · rw [Int.natAbs_eq_zero.mp none]
    decide +kernel
  · obtain ⟨shift, low, high⟩ := exists_shift positive small
    rw [toInt?_of_shifted (parts_ofInt low high)]
    simp only [decide_eq_true_eq]
    split <;> congr 1 <;> omega

/-- A double that equals an integer has the sign of the integer, and its magnitude shifted to either side. -/
theorem parts_of_toInt? {x : Float} (is : toInt? x = some value) :
    ∃ negative significand exponent, parts x = .finite negative significand exponent ∧
      value = (if negative then -(value.natAbs : Int) else (value.natAbs : Int)) ∧
      (0 ≤ exponent → value.natAbs = significand * 2 ^ exponent.toNat) ∧
      (exponent ≤ 0 → significand = value.natAbs * 2 ^ (-exponent).toNat) := by
  have signed : ∀ (negative : Bool) (magnitude : Nat),
      some (if negative then -(magnitude : Int) else (magnitude : Int)) = some value →
      value.natAbs = magnitude ∧
        value = (if negative then -(value.natAbs : Int) else (value.natAbs : Int)) := by
    intro negative magnitude is
    cases is
    cases negative <;> simp
  unfold toInt? at is
  cases form : parts x with
  | nan => rw [form] at is; cases is
  | infinite negative => rw [form] at is; cases is
  | finite negative significand exponent =>
    rw [form] at is
    dsimp only at is
    refine ⟨negative, significand, exponent, rfl, ?_⟩
    split at is
    · rename_i right
      obtain ⟨magnitude, sign⟩ := signed _ _ is
      refine ⟨sign, fun _ => magnitude, fun left => ?_⟩
      rw [magnitude, Int.le_antisymm left right]
      exact ((Nat.mul_one _).trans (Nat.mul_one _)).symm
    · rename_i left
      split at is
      · rename_i whole
        obtain ⟨magnitude, sign⟩ := signed _ _ is
        refine ⟨sign, fun right => absurd right left, fun _ => ?_⟩
        rw [magnitude, Nat.div_mul_cancel (Nat.dvd_of_mod_eq_zero whole)]
      · cases is

theorem isFinite_of_toInt? {x : Float} (is : toInt? x = some value) : isFinite x = true := by
  obtain ⟨negative, significand, exponent, form, _⟩ := parts_of_toInt? is
  unfold isFinite
  rw [form]

/-- A double that equals an integer below `2 ^ 53` other than zero is the double of the integer. -/
theorem ofInt_of_toInt? {x : Float} (is : toInt? x = some value) (nonzero : value ≠ 0)
    (small : value.natAbs < 2 ^ 53) : ofInt value = x := by
  obtain ⟨negative, magnitude, finite, rfl⟩ := exists_ofSignedBits (isFinite_of_toInt? is)
  obtain ⟨sign, significand, exponent, form, signed, right, left⟩ := parts_of_toInt? is
  rw [parts_ofSignedBits finite] at form
  split at form
  · rename_i subnormal
    cases form
    have least : 2 ^ 52 ≤ magnitude := by
      rw [left (by decide)]
      exact Nat.le_trans (Nat.pow_le_pow_right Nat.two_pos (by decide))
        (Nat.le_mul_of_pos_left _ (by omega))
    exact absurd subnormal (Nat.not_lt.mpr least)
  · rename_i normal
    cases form
    rcases Nat.lt_or_ge 1075 (magnitude / 2 ^ 52) with far | near
    · have scaled := right (by omega)
      have twice : (2 ^ 1 : Nat) ≤ 2 ^ (((magnitude / 2 ^ 52 : Nat) : Int) - 1075).toNat :=
        Nat.pow_le_pow_right Nat.two_pos (by omega)
      have least := Nat.mul_le_mul (Nat.le_add_right (2 ^ 52) (magnitude % 2 ^ 52)) twice
      omega
    · have shifted := left (by omega)
      rw [show (-(((magnitude / 2 ^ 52 : Nat) : Int) - 1075)).toNat = 1075 - magnitude / 2 ^ 52 by omega]
        at shifted
      unfold ofInt ofRatio
      rw [@ratioBits_of_shifted _ (1075 - magnitude / 2 ^ 52) (by omega) (by omega), ← shifted]
      congr 1
      · cases negative
        · exact decide_eq_false (by rw [if_neg (by decide)] at signed; omega)
        · exact decide_eq_true (by rw [if_pos rfl] at signed; omega)
      · omega

theorem eq_zero_of_toInt? {x : Float} (is : toInt? x = some 0) : x = 0 ∨ x = -0 := by
  obtain ⟨negative, magnitude, finite, rfl⟩ := exists_ofSignedBits (isFinite_of_toInt? is)
  obtain ⟨sign, significand, exponent, form, _, right, left⟩ := parts_of_toInt? is
  have none : significand = 0 := by
    rcases Int.le_total 0 exponent with wide | narrow
    · exact (Nat.mul_eq_zero.mp (right wide).symm).resolve_right (Nat.ne_of_gt (Nat.two_pow_pos _))
    · exact (left narrow).trans (Nat.zero_mul _)
  rw [parts_ofSignedBits finite] at form
  split at form
  · cases form
    rw [none]
    cases negative
    · exact .inl (by decide +kernel)
    · exact .inr (by decide +kernel)
  · cases form
    omega

end Integers

end ScreenStudio.Number
