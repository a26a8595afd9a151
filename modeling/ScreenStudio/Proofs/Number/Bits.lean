/- digest: A finite double is its sign and its magnitude bits. -/

import Mathlib
import ScreenStudio.Number.Binary

set_option autoImplicit false
set_option relaxedAutoImplicit false

namespace ScreenStudio.Number

section Fields

open Float.Model.UnpackedFloat

variable {bits : BitVec 64}

theorem toNat_unpackExponent : (@unpackExponent .binary64 bits).toNat = bits.toNat / 2 ^ 52 % 2 ^ 11 := by
  rw [unpackExponent_def, BitVec.extractLsb'_toNat, Nat.shiftRight_eq_div_pow]

theorem toNat_unpackMantissa : (@unpackMantissa .binary64 bits).toNat = bits.toNat % 2 ^ 52 := by
  rw [unpackMantissa_def, BitVec.extractLsb'_toNat, Nat.shiftRight_eq_div_pow]
  exact congrArg (· % 2 ^ 52) (Nat.div_one bits.toNat)

theorem toNat_unpackSign : (@unpackSign .binary64 bits).toNat = bits.toNat / 2 ^ 63 := by
  have bound := bits.isLt
  rw [unpackSign_def, BitVec.extractLsb'_toNat, Nat.shiftRight_eq_div_pow]
  show bits.toNat / 2 ^ 63 % 2 ^ 1 = bits.toNat / 2 ^ 63
  omega

theorem isNaNBits_of_ordinary (ordinary : bits.toNat / 2 ^ 52 % 2 ^ 11 ≠ 2047) :
    ¬ @isNaNBits .binary64 bits := by
  unfold isNaNBits
  rw [decide_eq_true_iff]
  rintro ⟨special, _⟩
  rw [← toNat_unpackExponent, special] at ordinary
  exact ordinary rfl

open Float.Model in
theorem neg_unpack_packComponents {spec : Format} (sign : Sign) (exponent : BitVec spec.exponentBits)
    (mantissa : BitVec spec.mantissaBitsWithoutImplicit) :
    (UnpackedFloat.unpack spec (packComponents spec sign exponent mantissa)).neg =
      UnpackedFloat.unpack spec (packComponents spec (-sign) exponent mantissa) := by
  unfold UnpackedFloat.unpack
  dsimp only
  simp only [unpackExponent_packComponents, unpackMantissa_packComponents, unpackSign_packComponents,
    Sign.ofBitVec_toBitVec]
  split
  · split <;> rfl
  · split
    · split <;> rfl
    · rfl

/-- The negative of what bits stand for is what the same bits with the other sign stand for. -/
theorem pack_neg_unpack {other : BitVec 64} (plain : bits.toNat < 2 ^ 63)
    (same : other.toNat = bits.toNat + 2 ^ 63) (ordinary : other.toNat / 2 ^ 52 % 2 ^ 11 ≠ 2047) :
    pack .binary64 (unpack .binary64 bits).neg = other := by
  have exponent : @unpackExponent .binary64 bits = @unpackExponent .binary64 other := by
    refine BitVec.eq_of_toNat_eq ?_
    rw [toNat_unpackExponent, toNat_unpackExponent, same]
    omega
  have mantissa : @unpackMantissa .binary64 bits = @unpackMantissa .binary64 other := by
    refine BitVec.eq_of_toNat_eq ?_
    rw [toNat_unpackMantissa, toNat_unpackMantissa, same]
    omega
  have positive : @unpackSign .binary64 bits = 0#1 := by
    refine BitVec.eq_of_toNat_eq ?_
    rw [toNat_unpackSign]
    exact Nat.div_eq_of_lt plain
  have negative : @unpackSign .binary64 other = 1#1 := by
    refine BitVec.eq_of_toNat_eq ?_
    rw [toNat_unpackSign, same]
    show (bits.toNat + 2 ^ 63) / 2 ^ 63 = 1
    omega
  have sign : -Sign.ofBitVec (@unpackSign .binary64 bits) = Sign.ofBitVec (@unpackSign .binary64 other) := by
    rw [positive, negative]
    rfl
  rw [← @packComponents_unpackSign_unpackExponent_unpackMantissa .binary64 bits, neg_unpack_packComponents,
    exponent, mantissa, sign, packComponents_unpackSign_unpackExponent_unpackMantissa, pack_unpack,
    if_neg (isNaNBits_of_ordinary ordinary)]

end Fields

section Doubles

theorem toBits_ofBits {bits : UInt64} (ordinary : bits.toNat / 2 ^ 52 % 2 ^ 11 ≠ 2047) :
    (Float.ofBits bits).toBits = bits := by
  have packed := @Float.Model.UnpackedFloat.pack_unpack .binary64 bits.toBitVec
  rw [if_neg (isNaNBits_of_ordinary ordinary)] at packed
  exact UInt64.toBitVec_inj.mp packed

variable {negative : Bool} {magnitude : Nat}

theorem toBits_ofSignedBits (finite : magnitude < 2047 * 2 ^ 52) :
    (ofSignedBits negative magnitude).toBits.toNat = magnitude + if negative then 2 ^ 63 else 0 := by
  have whole : (UInt64.ofNat (magnitude + if negative then 2 ^ 63 else 0)).toNat =
      magnitude + if negative then 2 ^ 63 else 0 := by
    rw [UInt64.toNat_ofNat']
    split <;> omega
  have ordinary : (magnitude + if negative then 2 ^ 63 else 0) / 2 ^ 52 % 2 ^ 11 ≠ 2047 := by
    split <;> omega
  unfold ofSignedBits
  rw [toBits_ofBits (whole.symm ▸ ordinary), whole]

theorem parts_ofSignedBits (finite : magnitude < 2047 * 2 ^ 52) :
    parts (ofSignedBits negative magnitude) =
      if magnitude < 2 ^ 52 then .finite negative magnitude leastExponent
      else .finite negative (2 ^ 52 + magnitude % 2 ^ 52) ((magnitude / 2 ^ 52 : Nat) - 1075) := by
  have biased : (magnitude + if negative then 2 ^ 63 else 0) / 2 ^ 52 % 2 ^ 11 = magnitude / 2 ^ 52 := by
    split <;> omega
  have fraction : (magnitude + if negative then 2 ^ 63 else 0) % 2 ^ 52 = magnitude % 2 ^ 52 := by
    split <;> omega
  have sign : decide (2 ^ 63 ≤ magnitude + if negative then 2 ^ 63 else 0) = negative := by
    cases negative with
    | true => exact decide_eq_true (Nat.le_add_left _ _)
    | false => exact decide_eq_false (by simp only [Bool.false_eq_true, if_false]; omega)
  unfold parts
  dsimp only
  rw [toBits_ofSignedBits finite, biased, fraction, sign, if_neg (by omega)]
  by_cases subnormal : magnitude < 2 ^ 52
  · rw [if_pos (Nat.div_eq_of_lt subnormal), if_pos subnormal, Nat.mod_eq_of_lt subnormal]
  · rw [if_neg (by omega), if_neg subnormal]

theorem parts_of_isFinite {x : Float} (finite : isFinite x = true) :
    ∃ negative significand exponent, parts x = .finite negative significand exponent := by
  unfold isFinite at finite
  split at finite
  · rename_i form
    exact ⟨_, _, _, form⟩
  · cases finite

theorem exists_ofSignedBits {x : Float} (finite : isFinite x = true) :
    ∃ (negative : Bool) (magnitude : Nat), magnitude < 2047 * 2 ^ 52 ∧
      x = ofSignedBits negative magnitude := by
  have ordinary : x.toBits.toNat / 2 ^ 52 % 2 ^ 11 ≠ 2047 := by
    intro special
    unfold isFinite parts at finite
    dsimp only at finite
    rw [if_pos special] at finite
    split at finite
    · rename_i parts
      split at parts <;> cases parts
    · cases finite
  have bound := x.toBits.toNat_lt
  have back : ∀ (negative : Bool) (magnitude : Nat),
      x.toBits.toNat = (magnitude + if negative then 2 ^ 63 else 0) →
      x = ofSignedBits negative magnitude := by
    intro negative magnitude is
    unfold ofSignedBits
    rw [← is, UInt64.ofNat_toNat, Float.ofBits_toBits]
  rcases Nat.lt_or_ge x.toBits.toNat (2 ^ 63) with positive | negative
  · exact ⟨false, x.toBits.toNat, by omega, back _ _ rfl⟩
  · exact ⟨true, x.toBits.toNat - 2 ^ 63, by omega, back _ _ (by rw [if_pos rfl]; omega)⟩

theorem neg_ofSignedBits (finite : magnitude < 2047 * 2 ^ 52) :
    -(ofSignedBits false magnitude) = ofSignedBits true magnitude := by
  have plain : (ofSignedBits false magnitude).toBits.toNat = magnitude := toBits_ofSignedBits finite
  have signed : (ofSignedBits true magnitude).toBits.toNat = magnitude + 2 ^ 63 := toBits_ofSignedBits finite
  refine Float.toBits_inj.mp (UInt64.toBitVec_inj.mp (pack_neg_unpack ?_ ?_ ?_))
  · exact plain.trans_lt (by omega)
  · exact signed.trans (congrArg (· + 2 ^ 63) plain.symm)
  · rw [UInt64.toNat_toBitVec, signed]
    omega

end Doubles

end ScreenStudio.Number
