/- digest: The positional digits of a decimal and the value they are read with. -/

import ScreenStudio.Proofs.Number.Digits
import ScreenStudio.Proofs.Text.Pieces

set_option autoImplicit false
set_option relaxedAutoImplicit false

namespace ScreenStudio.Number

/-- The digits before the point: there is one, and a zero leads no others. -/
def IsWhole (digits : List Char) : Prop :=
  ∃ first more, digits = first :: more ∧ (first = '0' → more = []) ∧ ∀ c ∈ digits, isDigit c = true

section Runs

theorem isDigit_of_mem_zeros {count : Nat} {c : Char} (member : c ∈ List.replicate count '0') :
    isDigit c = true := by
  rw [(List.mem_replicate.mp member).2]
  rfl

theorem digitsFrom_append (start : Nat) (digits more : List Char) :
    digitsFrom start (digits ++ more) = digitsFrom (digitsFrom start digits) more := List.foldl_append

theorem digitsFrom_zeros (start count : Nat) :
    digitsFrom start (List.replicate count '0') = start * 10 ^ count := by
  induction count generalizing start with
  | zero => exact (Nat.mul_one start).symm
  | succ count ih =>
    have step : digitsFrom start (List.replicate (count + 1) '0') =
        digitsFrom (start * 10) (List.replicate count '0') := rfl
    rw [step, ih, Nat.mul_assoc, Nat.pow_succ, Nat.mul_comm 10]

theorem isDigit_of_mem_zero : ∀ c ∈ ['0'], isDigit c = true := List.forall_mem_singleton.mpr rfl

theorem isWhole_zero : IsWhole ['0'] := ⟨'0', [], rfl, fun _ => rfl, isDigit_of_mem_zero⟩

theorem isWhole_digitChars (value : Nat) : IsWhole (digitChars value) := by
  rcases Nat.eq_zero_or_pos value with rfl | positive
  · rw [digitChars_zero]
    exact isWhole_zero
  · obtain ⟨first, more, digits, noZero⟩ := digitChars_head positive
    exact ⟨first, more, digits, fun zero => absurd zero noZero, fun _ member => isDigit_digitChars member⟩

end Runs

section Layouts

variable {decimal : Decimal}

theorem positional_whole (positive : 0 < decimal.digits) (wide : 0 ≤ decimal.exponent) :
    IsWhole (positional decimal) ∧
      digitsFrom 0 (positional decimal) = decimal.digits * 10 ^ decimal.exponent.toNat := by
  have form : positional decimal =
      digitChars decimal.digits ++ List.replicate decimal.exponent.toNat '0' := if_pos wide
  rw [form]
  constructor
  · obtain ⟨first, more, digits, noZero⟩ := digitChars_head positive
    refine ⟨first, more ++ List.replicate decimal.exponent.toNat '0', by rw [digits]; rfl,
      fun zero => absurd zero noZero, fun c member => ?_⟩
    rcases List.mem_append.mp member with digit | zero
    · exact isDigit_digitChars digit
    · exact isDigit_of_mem_zeros zero
  · rw [digitsFrom_append, digitsFrom_digitChars, digitsFrom_zeros]

/-- With places behind the point a decimal is written as digits around the point. All together spell the
digits of the decimal. -/
theorem positional_point (positive : 0 < decimal.digits) (narrow : decimal.exponent < 0) :
    ∃ whole fraction, positional decimal = whole ++ '.' :: fraction ∧ IsWhole whole ∧ fraction ≠ [] ∧
      (∀ c ∈ fraction, isDigit c = true) ∧ digitsFrom 0 (whole ++ fraction) = decimal.digits ∧
      decimal.exponent = -(fraction.length : Int) := by
  have all : ∀ c ∈ digitChars decimal.digits, isDigit c = true := fun c member => isDigit_digitChars member
  have value := digitsFrom_digitChars decimal.digits
  obtain ⟨first, more, digits, noZero⟩ := digitChars_head positive
  unfold positional
  dsimp only
  rw [if_neg (by omega)]
  split
  · rename_i inside
    refine ⟨_, _, rfl, ?_, ?_, fun c member => all c (List.mem_of_mem_drop member), ?_, ?_⟩
    · obtain ⟨count, length⟩ : ∃ count,
          (digitChars decimal.digits).length - (-decimal.exponent).toNat = count + 1 :=
        ⟨(digitChars decimal.digits).length - (-decimal.exponent).toNat - 1, by omega⟩
      refine ⟨first, more.take count, ?_, fun zero => absurd zero noZero,
        fun c member => all c (List.mem_of_mem_take member)⟩
      rw [length, digits, List.take_succ_cons]
    · intro none
      have short := List.drop_eq_nil_iff.mp none
      omega
    · rw [List.take_append_drop]
      exact value
    · rw [List.length_drop]
      omega
  · rename_i outside
    refine ⟨['0'], _, rfl, isWhole_zero, ?_, fun c member => ?_, ?_, ?_⟩
    · intro none
      exact digitChars_ne_nil _ (List.append_eq_nil_iff.mp none).2
    · rcases List.mem_append.mp member with zero | digit
      · exact isDigit_of_mem_zeros zero
      · exact all c digit
    · rw [digitsFrom_append, digitsFrom_append, digitsFrom_zeros]
      show digitsFrom (0 * 10 ^ _) _ = _
      rw [Nat.zero_mul]
      exact value
    · rw [List.length_append, List.length_replicate]
      omega

end Layouts

section Reading

variable {whole fraction : List Char}

theorem ofPlainDigits_whole (all : ∀ c ∈ whole, isDigit c = true) :
    ofPlainDigits whole = ofDecimal false (digitsFrom 0 whole) 0 := by
  obtain ⟨taken, dropped⟩ := @Text.run_append isDigit whole [] all fun _ none => by cases none
  rw [List.append_nil] at taken dropped
  unfold ofPlainDigits ofDigits
  dsimp only
  rw [taken, dropped]
  rfl

/-- Digits around a point are read as all of them, with a power of ten for each one behind it. -/
theorem ofPlainDigits_point (all : ∀ c ∈ whole, isDigit c = true) :
    ofPlainDigits (whole ++ '.' :: fraction) =
      ofDecimal false (digitsFrom 0 (whole ++ fraction)) (-(fraction.length : Int)) := by
  obtain ⟨taken, dropped⟩ := @Text.run_append isDigit whole ('.' :: fraction) all fun _ point => by
    cases point
    rfl
  unfold ofPlainDigits ofDigits
  dsimp only
  rw [taken, dropped, digitsFrom_append, Int.zero_sub]
  rfl

end Reading

end ScreenStudio.Number
