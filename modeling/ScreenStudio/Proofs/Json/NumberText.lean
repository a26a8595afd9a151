/- digest: The text of a written number is read as one number, whatever stands behind it. -/

import ScreenStudio.Json.Numeral
import ScreenStudio.Json.Writer
import ScreenStudio.Proofs.Number.Positional

set_option autoImplicit false
set_option relaxedAutoImplicit false

namespace ScreenStudio.Json

namespace Numeral

/-- The characters behind the digits before the point. -/
def tail (numeral : Numeral) : List Char :=
  (numeral.fraction.elim [] ('.' :: ·)) ++
    numeral.exponent.elim [] (fun power => 'e' :: (if power.1 then '-' else '+') :: power.2)

/-- The characters of a number. -/
def chars (numeral : Numeral) : List Char :=
  (if numeral.negative then ['-'] else []) ++ (numeral.whole ++ numeral.tail)

/-- There are digits where digits have to be, and no zero leads other digits. -/
structure Valid (numeral : Numeral) : Prop where
  whole : ∃ first more, numeral.whole = first :: more ∧ (first = '0' → more = []) ∧
    ∀ c ∈ numeral.whole, Number.isDigit c = true
  fraction : ∀ digits, numeral.fraction = some digits →
    digits ≠ [] ∧ ∀ c ∈ digits, Number.isDigit c = true
  exponent : ∀ down digits, numeral.exponent = some (down, digits) →
    digits ≠ [] ∧ ∀ c ∈ digits, Number.isDigit c = true

end Numeral

/-- What stands behind a number does not continue it. -/
def EndsNumber (rest : List Char) : Prop :=
  ∀ c more, rest = c :: more → Number.isDigit c = false ∧ c ≠ '.' ∧ c ≠ 'e' ∧ c ≠ 'E'

variable {ended : Problem}

theorem endsNumber_nil : EndsNumber [] := by
  intro c more equal
  cases equal

theorem endsNumber_cons {c : Char} {rest : List Char}
    (other : Number.isDigit c = false ∧ c ≠ '.' ∧ c ≠ 'e' ∧ c ≠ 'E') : EndsNumber (c :: rest) := by
  intro d more equal
  cases equal
  exact other

/-- The head of a list is no digit. -/
private def NoDigitAhead (cs : List Char) : Prop :=
  ∀ c more, cs = c :: more → Number.isDigit c = false

private theorem takeWhile_digits {digits rest : List Char}
    (all : ∀ c ∈ digits, Number.isDigit c = true) (ahead : NoDigitAhead rest) :
    (digits ++ rest).takeWhile Number.isDigit = digits := by
  rw [List.takeWhile_append_of_pos all]
  cases rest with
  | nil => simp
  | cons c more => simp [ahead c more rfl]

private theorem dropWhile_digits {digits rest : List Char}
    (all : ∀ c ∈ digits, Number.isDigit c = true) (ahead : NoDigitAhead rest) :
    (digits ++ rest).dropWhile Number.isDigit = rest := by
  rw [List.dropWhile_append_of_pos all]
  cases rest with
  | nil => rfl
  | cons c more => simp [ahead c more rfl]

private theorem EndsNumber.noDigitAhead {rest : List Char} (ends : EndsNumber rest) :
    NoDigitAhead rest :=
  fun c more equal => (ends c more equal).1

private theorem exponent_chars (ended : Problem) {exponent : Option (Bool × List Char)} {rest : List Char}
    (valid : ∀ down digits, exponent = some (down, digits) →
      digits ≠ [] ∧ ∀ c ∈ digits, Number.isDigit c = true) (ends : EndsNumber rest) :
    Json.exponent ended (exponent.elim [] (fun power => 'e' :: (if power.1 then '-' else '+') :: power.2)
      ++ rest) = .ok (exponent, rest) := by
  cases exponent with
  | none =>
    cases rest with
    | nil => rfl
    | cons c more =>
      obtain ⟨_, _, small, capital⟩ := ends c more rfl
      simp [Json.exponent, small, capital]
  | some power =>
    obtain ⟨down, digits⟩ := power
    obtain ⟨nonempty, all⟩ := valid down digits rfl
    have taken := takeWhile_digits all ends.noDigitAhead
    have dropped := dropWhile_digits all ends.noDigitAhead
    cases down <;> simp [Json.exponent, taken, dropped, nonempty]

private theorem fraction_chars {fraction : Option (List Char)} {rest : List Char}
    (valid : ∀ digits, fraction = some digits →
      digits ≠ [] ∧ ∀ c ∈ digits, Number.isDigit c = true)
    (ahead : NoDigitAhead rest) (noPoint : ∀ more, rest ≠ '.' :: more) :
    Json.fraction ended (fraction.elim [] ('.' :: ·) ++ rest) = .ok (fraction, rest) := by
  cases fraction with
  | none =>
    simp only [Option.elim_none, List.nil_append]
    cases rest with
    | nil => rfl
    | cons c more =>
      unfold Json.fraction
      split
      · rename_i digits equal
        exact absurd equal (noPoint digits)
      · rfl
  | some digits =>
    obtain ⟨nonempty, all⟩ := valid digits rfl
    have taken := takeWhile_digits all ahead
    have dropped := dropWhile_digits all ahead
    simp [Json.fraction, taken, dropped, nonempty]

private theorem exponent_ahead {exponent : Option (Bool × List Char)} {rest : List Char}
    (ends : EndsNumber rest) {c : Char} {more : List Char}
    (equal : exponent.elim [] (fun power => 'e' :: (if power.1 then '-' else '+') :: power.2)
      ++ rest = c :: more) : Number.isDigit c = false ∧ c ≠ '.' := by
  cases exponent with
  | none =>
    have other := ends c more equal
    exact ⟨other.1, other.2.1⟩
  | some power =>
    simp only [Option.elim_some, List.cons_append, List.cons.injEq] at equal
    obtain ⟨rfl, _⟩ := equal
    exact ⟨by decide, by decide⟩

private theorem tail_ahead (numeral : Numeral) {rest : List Char} (ends : EndsNumber rest) :
    NoDigitAhead (numeral.tail ++ rest) := by
  intro c more equal
  unfold Numeral.tail at equal
  cases fraction : numeral.fraction with
  | none =>
    simp only [fraction, Option.elim_none, List.nil_append] at equal
    exact (exponent_ahead ends equal).1
  | some digits =>
    simp only [fraction, Option.elim_some, List.cons_append, List.cons.injEq] at equal
    obtain ⟨rfl, _⟩ := equal
    decide

private theorem unsigned_chars (ended : Problem) {numeral : Numeral} (valid : numeral.Valid) {rest : List Char}
    (ends : EndsNumber rest) (negative : Bool) :
    unsigned ended negative (numeral.whole ++ (numeral.tail ++ rest)) =
      .ok ({ numeral with negative := negative }, rest) := by
  obtain ⟨first, more, whole, zero, all⟩ := valid.whole
  have taken := takeWhile_digits all (tail_ahead numeral ends)
  have dropped := dropWhile_digits all (tail_ahead numeral ends)
  have fraction : Json.fraction ended (numeral.tail ++ rest) = .ok (numeral.fraction,
      numeral.exponent.elim [] (fun power => 'e' :: (if power.1 then '-' else '+') :: power.2)
        ++ rest) := by
    rw [Numeral.tail, List.append_assoc]
    refine fraction_chars valid.fraction (fun c more equal => (exponent_ahead ends equal).1) ?_
    intro more equal
    exact (exponent_ahead ends equal).2 rfl
  have exponent := exponent_chars ended valid.exponent ends
  unfold unsigned
  dsimp only
  rw [taken, dropped]
  split
  · rename_i nothing
    rw [whole] at nothing
    cases nothing
  · rename_i second others equal
    rw [whole] at equal
    obtain ⟨rfl, rfl⟩ := List.cons.inj equal
    exact absurd (zero rfl) (by simp)
  · rw [fraction]
    simp only [Read.andThen, exponent, Read.mapValue]

private theorem numeral_of_ne (ended : Problem) {first : Char} (noSign : first ≠ '-') (body : List Char) :
    numeral ended (first :: body) = unsigned ended false (first :: body) := by
  unfold numeral
  split
  · rename_i more shape
    exact absurd (List.cons.inj shape).1 noSign
  · rfl

theorem numeral_chars {written : Numeral} (valid : written.Valid) {rest : List Char}
    (ends : EndsNumber rest) : numeral ended (written.chars ++ rest) = .ok (written, rest) := by
  obtain ⟨negative, whole, fraction, exponent⟩ := written
  have behindSign := unsigned_chars ended valid ends negative
  obtain ⟨first, more, shape, _, all⟩ := valid.whole
  rw [Numeral.chars, List.append_assoc, List.append_assoc]
  cases negative with
  | true => exact behindSign
  | false =>
    have noSign : first ≠ '-' := by
      rintro rfl
      exact absurd (all '-' (by rw [shape]; simp)) (by decide)
    dsimp only at shape behindSign ⊢
    rw [shape] at behindSign ⊢
    rw [← behindSign]
    exact numeral_of_ne ended noSign _

theorem number_chars {written : Numeral} (valid : written.Valid) {rest : List Char}
    (ends : EndsNumber rest) :
    (number (written.chars ++ rest)).toOption = written.document?.map (·, rest) := by
  rw [number, numeral_chars valid ends, Read.andThen]
  cases written.document? <;> rfl

theorem chars_head {written : Numeral} (valid : written.Valid) :
    ∃ c more, written.chars = c :: more ∧ startsNumber c = true := by
  obtain ⟨first, more, shape, _, all⟩ := valid.whole
  have digit : Number.isDigit first = true := all first (by rw [shape]; exact List.mem_cons_self)
  rw [Numeral.chars, shape]
  cases written.negative with
  | true => exact ⟨_, _, rfl, by decide⟩
  | false => exact ⟨_, _, rfl, by rw [startsNumber, digit, Bool.or_true]⟩

private theorem appendDigits_of_le {start : Nat} {digits : List Char}
    (fits : Number.digitsFrom start digits ≤ greatestWord) :
    appendDigits start digits = (Number.digitsFrom start digits, []) := by
  induction digits generalizing start with
  | nil => rfl
  | cons c rest ih =>
    have later : Number.digitsFrom (start * 10 + (c.toNat - '0'.toNat)) rest ≤ greatestWord := fits
    have next : start * 10 + (c.toNat - '0'.toNat) ≤ greatestWord :=
      Nat.le_trans (Number.le_digitsFrom _ rest) later
    unfold appendDigits
    dsimp only
    rw [if_pos next, ih later]
    rfl

theorem appendDigits_le (start : Nat) (small : start ≤ greatestWord) (digits : List Char) :
    (appendDigits start digits).1 ≤ greatestWord := by
  induction digits generalizing start with
  | nil => exact small
  | cons c rest ih =>
    unfold appendDigits
    dsimp only
    split
    · rename_i next
      exact ih _ next
    · exact small

private theorem appendDigits_of_empty (start : Nat) (digits : List Char)
    (all : (appendDigits start digits).2.isEmpty = true) :
    (appendDigits start digits).1 = Number.digitsFrom start digits := by
  induction digits generalizing start with
  | nil => rfl
  | cons c rest ih =>
    unfold appendDigits at all ⊢
    dsimp only at all ⊢
    split at all
    · rename_i next
      rw [if_pos next]
      exact ih _ all
    · cases all

/-- The numeral of a written integer. -/
def integerNumeral (value : Int) : Numeral where
  negative := decide (value < 0)
  whole := Number.digitChars value.natAbs
  fraction := none
  exponent := none

theorem integerNumeral_valid (value : Int) : (integerNumeral value).Valid where
  whole := Number.isWhole_digitChars value.natAbs
  fraction := by
    intro digits equal
    cases equal
  exponent := by
    intro down digits equal
    cases equal

theorem integerNumeral_chars (value : Int) :
    (integerNumeral value).chars = Number.integerChars value := by
  unfold Numeral.chars Number.integerChars integerNumeral Numeral.tail
  by_cases negative : value < 0
  · simp [negative]
  · simp [negative]

theorem document?_integerNumeral_of_fits {value : Int} (fits : FitsWord value) :
    (integerNumeral value).document? = some (.integer value) := by
  obtain ⟨low, high⟩ := fits
  have bound : Number.digitsFrom 0 (Number.digitChars value.natAbs) ≤ greatestWord := by
    rw [Number.digitsFrom_digitChars]
    unfold greatestWord
    omega
  have appended := appendDigits_of_le bound
  rw [Number.digitsFrom_digitChars] at appended
  unfold Numeral.document? integerNumeral
  dsimp only
  rw [appended]
  by_cases negative : value < 0
  · have positive : 0 < value.natAbs := by omega
    have least : value.natAbs ≤ 2 ^ 63 := by omega
    have back : -(value.natAbs : Int) = value := by omega
    simp only [negative, positive, least, back, List.isEmpty_nil, Option.isNone_none, decide_true,
      Bool.and_self, Bool.not_true, Bool.and_false, Bool.false_eq_true, reduceIte]
  · have back : (value.natAbs : Int) = value := by omega
    simp only [negative, back, List.isEmpty_nil, Option.isNone_none, decide_false, Bool.and_self,
      Bool.not_false, reduceIte]

theorem document?_cases (written : Numeral) :
    written.document? = none ∨ (∃ y, written.document? = some (.double y)) ∨
      ((appendDigits 0 written.whole).2.isEmpty = true ∧ written.fraction = none ∧ written.exponent = none ∧
        ((written.negative = false ∧
            written.document? = some (.integer (appendDigits 0 written.whole).1)) ∨
          (written.negative = true ∧ (appendDigits 0 written.whole).1 ≤ 2 ^ 63 ∧
            written.document? = some (.integer (-((appendDigits 0 written.whole).1 : Int)))))) := by
  obtain ⟨negative, whole, fraction, exponent⟩ := written
  have scaled (value : Option Float) (change : Float → Json) (double : ∀ x, ∃ y, change x = .double y) :
      value.map change = none ∨ ∃ y, value.map change = some (.double y) := by
    cases value with
    | none => exact Or.inl rfl
    | some x =>
      obtain ⟨y, equal⟩ := double x
      exact Or.inr ⟨y, by rw [Option.map_some, equal]⟩
  unfold Numeral.document?
  dsimp only
  generalize appendDigits 0 whole = parts
  split
  · rename_i plain
    simp only [Bool.and_eq_true, Option.isNone_iff_eq_none, Bool.not_eq_true'] at plain
    exact Or.inr (Or.inr ⟨plain.1.1.1, plain.1.1.2, plain.1.2, Or.inl ⟨plain.2, rfl⟩⟩)
  · rename_i signed
    split
    · rename_i plain
      simp only [Bool.and_eq_true, decide_eq_true_eq] at plain
      have sign : negative = true := by simpa [plain.1.1] using signed
      simp only [Option.isNone_iff_eq_none] at plain
      exact Or.inr (Or.inr ⟨plain.1.1.1.1, plain.1.1.1.2, plain.1.1.2, Or.inr ⟨sign, plain.2, rfl⟩⟩)
    · rw [← or_assoc]
      refine Or.inl ?_
      cases exponent with
      | none => exact scaled _ _ (fun x => ⟨_, rfl⟩)
      | some power =>
        dsimp only
        split
        · split
          · exact Or.inl rfl
          · exact Or.inr ⟨_, rfl⟩
        · exact scaled _ _ (fun x => ⟨_, rfl⟩)

theorem fitsWord_of_document? {written : Numeral} {value : Int}
    (read : written.document? = some (.integer value)) : FitsWord value := by
  have word := appendDigits_le 0 (by decide) written.whole
  have bound : greatestWord = 2 ^ 64 - 1 := rfl
  rcases document?_cases written with none | ⟨y, double⟩ | ⟨_, _, _, ⟨_, whole⟩ | ⟨_, small, whole⟩⟩
  · rw [none] at read
    cases read
  · rw [double] at read
    cases read
  · rw [whole] at read
    cases read
    exact ⟨by omega, by omega⟩
  · rw [whole] at read
    cases read
    exact ⟨by omega, by omega⟩

theorem eq_of_document?_integerNumeral {value other : Int}
    (read : (integerNumeral value).document? = some (.integer other)) : other = value := by
  have whole := appendDigits_of_empty 0 (Number.digitChars value.natAbs)
  rw [Number.digitsFrom_digitChars] at whole
  rcases document?_cases (integerNumeral value) with
    none | ⟨y, double⟩ | ⟨all, _, _, ⟨sign, same⟩ | ⟨sign, _, same⟩⟩
  · rw [none] at read
    cases read
  · rw [double] at read
    cases read
  · have positive : ¬value < 0 := of_decide_eq_false sign
    have size : (appendDigits 0 (integerNumeral value).whole).1 = value.natAbs := whole all
    rw [same, size] at read
    cases read
    omega
  · have negative : value < 0 := of_decide_eq_true sign
    have size : (appendDigits 0 (integerNumeral value).whole).1 = value.natAbs := whole all
    rw [same, size] at read
    cases read
    omega

/-- The text of a number without sign. -/
private def IsUnsignedText (text : List Char) : Prop :=
  ∃ numeral : Numeral, numeral.Valid ∧ numeral.negative = false ∧ numeral.chars = text

private theorem isUnsignedText_fraction {whole digits : List Char}
    (start : Number.IsWhole whole) (nonempty : digits ≠ []) (all : ∀ c ∈ digits, Number.isDigit c = true) :
    IsUnsignedText (whole ++ '.' :: digits) := by
  refine ⟨⟨false, whole, some digits, none⟩, ⟨start, ?_, ?_⟩, rfl, ?_⟩
  · intro other equal
    cases equal
    exact ⟨nonempty, all⟩
  · intro down other equal
    cases equal
  · simp [Numeral.chars, Numeral.tail]

private theorem isUnsignedText_positional {decimal : Number.Decimal} (positive : 0 < decimal.digits)
    (places : decimal.exponent < 0) : IsUnsignedText (Number.positional decimal) := by
  obtain ⟨whole, fraction, form, start, nonempty, all, _⟩ := Number.positional_point positive places
  rw [form]
  exact isUnsignedText_fraction start nonempty all

private theorem isUnsignedText_scientific (decimal : Number.Decimal) :
    IsUnsignedText (Number.scientific decimal) := by
  have all : ∀ c ∈ Number.digitChars decimal.digits, Number.isDigit c = true :=
    fun c member => Number.isDigit_digitChars member
  have power : ∀ c ∈ Number.digitChars (Number.leadingExponent decimal).natAbs,
      Number.isDigit c = true := fun c member => Number.isDigit_digitChars member
  unfold Number.scientific
  dsimp only
  split
  · rename_i nothing
    exact absurd nothing (Number.digitChars_ne_nil _)
  · rename_i digit equal
    rw [equal] at all
    refine ⟨⟨false, [digit], none, some (decide (Number.leadingExponent decimal < 0),
      Number.digitChars (Number.leadingExponent decimal).natAbs)⟩, ⟨?_, ?_, ?_⟩, rfl, ?_⟩
    · exact ⟨digit, [], rfl, fun _ => rfl, all⟩
    · intro digits none
      cases none
    · intro down digits same
      cases same
      exact ⟨Number.digitChars_ne_nil _, power⟩
    · simp [Numeral.chars, Numeral.tail]
  · rename_i digit more several equal
    rw [equal] at all
    refine ⟨⟨false, [digit], some more, some (decide (Number.leadingExponent decimal < 0),
      Number.digitChars (Number.leadingExponent decimal).natAbs)⟩, ⟨?_, ?_, ?_⟩, rfl, ?_⟩
    · refine ⟨digit, [], rfl, fun _ => rfl, ?_⟩
      intro c member
      rw [List.mem_singleton.mp member]
      exact all digit (by simp)
    · intro digits same
      cases same
      refine ⟨?_, fun c member => all c (List.mem_cons_of_mem digit member)⟩
      rintro rfl
      exact several rfl
    · intro down digits same
      cases same
      exact ⟨Number.digitChars_ne_nil _, power⟩
    · simp [Numeral.chars, Numeral.tail]

private theorem isUnsignedText_doubleChars {x : Float} {negative : Bool} {significand : Nat}
    {exponent : Int} (parts : Number.parts x = .finite negative significand exponent) :
    ∃ text, IsUnsignedText text ∧
      doubleChars x = (if negative then '-' :: text else text) := by
  unfold doubleChars
  rw [parts]
  refine ⟨_, ?_, rfl⟩
  split
  · exact isUnsignedText_fraction Number.isWhole_zero (by decide) Number.isDigit_of_mem_zero
  · rename_i notZero
    have positive : 0 < (Number.shortest .even significand exponent).digits :=
      Number.shortest_digits_pos (by omega)
    split
    · split
      · rename_i integral
        exact isUnsignedText_fraction (Number.positional_whole positive integral).1 (by decide)
          Number.isDigit_of_mem_zero
      · rename_i places
        exact isUnsignedText_positional positive (by omega)
    · exact isUnsignedText_scientific _

theorem exists_numeral_of_isFinite {x : Float} (finite : Number.isFinite x = true) :
    ∃ written : Numeral, written.Valid ∧ written.chars = doubleChars x := by
  obtain ⟨negative, significand, exponent, parts⟩ : ∃ negative significand exponent,
      Number.parts x = .finite negative significand exponent := by
    unfold Number.isFinite at finite
    split at finite
    · exact ⟨_, _, _, by assumption⟩
    · cases finite
  obtain ⟨text, ⟨numeral, valid, positive, chars⟩, equal⟩ :=
    isUnsignedText_doubleChars parts
  cases negative with
  | false => exact ⟨numeral, valid, by rw [chars, equal]; rfl⟩
  | true =>
    refine ⟨{ numeral with negative := true },
      ⟨valid.whole, valid.fraction, valid.exponent⟩, ?_⟩
    rw [equal, ← chars, Numeral.chars, Numeral.chars, positive]
    rfl

end ScreenStudio.Json
