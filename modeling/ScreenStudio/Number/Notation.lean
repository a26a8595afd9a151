/- digest: Layouts of a decimal: positional, and one digit before the point with an exponent. -/

import ScreenStudio.Number.Digits

set_option autoImplicit false
set_option relaxedAutoImplicit false

namespace ScreenStudio.Number

def digitChars (value : Nat) : List Char := Nat.toDigits 10 value

/-- A decimal without an exponent: `1200`, `1.5`, `0.003`. -/
def positional (decimal : Decimal) : List Char :=
  let digits := digitChars decimal.digits
  if 0 ≤ decimal.exponent then digits ++ List.replicate decimal.exponent.toNat '0'
  else
    let places := (-decimal.exponent).toNat
    if places < digits.length then
      digits.take (digits.length - places) ++ '.' :: digits.drop (digits.length - places)
    else '0' :: '.' :: (List.replicate (places - digits.length) '0' ++ digits)

/-- The power of ten of the first digit. -/
def leadingExponent (decimal : Decimal) : Int :=
  decimal.exponent + (digitChars decimal.digits).length - 1

/-- A decimal with one digit before the point and a signed exponent: `1e+21`, `1.5e-7`. -/
def scientific (decimal : Decimal) : List Char :=
  let power := leadingExponent decimal
  let sign := if power < 0 then '-' else '+'
  let mantissa :=
    match digitChars decimal.digits with
    | [] => []
    | [digit] => [digit]
    | digit :: more => digit :: '.' :: more
  mantissa ++ 'e' :: sign :: digitChars power.natAbs

/-- The decimal digits of an integer with its sign. -/
def integerChars (value : Int) : List Char :=
  if value < 0 then '-' :: digitChars value.natAbs else digitChars value.natAbs

/-- The shortest positional text of a number. A half way case goes up. -/
def literalText (x : Float) : String :=
  match parts x with
  | .nan => "NaN"
  | .infinite negative => if negative then "-inf" else "inf"
  | .finite negative significand exponent =>
    let digits := positional (shortest .up significand exponent)
    String.ofList (if negative then '-' :: digits else digits)

/-- The text of a number in the screen language. -/
def display (x : Float) : String :=
  match parts x with
  | .nan => "NaN"
  | .infinite negative => if negative then "-Infinity" else "Infinity"
  | .finite .. =>
    match toInt? x with
    | some value =>
      if value.natAbs < 10 ^ 21 then String.ofList (integerChars value) else literalText x
    | none => literalText x

end ScreenStudio.Number
