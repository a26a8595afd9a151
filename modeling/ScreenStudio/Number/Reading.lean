/- digest: Reading decimal text as the nearest double. -/

import ScreenStudio.Number.Binary
import ScreenStudio.Text.Blank

/-!
Decimal text is read exactly and rounded once. `ofPlainDigits` reads digits with at most one point,
which is what the scanner of the screen language hands over. `ofText?` also accepts a sign, an
exponent, a missing integer or fraction part, and the words for infinity and for no number.
-/

set_option autoImplicit false
set_option relaxedAutoImplicit false

namespace ScreenStudio.Number

def isDigit (c : Char) : Bool := '0' ≤ c && c ≤ '9'

/-- The value of a run of digits that continues the value `start`. -/
def digitsFrom (start : Nat) (digits : List Char) : Nat :=
  digits.foldl (fun value c => value * 10 + (c.toNat - '0'.toNat)) start

def digitsValue (digits : List Char) : Nat := digitsFrom 0 digits

/-- The double nearest to `whole.fraction` times a power of ten. -/
def ofDigits (negative : Bool) (whole fraction : List Char) (power : Int) : Float :=
  ofDecimal negative (digitsFrom (digitsValue whole) fraction) (power - fraction.length)

/-- Digits with at most one point, without sign or exponent. -/
def ofPlainDigits (cs : List Char) : Float :=
  let whole := cs.takeWhile isDigit
  let fraction := (cs.dropWhile isDigit).drop 1
  ofDigits false whole fraction 0

/-- A signed run of at least one digit and nothing after it. -/
def signedDigits? (cs : List Char) : Option Int :=
  let (negative, digits) :=
    match cs with
    | '-' :: rest => (true, rest)
    | '+' :: rest => (false, rest)
    | _ => (false, cs)
  if digits.isEmpty || !digits.all isDigit then none
  else
    let value := digitsValue digits
    some (if negative then -(value : Int) else (value : Int))

/-- An unsigned decimal with an optional point and an optional exponent. -/
def unsignedDecimal? (negative : Bool) (cs : List Char) : Option Float :=
  let whole := cs.takeWhile isDigit
  let afterWhole := cs.dropWhile isDigit
  let (fraction, afterFraction) :=
    match afterWhole with
    | '.' :: rest => (rest.takeWhile isDigit, rest.dropWhile isDigit)
    | _ => ([], afterWhole)
  if whole.isEmpty && fraction.isEmpty then none
  else
    match afterFraction with
    | [] => some (ofDigits negative whole fraction 0)
    | mark :: rest =>
      if mark = 'e' || mark = 'E' then
        (signedDigits? rest).map (ofDigits negative whole fraction)
      else none

def lowerAscii (cs : List Char) : List Char := cs.map Char.toLower

/-- A number in the widest grammar: sign, words, point and exponent. -/
def ofChars? (cs : List Char) : Option Float :=
  let (negative, body) :=
    match cs with
    | '-' :: rest => (true, rest)
    | '+' :: rest => (false, rest)
    | _ => (false, cs)
  match String.ofList (lowerAscii body) with
  | "inf" => some (ofSignedBits negative (2047 * 2 ^ 52))
  | "infinity" => some (ofSignedBits negative (2047 * 2 ^ 52))
  | "nan" => some nan
  | _ => unsignedDecimal? negative body

/-- A text as a number: blanks around it do not count, an empty text is zero, and a text that is no
number gives the value for no number. -/
def ofText (text : String) : Float :=
  match Text.trimChars text.toList with
  | [] => ofInt 0
  | cs => (ofChars? cs).getD nan

end ScreenStudio.Number
