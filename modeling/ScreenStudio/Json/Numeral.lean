/- digest: Numbers of a JSON text: their parts, what they stand for, and what is wrong with them. -/

import ScreenStudio.Json.Basic
import ScreenStudio.Json.Problem
import ScreenStudio.Number.Reading

set_option autoImplicit false
set_option relaxedAutoImplicit false

namespace ScreenStudio.Json

/-- The parts of a number: whether it is negative, the digits before and behind the point, and the exponent
with a flag for its minus sign. -/
structure Numeral where
  negative : Bool
  whole : List Char
  fraction : Option (List Char)
  exponent : Option (Bool × List Char)

section Reading

def startsNumber (c : Char) : Bool := c == '-' || Number.isDigit c

def invalidNumber (rest : List Char) : Problem := .upon "invalid number" rest

/-- What is wrong where a digit should stand; `ended` is wrong with a text that ends there. -/
def badDigit (ended : Problem) (rest : List Char) : Problem :=
  if rest.isEmpty then ended else invalidNumber rest

/-- An optional point with at least one digit behind it. -/
def fraction (ended : Problem) : List Char → Read (Option (List Char))
  | '.' :: rest =>
    let digits := rest.takeWhile Number.isDigit
    if digits.isEmpty then .error (badDigit ended rest)
    else .ok (some digits, rest.dropWhile Number.isDigit)
  | cs => .ok (none, cs)

/-- An optional exponent mark with an optional sign and at least one digit. -/
def exponent (ended : Problem) : List Char → Read (Option (Bool × List Char))
  | mark :: rest =>
    if mark = 'e' || mark = 'E' then
      let (down, body) :=
        match rest with
        | '-' :: more => (true, more)
        | '+' :: more => (false, more)
        | _ => (false, rest)
      let digits := body.takeWhile Number.isDigit
      if digits.isEmpty then .error (badDigit ended body)
      else .ok (some (down, digits), body.dropWhile Number.isDigit)
    else .ok (none, mark :: rest)
  | [] => .ok (none, [])

/-- The parts of a number behind its sign. -/
def unsigned (ended : Problem) (negative : Bool) (body : List Char) : Read Numeral :=
  let whole := body.takeWhile Number.isDigit
  match whole with
  | [] => .error (badDigit ended body)
  | '0' :: _ :: _ => .error (invalidNumber body.tail)
  | _ =>
    (fraction ended (body.dropWhile Number.isDigit)).andThen (fun fraction rest =>
      (exponent ended rest).mapValue (fun exponent => ⟨negative, whole, fraction, exponent⟩))

def numeral (ended : Problem) : List Char → Read Numeral
  | '-' :: rest => unsigned ended true rest
  | cs => unsigned ended false cs

end Reading

section Values

def greatestWord : Nat := 2 ^ 64 - 1

/-- Append digits to a significand as long as it fits a word; the rest is handed back. -/
def appendDigits (significand : Nat) : List Char → Nat × List Char
  | [] => (significand, [])
  | c :: rest =>
    let next := significand * 10 + (c.toNat - '0'.toNat)
    if next ≤ greatestWord then appendDigits next rest else (significand, c :: rest)

/-- Divide by `10 ^ 308` until the remaining power is in the table or nothing is left. -/
def shrink (value : Float) (power : Nat) : Nat → Float
  | 0 => value
  | steps + 1 =>
    if power ≤ 308 then value / Number.ofDecimal false 1 power
    else shrink (value / Number.ofDecimal false 1 308) (power - 308) steps

/-- A word times a power of ten, by one rounding of the word and one of the product or quotient. -/
def scaledWord? (significand : Nat) (power : Int) : Option Float :=
  let value := Number.ofInt significand
  if significand = 0 then some value
  else if 308 < power then none
  else if 0 ≤ power then
    let product := value * Number.ofDecimal false 1 power
    if Number.isFinite product then some product else none
  else some (shrink value power.natAbs 4)

def greatestPower : Nat := 2 ^ 31 - 1

def unreadPower : Nat → List Char → List Char
  | _, [] => []
  | power, c :: rest =>
    let next := power * 10 + (c.toNat - '0'.toNat)
    if greatestPower < next then rest else unreadPower next rest

namespace Numeral

/-- The number of a numeral, unless it is past every double. Without point and exponent it is an integer if
it fits a word. -/
def document? (numeral : Numeral) : Option Json :=
  let (significand, dropped) := appendDigits 0 numeral.whole
  let plain := dropped.isEmpty && numeral.fraction.isNone && numeral.exponent.isNone
  if plain && !numeral.negative then some (.integer significand)
  else if plain && 0 < significand && significand ≤ 2 ^ 63 then some (.integer (-(significand : Int)))
  else
    let digits := numeral.fraction.getD []
    let (significand, unused) := appendDigits significand digits
    let start : Int := (dropped.length : Int) - ((digits.length - unused.length : Nat) : Int)
    let signed (value : Float) : Json := .double (if numeral.negative then -value else value)
    match numeral.exponent with
    | none => (scaledWord? significand start).map signed
    | some (down, power) =>
      let size := Number.digitsValue power
      if greatestPower < size then
        if significand ≠ 0 ∧ down = false then none else some (signed (Number.ofInt 0))
      else
        let total := if down then start - size else start + size
        (scaledWord? significand total).map signed

/-- The digits of an exponent that are left when its value is past every power. -/
def unread (numeral : Numeral) : List Char :=
  match numeral.exponent with
  | none => []
  | some (_, power) => unreadPower 0 power

end Numeral

end Values

def number (cs : List Char) : Read Json :=
  (numeral endOfValue cs).andThen (fun numeral rest =>
    match numeral.document? with
    | some value => .ok (value, rest)
    | none => .error (.behind "number out of range" (numeral.unread ++ rest)))

end ScreenStudio.Json
