/- digest: Documents as text, compact or indented. -/

import ScreenStudio.Json.Basic
import ScreenStudio.Number.Notation

set_option autoImplicit false
set_option relaxedAutoImplicit false

namespace ScreenStudio.Json

/-- The least power of ten of a first digit that is written without an exponent. -/
def leastPlainPower : Int := -5

/-- The greatest power of ten of a first digit that is written without an exponent. -/
def greatestPlainPower : Int := 15

/-- A double of a document. Half way cases go to the even digit. -/
def doubleChars (value : Float) : List Char :=
  match Number.parts value with
  | .finite negative significand exponent =>
    let decimal := Number.shortest .even significand exponent
    let power := Number.leadingExponent decimal
    let digits :=
      if significand = 0 then ['0', '.', '0']
      else if leastPlainPower ≤ power ∧ power ≤ greatestPlainPower then
        if 0 ≤ decimal.exponent then Number.positional decimal ++ ['.', '0']
        else Number.positional decimal
      else Number.scientific decimal
    if negative then '-' :: digits else digits
  | _ => ['n', 'u', 'l', 'l']

/-- The hexadecimal digit of a value below sixteen. -/
def hexDigit (value : Nat) : Char := Nat.digitChar value

def escapeChar (c : Char) : List Char :=
  match c with
  | '"' => ['\\', '"']
  | '\\' => ['\\', '\\']
  | '\x08' => ['\\', 'b']
  | '\x0c' => ['\\', 'f']
  | '\n' => ['\\', 'n']
  | '\r' => ['\\', 'r']
  | '\t' => ['\\', 't']
  | _ =>
    if c.toNat < 0x20 then
      ['\\', 'u', '0', '0', hexDigit (c.toNat / 16), hexDigit (c.toNat % 16)]
    else [c]

def quote (value : String) : List Char :=
  '"' :: (value.toList.flatMap escapeChar ++ ['"'])

def joinCommas : List (List Char) → List Char
  | [] => []
  | [piece] => piece
  | piece :: rest => piece ++ ',' :: joinCommas rest

mutual

def compactChars : Json → List Char
  | .null => ['n', 'u', 'l', 'l']
  | .bool true => ['t', 'r', 'u', 'e']
  | .bool false => ['f', 'a', 'l', 's', 'e']
  | .integer value => Number.integerChars value
  | .double value => doubleChars value
  | .text value => quote value
  | .array items => '[' :: (joinCommas (compactItems items) ++ [']'])
  | .object entries => '{' :: (joinCommas (compactEntries entries) ++ ['}'])

def compactItems : List Json → List (List Char)
  | [] => []
  | item :: rest => compactChars item :: compactItems rest

def compactEntries : List (String × Json) → List (List Char)
  | [] => []
  | (key, value) :: rest => (quote key ++ ':' :: compactChars value) :: compactEntries rest

end

def compact (json : Json) : String := String.ofList (compactChars json)

/-- A line break and the blanks of an indentation level. -/
def newline (level : Nat) : List Char := '\n' :: List.replicate (2 * level) ' '

/-- Pieces on lines of their own between brackets; an empty container stays on one line. -/
def bracketLines (level : Nat) (opening closing : Char) (pieces : List (List Char)) : List Char :=
  if pieces.isEmpty then [opening, closing]
  else
    opening :: (joinCommas (pieces.map (newline (level + 1) ++ ·)) ++ newline level ++ [closing])

mutual

/-- A document over several lines, two blanks a level. -/
def prettyChars (level : Nat) : Json → List Char
  | .array items => bracketLines level '[' ']' (prettyItems (level + 1) items)
  | .object entries => bracketLines level '{' '}' (prettyEntries (level + 1) entries)
  | .null => compactChars .null
  | .bool value => compactChars (.bool value)
  | .integer value => compactChars (.integer value)
  | .double value => compactChars (.double value)
  | .text value => compactChars (.text value)

def prettyItems (level : Nat) : List Json → List (List Char)
  | [] => []
  | item :: rest => prettyChars level item :: prettyItems level rest

def prettyEntries (level : Nat) : List (String × Json) → List (List Char)
  | [] => []
  | (key, value) :: rest =>
    (quote key ++ ':' :: ' ' :: prettyChars level value) :: prettyEntries level rest

end

def pretty (json : Json) : String := String.ofList (prettyChars 0 json)

end ScreenStudio.Json
