/- digest: White space, literals and quoted texts of a JSON text, and what is wrong with them. -/

import ScreenStudio.Json.Problem

set_option autoImplicit false
set_option relaxedAutoImplicit false

namespace ScreenStudio.Json

def isSpace (c : Char) : Bool := c == ' ' || c == '\t' || c == '\n' || c == '\r'

def skipSpace (cs : List Char) : List Char := cs.dropWhile isSpace

def hexValue? (c : Char) : Option Nat :=
  if '0' ≤ c && c ≤ '9' then some (c.toNat - '0'.toNat)
  else if 'a' ≤ c && c ≤ 'f' then some (c.toNat - 'a'.toNat + 10)
  else if 'A' ≤ c && c ≤ 'F' then some (c.toNat - 'A'.toNat + 10)
  else none

def hexQuad? (a b c d : Char) : Option Nat := do
  return (← hexValue? a) * 4096 + (← hexValue? b) * 256 + (← hexValue? c) * 16 + (← hexValue? d)

/-- The character of an escape of one letter. -/
def shortEscape? (c : Char) : Option Char :=
  match c with
  | '"' => some '"'
  | '\\' => some '\\'
  | '/' => some '/'
  | 'b' => some '\x08'
  | 'f' => some '\x0c'
  | 'n' => some '\n'
  | 'r' => some '\r'
  | 't' => some '\t'
  | _ => none

/-- Read what is left of a literal, which stands for `value`. -/
def literal {α : Type} (value : α) : List Char → List Char → Read α
  | [], rest => .ok (value, rest)
  | _ :: _, [] => .error endOfValue
  | expected :: more, c :: rest =>
    if c = expected then literal value more rest else .error (.upon "expected ident" (c :: rest))

def isHighSurrogate (code : Nat) : Bool := 0xD800 ≤ code && code ≤ 0xDBFF

def isLowSurrogate (code : Nat) : Bool := 0xDC00 ≤ code && code ≤ 0xDFFF

/-- The character of two surrogates. -/
def joinSurrogates (high low : Nat) : Char :=
  Char.ofNat (0x10000 + (high - 0xD800) * 0x400 + (low - 0xDC00))

def loneSurrogate : String := "lone leading surrogate in hex escape"

def controlCharacter : String := "control character (\\u0000-\\u001F) found while parsing a string"

/-- What is wrong with an escape by number whose digits are cut off or are no digits. -/
def badQuad (rest : List Char) : Problem :=
  if byteSize rest < 4 then endOfText else ⟨"invalid escape", byteSize rest - 4⟩

/-- What is wrong behind a high surrogate, where a low one should follow. -/
def badPair (rest : List Char) : Problem :=
  if rest.isEmpty then endOfText else .upon "unexpected end of hex escape" rest

/-- The characters up to the closing quote. A high surrogate waits for the low one that must follow it. -/
def quoted : Option Nat → List Char → Read (List Char)
  | high?, '\\' :: 'u' :: a :: b :: c :: d :: rest =>
    match hexQuad? a b c d, high? with
    | none, _ => .error (badQuad (a :: b :: c :: d :: rest))
    | some code, some high =>
      if isLowSurrogate code then (quoted none rest).mapValue (joinSurrogates high code :: ·)
      else .error (.behind loneSurrogate rest)
    | some code, none =>
      if isHighSurrogate code then quoted (some code) rest
      else if isLowSurrogate code then .error (.behind loneSurrogate rest)
      else (quoted none rest).mapValue (Char.ofNat code :: ·)
  | _, '\\' :: 'u' :: rest => .error (badQuad rest)
  | some _, '\\' :: rest => .error (badPair rest)
  | some _, rest => .error (badPair rest)
  | none, '"' :: rest => .ok ([], rest)
  | none, ['\\'] => .error endOfText
  | none, '\\' :: mark :: rest =>
    match shortEscape? mark with
    | some c => (quoted none rest).mapValue (c :: ·)
    | none => .error (.upon "invalid escape" (mark :: rest))
  | none, c :: rest =>
    if c.toNat < 0x20 then
      .error (.upon controlCharacter (c :: rest))
    else (quoted none rest).mapValue (c :: ·)
  | none, [] => .error endOfText

/-- Read the rest of a text between quotes. -/
def quotedText (rest : List Char) : Read String :=
  (quoted none rest).mapValue String.ofList

/-- Pass over a text that nobody asks for. Its surrogates need not be paired. -/
def skipQuoted : List Char → Read Unit
  | '"' :: rest => .ok ((), rest)
  | '\\' :: 'u' :: a :: b :: c :: d :: rest =>
    match hexQuad? a b c d with
    | some _ => skipQuoted rest
    | none => .error (badQuad (a :: b :: c :: d :: rest))
  | '\\' :: 'u' :: rest => .error (badQuad rest)
  | ['\\'] => .error endOfText
  | '\\' :: mark :: rest =>
    match shortEscape? mark with
    | some _ => skipQuoted rest
    | none => .error (.upon "invalid escape" (mark :: rest))
  | c :: rest =>
    if c.toNat < 0x20 then .error (.behind controlCharacter (c :: rest)) else skipQuoted rest
  | [] => .error endOfText

end ScreenStudio.Json
