/- digest: A source text cut into placed tokens, or the place at which that fails. -/

import ScreenStudio.Source.Token
import ScreenStudio.Text.Blank

set_option autoImplicit false
set_option relaxedAutoImplicit false

namespace ScreenStudio.Source

/-- A token and the bytes it covers. -/
structure Lexeme where
  token : Token
  span : Span
  deriving DecidableEq

/-- Something that does not belong where it stands; `none` is the end of the text. What could stand
there instead is known as far as anything was looked for. -/
structure Unexpected where
  found : Option String
  span : Span
  expected : List String
  deriving DecidableEq, Repr

def Unexpected.message (failure : Unexpected) : String :=
  match failure.found with
  | some shown => "found '" ++ shown ++ "'"
  | none => "found end of input"

/-- The failure at the first of the characters `cs`, which start at `offset`. -/
def Unexpected.before (offset : Nat) (cs : List Char) (expected : List String) : Unexpected :=
  match cs with
  | [] => ⟨none, ⟨offset, offset⟩, expected⟩
  | c :: _ => ⟨some c.toString, ⟨offset, offset + c.utf8Size⟩, expected⟩

def tokenStarts : List String :=
  Symbol.all.map (fun symbol => String.ofList (symbol.spelling.take 1))
    ++ ["'", "\"", "digit", "letter"]

/-- The characters end in a backslash that escapes nothing. -/
def endsInEscape : List Char → Bool
  | [] => false
  | ['\\'] => true
  | '\\' :: _ :: rest => endsInEscape rest
  | _ :: rest => endsInEscape rest

def stuck (offset : Nat) (cs : List Char) : Unexpected :=
  match cs with
  | [] => .before offset [] []
  | c :: rest =>
    if c = '\'' || c = '"' then
      .before (offset + byteLength cs) []
        (if endsInEscape rest then [] else ["\\", c.toString])
    else if c = '&' || c = '|' then .before (offset + c.utf8Size) rest [c.toString]
    else .before offset cs tokenStarts

/-- The failure where no token starts. `unclosed` tells that a block comment was left open: its end is
looked for up to the end of the text. -/
def stuckAt (unclosed : Bool) (offset : Nat) (cs : List Char) : Unexpected :=
  let failure := stuck offset cs
  if unclosed then
    .before (offset + byteLength cs) []
      ("*" :: if failure.found = none then failure.expected else [])
  else failure

def opensBlock : List Char → Bool
  | '/' :: '*' :: _ => true
  | _ => false

/-- Cut the characters `cs`, which start at `offset`, in at most `fuel` tokens. -/
def lexemesFrom : Nat → Bool → Nat → List Char → Except Unexpected (List Lexeme)
  | 0, unclosed, offset, cs => .error (stuckAt unclosed offset cs)
  | fuel + 1, unclosed, offset, cs =>
    let blanks := cs.takeWhile Text.isBlank
    let body := cs.dropWhile Text.isBlank
    let start := offset + byteLength blanks
    match body with
    | [] => .ok []
    | _ :: _ =>
      match scan? body with
      | none => .error (stuckAt unclosed start body)
      | some found =>
        let stop := start + byteLength found.lexeme
        let opened := unclosed || (opensBlock body && !found.token.isComment)
        match lexemesFrom fuel opened stop found.rest with
        | .error failure => .error failure
        | .ok lexemes => .ok (⟨found.token, ⟨start, stop⟩⟩ :: lexemes)

/-- The tokens of a text with their places, comments included. -/
def lexemes (source : String) : Except Unexpected (List Lexeme) :=
  let cs := source.toList
  lexemesFrom (cs.length + 1) false 0 cs

end ScreenStudio.Source
