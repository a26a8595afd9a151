/- digest: Diagnostics: what is wrong in a source text, with the lines it is wrong in. -/

import ScreenStudio.Source.Lexeme

set_option autoImplicit false
set_option relaxedAutoImplicit false

namespace ScreenStudio.Source

/-- Go on to the next place where a token starts, or to the end. -/
def skipStuck (offset : Nat) : List Char → Nat × List Char
  | [] => (offset, [])
  | c :: rest =>
    if (scan? ((c :: rest).dropWhile Text.isBlank)).isSome then (offset, c :: rest)
    else skipStuck (offset + c.utf8Size) rest

/-- The failures of a cut that goes on behind each of them, in at most `fuel` steps. -/
def failuresFrom : Nat → Bool → Nat → List Char → List Unexpected
  | 0, _, _, _ => []
  | fuel + 1, unclosed, offset, cs =>
    let start := offset + byteLength (cs.takeWhile Text.isBlank)
    match cs.dropWhile Text.isBlank with
    | [] => []
    | c :: rest =>
      match scan? (c :: rest) with
      | none =>
        let next := skipStuck (start + c.utf8Size) rest
        stuckAt unclosed start (c :: rest) :: failuresFrom fuel false next.1 next.2
      | some found =>
        let opened := unclosed || (opensBlock (c :: rest) && !found.token.isComment)
        failuresFrom fuel opened (start + byteLength found.lexeme) found.rest

/-- The places at which a text cannot be cut into tokens. -/
def failures (source : String) : List Unexpected :=
  failuresFrom (source.length + 1) false 0 source.toList

/-- The lines of a text, each with its end. A carriage return and the line feed behind it are one
end. -/
def lines : List Char → List (List Char)
  | [] => [[]]
  | '\r' :: '\n' :: [] => [['\r', '\n']]
  | '\r' :: '\n' :: rest => ['\r', '\n'] :: lines rest
  | [c] => [[c]]
  | c :: rest =>
    if isLineEnd c then [c] :: lines rest
    else
      match lines rest with
      | [] => [[c]]
      | line :: more => (c :: line) :: more

/-- The number of the line that holds the character with a number; the end of the text belongs to the
last line. -/
def lineNumber? (index : Nat) : List (List Char) → Option Nat
  | [] => none
  | [last] => if index ≤ last.length then some 0 else none
  | line :: rest =>
    if index < line.length then some 0 else (lineNumber? (index - line.length) rest).map (· + 1)

/-- The lines that a failure touches: the first and the last one. The offsets count as numbers of
characters here; where they lead past the end there is no line to show. -/
def touchedLines (source : String) (span : Span) : List (List Char) :=
  let all := lines source.toList
  match lineNumber? span.start all, lineNumber? (max span.start (span.stop - 1)) all with
  | some first, some last =>
    (if first = last then [first] else [first, last]).filterMap (fun number => all[number]?)
  | _, _ => []

/-- A line without its end, behind a bar. -/
def shownLine (line : List Char) : String :=
  "\n  | " ++ String.ofList (line.filter (fun c => !isLineEnd c))

def Unexpected.expectation (failure : Unexpected) : String :=
  match failure.expected.eraseDups with
  | [] => ""
  | expected =>
    ", expected " ++ String.intercalate " or " (expected.map (fun item => "'" ++ item ++ "'"))

def Unexpected.diagnostic (source : String) (failure : Unexpected) : String :=
  let position := positionAt source failure.span.start
  "Error at " ++ String.ofList (Number.digitChars position.line) ++ ":"
    ++ String.ofList (Number.digitChars position.column) ++ ": " ++ failure.message
    ++ failure.expectation
    ++ String.join ((touchedLines source failure.span).map shownLine)

def diagnostic (source : String) (failures : List Unexpected) : String :=
  String.intercalate "\n" (failures.map (Unexpected.diagnostic source))

end ScreenStudio.Source
