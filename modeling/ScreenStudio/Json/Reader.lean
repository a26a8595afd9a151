/- digest: Reading JSON text as a document, with a limit on nesting, up to the first problem. -/

import ScreenStudio.Json.Numeral
import ScreenStudio.Json.Token

/-!
A value is read in one go from the front. What is wrong first is the problem of the text, whether it breaks
the grammar, the limit on nesting or what a reader expects. A value that nobody asks for is held to the
grammar alone.
-/

set_option autoImplicit false
set_option relaxedAutoImplicit false

namespace ScreenStudio.Json

/-- How many containers may stand one inside the other. -/
def depthLimit : Nat := 127

/-- Reads a value at the start of a text, in at most `fuel` steps of nesting and sequence, with room for
`room` further levels of containers. -/
abbrev Reader (α : Type) := (fuel room : Nat) → List Char → Read α

section Rows

/-- How a row of members goes on: it is done, or another member follows. -/
inductive Next
  | done (rest : List Char)
  | more (rest : List Char)

variable {α σ : Type}

/-- Read members one by one, each into what has been made of those before it. -/
def row (next : List Char → Except Problem Next) (member : σ → List Char → Read σ) :
    Nat → σ → List Char → Read σ
  | 0, _, _ => .error endOfValue
  | fuel + 1, made, body =>
    (member made body).andThen (fun made rest =>
      match next rest with
      | .error problem => .error problem
      | .ok (.done after) => .ok (made, after)
      | .ok (.more body) => row next member fuel made body)

/-- Read the members of a container behind its opening bracket; there may be none. -/
def container (first next : List Char → Except Problem Next) (member : σ → List Char → Read σ)
    (fuel : Nat) (empty : σ) (rest : List Char) : Read σ :=
  match first rest with
  | .error problem => .error problem
  | .ok (.done after) => .ok (empty, after)
  | .ok (.more body) => row next member fuel empty body

def firstItem (rest : List Char) : Except Problem Next :=
  match skipSpace rest with
  | [] => .error endOfList
  | ']' :: after => .ok (.done after)
  | _ => .ok (.more rest)

def nextItem (rest : List Char) : Except Problem Next :=
  match skipSpace rest with
  | [] => .error endOfList
  | ']' :: after => .ok (.done after)
  | ',' :: more =>
    match skipSpace more with
    | [] => .error endOfValue
    | ']' :: after => .error (trailingComma (']' :: after))
    | _ => .ok (.more more)
  | other => .error (.upon "expected `,` or `]`" other)

/-- The end of an array of which no more items are asked for. -/
def lastItem (rest : List Char) : Except Problem Next :=
  match skipSpace rest with
  | [] => .error endOfList
  | ']' :: after => .ok (.done after)
  | ',' :: more =>
    match skipSpace more with
    | ']' :: after => .error (trailingComma (']' :: after))
    | other => .error (trailingCharacters other)
  | other => .error (trailingCharacters other)

/-- The next member of an object begins behind its opening quote. -/
def firstEntry (rest : List Char) : Except Problem Next :=
  match skipSpace rest with
  | [] => .error endOfObject
  | '}' :: after => .ok (.done after)
  | '"' :: key => .ok (.more key)
  | other => .error (keyNeeded other)

def nextEntry (rest : List Char) : Except Problem Next :=
  match skipSpace rest with
  | [] => .error endOfObject
  | '}' :: after => .ok (.done after)
  | ',' :: more =>
    match skipSpace more with
    | [] => .error endOfValue
    | '"' :: key => .ok (.more key)
    | '}' :: after => .error (trailingComma ('}' :: after))
    | other => .error (keyNeeded other)
  | other => .error (.upon "expected `,` or `\x7d`" other)

def colon (rest : List Char) : Read Unit :=
  match skipSpace rest with
  | [] => .error endOfObject
  | ':' :: body => .ok ((), body)
  | other => .error (.upon "expected `:`" other)

def itemsOf (item : List Char → Read α) (fuel : Nat) (rest : List Char) : Read (List α) :=
  container firstItem nextItem (fun items body => (item body).mapValue (items ++ [·])) fuel [] rest

/-- Of two entries with one key the last stays. -/
def entriesOf (value : List Char → Read α) (fuel : Nat) (rest : List Char) : Read (List (String × α)) :=
  container firstEntry nextEntry (fun entries key =>
    (quotedText key).andThen (fun name rest =>
      (colon rest).andThen (fun _ body =>
        (value body).mapValue (Dictionary.insert name · entries)))) fuel [] rest

end Rows

def document : Reader Json
  | 0, _, _ => .error endOfValue
  | fuel + 1, room, cs =>
    match skipSpace cs with
    | [] => .error endOfValue
    | 'n' :: rest => literal .null ['u', 'l', 'l'] rest
    | 't' :: rest => literal (.bool true) ['r', 'u', 'e'] rest
    | 'f' :: rest => literal (.bool false) ['a', 'l', 's', 'e'] rest
    | '"' :: rest => (quotedText rest).mapValue .text
    | '[' :: rest =>
      if room = 0 then .error (tooDeep ('[' :: rest))
      else (itemsOf (document fuel (room - 1)) fuel rest).mapValue .array
    | '{' :: rest =>
      if room = 0 then .error (tooDeep ('{' :: rest))
      else (entriesOf (document fuel (room - 1)) fuel rest).mapValue .object
    | c :: rest => if startsNumber c then number (c :: rest) else .error (valueNeeded (c :: rest))

section Skipping

/-- Behind an item that is skipped, a comma before the end is noticed where the next item should begin. -/
def nextSkippedItem (rest : List Char) : Except Problem Next :=
  match skipSpace rest with
  | [] => .error endOfList
  | ']' :: after => .ok (.done after)
  | ',' :: more => .ok (.more more)
  | other => .error (.upon "expected `,` or `]`" other)

def nextSkippedEntry (rest : List Char) : Except Problem Next :=
  match skipSpace rest with
  | [] => .error endOfObject
  | '}' :: after => .ok (.done after)
  | ',' :: more =>
    match skipSpace more with
    | [] => .error endOfObject
    | '"' :: key => .ok (.more key)
    | other => .error (keyNeeded other)
  | other => .error (.upon "expected `,` or `\x7d`" other)

/-- Pass over a value that nobody asks for. -/
def skipValue : Nat → List Char → Read Unit
  | 0, _ => .error endOfValue
  | fuel + 1, cs =>
    match skipSpace cs with
    | [] => .error endOfValue
    | 'n' :: rest => literal () ['u', 'l', 'l'] rest
    | 't' :: rest => literal () ['r', 'u', 'e'] rest
    | 'f' :: rest => literal () ['a', 'l', 's', 'e'] rest
    | '"' :: rest => skipQuoted rest
    | '[' :: rest => container firstItem nextSkippedItem (fun _ => skipValue fuel) fuel () rest
    | '{' :: rest =>
      container firstEntry nextSkippedEntry (fun _ key =>
        (skipQuoted key).andThen (fun _ rest => (colon rest).andThen (fun _ => skipValue fuel))) fuel () rest
    | c :: rest =>
      if startsNumber c then (numeral (invalidNumber []) (c :: rest)).mapValue (fun _ => ())
      else .error (valueNeeded (c :: rest))

end Skipping

/-- Read a text that is one value with nothing but white space around it. -/
def readWhole {α : Type} (read : Reader α) (text : String) : Except Problem α :=
  let cs := text.toList
  match read (cs.length + 1) depthLimit cs with
  | .error problem => .error problem
  | .ok (value, rest) =>
    match skipSpace rest with
    | [] => .ok value
    | other => .error (trailingCharacters other)

def read (text : String) : Except Problem Json := readWhole document text

def read? (text : String) : Option Json := (read text).toOption

end ScreenStudio.Json
