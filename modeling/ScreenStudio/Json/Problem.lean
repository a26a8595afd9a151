/- digest: What is wrong with a JSON text, and the line and column of it. -/

import ScreenStudio.Number.Notation

set_option autoImplicit false
set_option relaxedAutoImplicit false

namespace ScreenStudio.Json

/-- The number of bytes of some characters. -/
def byteSize (cs : List Char) : Nat := cs.foldl (fun size c => size + c.utf8Size) 0

/-- Why a text cannot be read, and how many of its bytes stand behind the place. -/
structure Problem where
  reason : String
  left : Nat
  deriving DecidableEq, Repr

namespace Problem

/-- A problem with what has been read. -/
def behind (reason : String) (rest : List Char) : Problem := ⟨reason, byteSize rest⟩

/-- A problem with the byte that comes next, or with the end of the text. -/
def upon (reason : String) (rest : List Char) : Problem := ⟨reason, byteSize rest - 1⟩

/-- The line and the column behind some bytes of a text that begins at a line and a column. Lines are
counted from one, and a column is the number of bytes before it in its line. -/
def place : List Char → Nat → Nat × Nat → Nat × Nat
  | [], _, position => position
  | c :: rest, bytes, (line, column) =>
    if bytes < c.utf8Size then (line, column + bytes)
    else if c = '\n' then place rest (bytes - 1) (line + 1, 0)
    else place rest (bytes - c.utf8Size) (line, column + c.utf8Size)

/-- The message about a problem with a text. -/
def message (problem : Problem) (text : String) : String :=
  let cs := text.toList
  let (line, column) := place cs (byteSize cs - problem.left) (1, 0)
  problem.reason ++ " at line " ++ String.ofList (Number.digitChars line) ++ " column "
    ++ String.ofList (Number.digitChars column)

end Problem

/-- A value and the text behind it, or what is wrong. -/
abbrev Read (α : Type) := Except Problem (α × List Char)

namespace Read

variable {α β : Type}

/-- Go on with a value and the text behind it. -/
def andThen (read : Read α) (next : α → List Char → Read β) : Read β :=
  match read with
  | .error problem => .error problem
  | .ok (value, rest) => next value rest

def mapValue (change : α → β) (read : Read α) : Read β :=
  read.andThen (fun value rest => .ok (change value, rest))

end Read

def endOfValue : Problem := .behind "EOF while parsing a value" []

def endOfText : Problem := .behind "EOF while parsing a string" []

def endOfList : Problem := .behind "EOF while parsing a list" []

def endOfObject : Problem := .behind "EOF while parsing an object" []

def trailingComma (rest : List Char) : Problem := .upon "trailing comma" rest

def trailingCharacters (rest : List Char) : Problem := .upon "trailing characters" rest

def keyNeeded (rest : List Char) : Problem := .upon "key must be a string" rest

def valueNeeded (rest : List Char) : Problem := .upon "expected value" rest

def tooDeep (rest : List Char) : Problem := .upon "recursion limit exceeded" rest

end ScreenStudio.Json
