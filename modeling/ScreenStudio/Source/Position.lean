/- digest: Byte offsets, spans, and lines and columns of a source text. -/

set_option autoImplicit false
set_option relaxedAutoImplicit false

namespace ScreenStudio.Source

/-- The bytes from `start` up to but not including `stop`. -/
structure Span where
  start : Nat
  stop : Nat
  deriving DecidableEq, Repr, Inhabited

/-- A line and a column, both counted from one. -/
structure Position where
  line : Nat
  column : Nat
  deriving DecidableEq, Repr

def Position.after (position : Position) (c : Char) : Position :=
  if c = '\n' then ⟨position.line + 1, 1⟩ else ⟨position.line, position.column + 1⟩

def byteLength : List Char → Nat
  | [] => 0
  | c :: rest => c.utf8Size + byteLength rest

/-- Walk over the characters that start before `offset`; the next one starts at `index`. -/
def positionFrom (position : Position) (index offset : Nat) : List Char → Position
  | [] => position
  | c :: rest =>
    if offset ≤ index then position
    else positionFrom (position.after c) (index + c.utf8Size) offset rest

/-- The line and column of a byte offset. -/
def positionAt (source : String) (offset : Nat) : Position :=
  positionFrom ⟨1, 1⟩ 0 offset source.toList

end ScreenStudio.Source
