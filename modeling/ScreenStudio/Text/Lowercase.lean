/- digest: Small letters of a text. -/

import ScreenStudio.Text.CaseTable

set_option autoImplicit false
set_option relaxedAutoImplicit false

namespace ScreenStudio.Text

/-- The code point lies in one of the ranges. -/
def inRanges (ranges : List (Nat × Nat)) (code : Nat) : Bool :=
  ranges.any (fun range => range.1 ≤ code && code ≤ range.2)

def isCaseIgnorable (c : Char) : Bool := inRanges caseIgnorableRanges c.toNat

def isCased (c : Char) : Bool := inRanges casedRanges c.toNat

/-- The first character that is not case ignorable is cased. -/
def meetsCased (cs : List Char) : Bool :=
  match cs.dropWhile isCaseIgnorable with
  | [] => false
  | c :: _ => isCased c

/-- The small form of a character, or the character itself. -/
def smallForm (c : Char) : Char :=
  let code := c.toNat
  match smallForms.find? (fun run =>
      run.first ≤ code && code ≤ run.last && (code - run.first) % run.stride == 0) with
  | some run => Char.ofNat ((code : Int) + run.shift).toNat
  | none => c

/-- The small letters of what follows `before`, which stands in reverse. -/
def lowerAfter (before : List Char) : List Char → List Char
  | [] => []
  | c :: rest =>
    let small :=
      if c = 'Σ' then [if meetsCased before && !meetsCased rest then 'ς' else 'σ']
      else if c = 'İ' then ['i', '\u0307']
      else [smallForm c]
    small ++ lowerAfter (c :: before) rest

def lower (text : String) : String := String.ofList (lowerAfter [] text.toList)

end ScreenStudio.Text
