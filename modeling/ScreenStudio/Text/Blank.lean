/- digest: White space of Unicode, and trimming and splitting by it. -/

set_option autoImplicit false
set_option relaxedAutoImplicit false

namespace ScreenStudio.Text

def isBlank (c : Char) : Bool :=
  let code := c.toNat
  (0x09 ≤ code && code ≤ 0x0D) || code == 0x20 || code == 0x85 || code == 0xA0 || code == 0x1680 ||
    (0x2000 ≤ code && code ≤ 0x200A) || code == 0x2028 || code == 0x2029 || code == 0x202F ||
    code == 0x205F || code == 0x3000

def trimChars (cs : List Char) : List Char :=
  (((cs.dropWhile isBlank).reverse).dropWhile isBlank).reverse

/-- Drop leading and trailing blanks of a text. -/
def trim (text : String) : String := String.ofList (trimChars text.toList)

/-- Cut a list at every element that satisfies `separator`; the pieces between cuts may be empty. -/
def splitChars (separator : Char → Bool) : List Char → List (List Char)
  | [] => [[]]
  | c :: rest =>
    if separator c then [] :: splitChars separator rest
    else
      match splitChars separator rest with
      | [] => [[c]]
      | piece :: pieces => (c :: piece) :: pieces

/-- The pieces of a text between the characters that satisfy `separator`. -/
def split (separator : Char → Bool) (text : String) : List String :=
  (splitChars separator text.toList).map String.ofList

/-- The maximal runs of characters that are not blank. -/
def words (text : String) : List String :=
  (split isBlank text).filter (fun word => !word.isEmpty)

theorem splitChars_ne_nil (separator : Char → Bool) (cs : List Char) :
    splitChars separator cs ≠ [] := by
  cases cs with
  | nil => simp [splitChars]
  | cons c rest =>
    unfold splitChars
    split
    · simp
    · split <;> simp

end ScreenStudio.Text
