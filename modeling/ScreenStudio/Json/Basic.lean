/- digest: Documents of null, truth values, numbers, texts, arrays and objects. -/

import ScreenStudio.Dictionary
import ScreenStudio.Number.Binary

set_option autoImplicit false
set_option relaxedAutoImplicit false

namespace ScreenStudio

inductive Json
  | null
  | bool (value : Bool)
  | integer (value : Int)
  | double (value : Float)
  | text (value : String)
  | array (items : List Json)
  | object (entries : List (String × Json))
  deriving Inhabited

namespace Json

/-- The integers that a document can hold: signed or unsigned words of 64 bits. -/
def FitsWord (value : Int) : Prop := -2 ^ 63 ≤ value ∧ value < 2 ^ 64

mutual

/-- The document is one that reading can produce. -/
def WellFormed : Json → Prop
  | .null => True
  | .bool _ => True
  | .integer value => FitsWord value
  | .double value => Number.isFinite value = true
  | .text _ => True
  | .array items => ItemsWellFormed items
  | .object entries => Dictionary.Ascending entries ∧ EntriesWellFormed entries

def ItemsWellFormed : List Json → Prop
  | [] => True
  | item :: rest => WellFormed item ∧ ItemsWellFormed rest

/-- Every value of the entries is well formed. -/
def EntriesWellFormed : List (String × Json) → Prop
  | [] => True
  | (_, value) :: rest => WellFormed value ∧ EntriesWellFormed rest

end

mutual

/-- How many containers stand one inside the other, this one included. -/
def depth : Json → Nat
  | .array items => itemsDepth items + 1
  | .object entries => entriesDepth entries + 1
  | _ => 0

def itemsDepth : List Json → Nat
  | [] => 0
  | item :: rest => max (depth item) (itemsDepth rest)

def entriesDepth : List (String × Json) → Nat
  | [] => 0
  | (_, value) :: rest => max (depth value) (entriesDepth rest)

end

mutual

/-- Equality of documents. Integers and doubles never agree; doubles agree as numbers. -/
def agrees : Json → Json → Bool
  | .null, .null => true
  | .bool a, .bool b => a == b
  | .integer a, .integer b => a == b
  | .double a, .double b => a == b
  | .text a, .text b => a == b
  | .array a, .array b => itemsAgree a b
  | .object a, .object b => entriesAgree a b
  | _, _ => false

def itemsAgree : List Json → List Json → Bool
  | [], [] => true
  | a :: as, b :: bs => agrees a b && itemsAgree as bs
  | _, _ => false

def entriesAgree : List (String × Json) → List (String × Json) → Bool
  | [], [] => true
  | (k, a) :: as, (l, b) :: bs => k == l && agrees a b && entriesAgree as bs
  | _, _ => false

end

def entries? : Json → Option (List (String × Json))
  | .object entries => some entries
  | _ => none

def get? (key : String) (json : Json) : Option Json :=
  json.entries?.bind (Dictionary.get? key)

/-- The number that a document holds, as a double. -/
def toFloat? : Json → Option Float
  | .integer value => some (Number.ofInt value)
  | .double value => some value
  | _ => none

end Json

end ScreenStudio
