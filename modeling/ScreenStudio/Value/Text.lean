/- digest: Values as text and as numbers, and when two values are the same. -/

import ScreenStudio.Number.Notation
import ScreenStudio.Number.Reading
import ScreenStudio.Value.Basic

set_option autoImplicit false
set_option relaxedAutoImplicit false

namespace ScreenStudio.Value

mutual

def display : Value → String
  | .null => "null"
  | .bool value => if value then "true" else "false"
  | .number value => Number.display value
  | .text value => value
  | .array _ items => String.intercalate "," (displayItems items)
  | .object _ _ => "[object Object]"
  | .function _ => "[function]"
  | .builtin known => "[function " ++ known.name ++ "]"
  | .adder _ => "[function]"
  | .node _ tree => "[node " ++ tree.tag ++ "]"

/-- The texts of the items of an array; a null item is empty. -/
def displayItems : List Value → List String
  | [] => []
  | .null :: rest => "" :: displayItems rest
  | item :: rest => display item :: displayItems rest

end

def toNumber : Value → Float
  | .null => 0
  | .bool value => if value then 1 else 0
  | .number value => value
  | .text value => Number.ofText value
  | _ => Number.nan

def same : Value → Value → Bool
  | .null, .null => true
  | .bool a, .bool b => a == b
  | .number a, .number b => a == b
  | .text a, .text b => a == b
  | .array a _, .array b _ => a == b
  | .object a _, .object b _ => a == b
  | .function a, .function b => a.span == b.span
  | .builtin a, .builtin b => a.name == b.name
  | .adder a, .adder b => a == b
  | .node a _, .node b _ => a == b
  | _, _ => false

end ScreenStudio.Value
