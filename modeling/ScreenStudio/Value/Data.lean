/- digest: Documents as values and values as documents. -/

import ScreenStudio.Value.Basic

set_option autoImplicit false
set_option relaxedAutoImplicit false

namespace ScreenStudio

def Json.ofFloat (value : Float) : Json :=
  if Number.isFinite value then
    match Number.toInt? value with
    | some whole => if whole.natAbs < 2 ^ 53 then .integer whole else .double value
    | none => .double value
  else .null

namespace Value

mutual

/-- The value of a document and the next free identity. -/
def ofJson (next : Nat) : Json → Value × Nat
  | .null => (.null, next)
  | .bool value => (.bool value, next)
  | .integer value => (.number (Number.ofInt value), next)
  | .double value => (.number value, next)
  | .text value => (.text value, next)
  | .array items =>
    let (values, after) := ofItems (next + 1) items
    (.array next values, after)
  | .object entries =>
    let (values, after) := ofEntries (next + 1) entries
    (.object next values, after)

/-- The values of some documents and the next free identity. -/
def ofItems (next : Nat) : List Json → List Value × Nat
  | [] => ([], next)
  | item :: rest =>
    let (value, middle) := ofJson next item
    let (values, after) := ofItems middle rest
    (value :: values, after)

/-- The values of some entries and the next free identity. -/
def ofEntries (next : Nat) : List (String × Json) → List (String × Value) × Nat
  | [] => ([], next)
  | (key, item) :: rest =>
    let (value, middle) := ofJson next item
    let (values, after) := ofEntries middle rest
    ((key, value) :: values, after)

end

mutual

/-- The document of a value, or the kind of the first part that is no data. -/
def toJson : Value → Except Kind Json
  | .null => .ok .null
  | .bool value => .ok (.bool value)
  | .number value => .ok (Json.ofFloat value)
  | .text value => .ok (.text value)
  | .array _ items => (itemsToJson items).map Json.array
  | .object _ entries => (entriesToJson entries).map Json.object
  | .function _ => .error .function
  | .builtin _ => .error .function
  | .adder _ => .error .function
  | .node _ _ => .error .node

def itemsToJson : List Value → Except Kind (List Json)
  | [] => .ok []
  | item :: rest => do
    let json ← toJson item
    let more ← itemsToJson rest
    return json :: more

def entriesToJson : List (String × Value) → Except Kind (List (String × Json))
  | [] => .ok []
  | (key, item) :: rest => do
    let json ← toJson item
    let more ← entriesToJson rest
    return (key, json) :: more

end

end Value

end ScreenStudio
