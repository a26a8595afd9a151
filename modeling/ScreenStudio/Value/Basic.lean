/- digest: Values of the screen language, node trees and scopes. -/

import ScreenStudio.Json.Basic
import ScreenStudio.Source.Syntax

/-!
Arrays, objects and nodes have an identity: a number that no other container of the same run has.
Two containers are the same exactly when their identities agree. The adder of a container is known by
the identity of the collector it adds to. An arrow function is known by its place in the source.

A scope is a list of bindings, the innermost first. A closure is an arrow function with the scope it
was met in. A callback also keeps the source its spans refer to and a bound `fresh` that is above
every identity in its scope.
-/

set_option autoImplicit false
set_option relaxedAutoImplicit false

namespace ScreenStudio

/-- What a builtin function does. A label builder makes an element of the given tag around the text
of its first argument. -/
inductive Behaviour
  | column
  | row
  | text
  | button
  | image
  | lazyColumn
  | render
  | execute
  | log
  | label (tag : String)
  deriving DecidableEq, Repr

/-- A function of the vocabulary under its name. -/
structure Builtin where
  name : String
  behaviour : Behaviour
  deriving DecidableEq, Repr

mutual

inductive Value
  | null
  | bool (value : Bool)
  | number (value : Float)
  | text (value : String)
  | array (identity : Nat) (items : List Value)
  | object (identity : Nat) (entries : List (String × Value))
  | function (closure : Closure)
  | builtin (builtin : Builtin)
  | adder (collector : Nat)
  | node (identity : Nat) (node : Node)

/-- An arrow function with the bindings it can see. -/
structure Closure where
  span : Source.Span
  parameters : List String
  body : Source.Body
  scope : List (String × Value)

/-- An element with its properties in ascending order and its children. -/
structure Node where
  tag : String
  properties : List (String × Property)
  children : List Child

/-- A child of an element. -/
inductive Child
  | node (node : Node)
  | text (content : String)

/-- A property of an element. -/
inductive Property
  | data (value : Json)
  | handler (handler : Handler)

/-- What happens when someone interacts with an element. -/
inductive Handler
  | action (text : String)
  | callback (closure : Closure) (source : String) (fresh : Nat)

end

/-- The bindings that a piece of source can see, the innermost first. -/
abbrev Scope := List (String × Value)

instance : Inhabited Value := ⟨.null⟩

namespace Scope

def bind (name : String) (value : Value) (scope : List (String × Value)) : List (String × Value) :=
  (name, value) :: scope

/-- The value of the innermost binding of a name. -/
def lookup? (name : String) : List (String × Value) → Option Value
  | [] => none
  | (bound, value) :: outer => if bound = name then some value else lookup? name outer

end Scope

/-- The kinds of values, as messages name them. -/
inductive Kind
  | null
  | boolean
  | number
  | string
  | array
  | object
  | function
  | node
  deriving DecidableEq, Repr

def Kind.name : Kind → String
  | .null => "null"
  | .boolean => "boolean"
  | .number => "number"
  | .string => "string"
  | .array => "array"
  | .object => "object"
  | .function => "function"
  | .node => "node"

namespace Value

def kind : Value → Kind
  | .null => .null
  | .bool _ => .boolean
  | .number _ => .number
  | .text _ => .string
  | .array _ _ => .array
  | .object _ _ => .object
  | .function _ => .function
  | .builtin _ => .function
  | .adder _ => .function
  | .node _ _ => .node

def isCallable (value : Value) : Bool := value.kind == .function

def isTruthy : Value → Bool
  | .null => false
  | .bool value => value
  | .number value => value != 0 && value == value
  | .text value => !value.isEmpty
  | _ => true

end Value

namespace Node

mutual

/-- The text of all descendants in document order. -/
def textContent : Node → String
  | .mk _ _ children => childrenText children

def childrenText : List Child → String
  | [] => ""
  | .node node :: rest => node.textContent ++ childrenText rest
  | .text content :: rest => content ++ childrenText rest

end

end Node

end ScreenStudio
