/- digest: What a surface shows, and how a node tree becomes it. -/

import ScreenStudio.Json.Writer
import ScreenStudio.Text.Lowercase
import ScreenStudio.Value.Text
import ScreenStudio.Value.Tree

set_option autoImplicit false
set_option relaxedAutoImplicit false

namespace ScreenStudio

mutual

/-- Something shown on a surface. -/
inductive Shown
  | text (content : String)
  | element (element : Element)
  | markup (content : String)

/-- An element with attributes and style in ascending order and listeners by event. -/
structure Element where
  tag : String
  attributes : List (String × String)
  style : List (String × String)
  listeners : List (String × Handler)
  children : List Shown

end

/-- The handler for an event; of several the first. -/
def Element.listener? (event : String) (element : Element) : Option Handler :=
  Dictionary.get? event element.listeners

namespace Surface

/-- The attributes, style declarations and listeners that properties give an element. -/
structure Dress where
  attributes : List (String × String)
  style : List (String × String)
  listeners : List (String × Handler)

def Dress.empty : Dress := ⟨[], [], []⟩

/-- The event that the name of a property asks to listen for. -/
def eventOf? (name : String) : Option String :=
  match name.toList with
  | 'o' :: 'n' :: c :: rest => some (Text.lower (String.ofList (c :: rest)))
  | _ => none

/-- The name of a style declaration: `maxWidth` becomes `max-width`. -/
def styleName (name : String) : String :=
  String.ofList (name.toList.flatMap (fun c => if c.isUpper then ['-', c.toLower] else [c]))

/-- The text of an attribute; null gives none. -/
def attributeText? (value : Json) : Option String :=
  match value with
  | .null => none
  | .text content => some content
  | .integer number => some (Number.display (Number.ofInt number))
  | .double number => some (Number.display number)
  | other => some other.compact

/-- The text of a style declaration; numbers count pixels. -/
def styleText? (value : Json) : Option String :=
  match value.toFloat? with
  | some number => some (Number.display number ++ "px")
  | none => attributeText? value

/-- The declarations after one more entry of a style object. -/
def addDeclaration (style : List (String × String)) (entry : String × Json) :
    List (String × String) :=
  match styleText? entry.2 with
  | some content => Dictionary.insert (styleName entry.1) content style
  | none => style

/-- The name of the attribute that a property becomes. -/
def attributeName (name : String) : String := if name = "className" then "class" else name

def Dress.add (dress : Dress) (property : String × Property) : Dress :=
  match property.2 with
  | .handler handler =>
    match eventOf? property.1 with
    | some event => { dress with listeners := dress.listeners ++ [(event, handler)] }
    | none => dress
  | .data value =>
    match value.entries?, decide (property.1 = "style") with
    | some entries, true => { dress with style := entries.foldl addDeclaration dress.style }
    | _, _ =>
      match attributeText? value with
      | some content => { dress with
          attributes := Dictionary.insert (attributeName property.1) content dress.attributes }
      | none => dress

def dressOf (properties : List (String × Property)) : Dress := properties.foldl Dress.add .empty

end Surface

namespace Node

mutual

def materialize : Node → Element
  | .mk tag properties children =>
    let dress := Surface.dressOf properties
    ⟨tag, dress.attributes, dress.style, dress.listeners, materializeChildren children⟩

def materializeChildren : List Child → List Shown
  | [] => []
  | .node node :: rest => .element node.materialize :: materializeChildren rest
  | .text content :: rest => .text content :: materializeChildren rest

end

end Node

end ScreenStudio
