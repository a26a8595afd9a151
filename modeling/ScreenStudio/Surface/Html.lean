/- digest: What a surface shows as HTML text and as plain text. -/

import ScreenStudio.Surface.Element

set_option autoImplicit false
set_option relaxedAutoImplicit false

namespace ScreenStudio.Surface

def escapeChar (c : Char) : List Char :=
  match c with
  | '&' => ['&', 'a', 'm', 'p', ';']
  | '<' => ['&', 'l', 't', ';']
  | '>' => ['&', 'g', 't', ';']
  | '"' => ['&', 'q', 'u', 'o', 't', ';']
  | other => [other]

def escape (content : String) : List Char := content.toList.flatMap escapeChar

/-- Elements that have no content and no end tag. -/
def isVoid (tag : String) : Bool := ["img", "br", "hr", "input", "meta", "link"].contains tag

def attributeChars (name value : String) : List Char :=
  ' ' :: (name.toList ++ '=' :: '"' :: (escape value ++ ['"']))

/-- The value of the attribute that holds the style declarations. -/
def styleValue (style : List (String × String)) : String :=
  String.intercalate "; " (style.map (fun entry => entry.1 ++ ": " ++ entry.2))

def startTag (tag : String) (attributes style : List (String × String)) : List Char :=
  let declarations := if style.isEmpty then [] else attributeChars "style" (styleValue style)
  '<' :: (tag.toList ++ attributes.flatMap (fun entry => attributeChars entry.1 entry.2)
    ++ declarations ++ ['>'])

def endTag (tag : String) : List Char := '<' :: '/' :: (tag.toList ++ ['>'])

mutual

def htmlChars : Shown → List Char
  | .text content => escape content
  | .markup content => content.toList
  | .element element => elementChars element

def elementChars : Element → List Char
  | .mk tag attributes style _ children =>
    startTag tag attributes style
      ++ if isVoid tag then [] else childrenChars children ++ endTag tag

/-- Several things shown one behind the other, in HTML. -/
def childrenChars : List Shown → List Char
  | [] => []
  | shown :: rest => htmlChars shown ++ childrenChars rest

end

mutual

def textOf : Shown → String
  | .text content => content
  | .markup _ => ""
  | .element element => elementText element

def elementText : Element → String
  | .mk _ _ _ _ children => childrenText children

def childrenText : List Shown → String
  | [] => ""
  | shown :: rest => textOf shown ++ childrenText rest

end

mutual

/-- The elements with listeners in something shown, in document order. -/
def interactiveOf : Shown → List Element
  | .text _ => []
  | .markup _ => []
  | .element element => elementInteractive element

/-- An element if it has listeners, and those below it. -/
def elementInteractive : Element → List Element
  | .mk tag attributes style listeners children =>
    (if listeners.isEmpty then [] else [⟨tag, attributes, style, listeners, children⟩])
      ++ childrenInteractive children

/-- The elements with listeners in several things shown. -/
def childrenInteractive : List Shown → List Element
  | [] => []
  | shown :: rest => interactiveOf shown ++ childrenInteractive rest

end

end ScreenStudio.Surface
