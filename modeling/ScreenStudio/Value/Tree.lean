/- digest: Node trees as documents, and when two trees are equal. -/

import ScreenStudio.Value.Basic

set_option autoImplicit false
set_option relaxedAutoImplicit false

namespace ScreenStudio

def Handler.toJson : Handler → Json
  | .action text => .object [("action", .text text)]
  | .callback .. => .object [("handler", .text "function")]

def Property.toJson : Property → Json
  | .data value => value
  | .handler reaction => reaction.toJson

/-- Two handlers do the same by name: one action text, or one function of one source. -/
def Handler.agrees : Handler → Handler → Bool
  | .action a, .action b => a == b
  | .callback a sourceA _, .callback b sourceB _ => a.span == b.span && sourceA == sourceB
  | _, _ => false

def Property.agrees : Property → Property → Bool
  | .data a, .data b => Json.agrees a b
  | .handler a, .handler b => a.agrees b
  | _, _ => false

/-- Two property lists hold the same under the same names. -/
def Property.listAgrees : List (String × Property) → List (String × Property) → Bool
  | [], [] => true
  | (k, a) :: as, (l, b) :: bs => k == l && a.agrees b && listAgrees as bs
  | _, _ => false

namespace Node

mutual

def toJson : Node → Json
  | .mk tag properties children =>
    .object [("tag", .text tag),
      ("props", .object (properties.map (fun entry => (entry.1, entry.2.toJson)))),
      ("children", .array (childrenToJson children))]

def childrenToJson : List Child → List Json
  | [] => []
  | .node node :: rest => node.toJson :: childrenToJson rest
  | .text content :: rest => .text content :: childrenToJson rest

end

mutual

def agrees : Node → Node → Bool
  | .mk tagA propertiesA childrenA, .mk tagB propertiesB childrenB =>
    tagA == tagB && Property.listAgrees propertiesA propertiesB
      && childrenAgree childrenA childrenB

def childrenAgree : List Child → List Child → Bool
  | [], [] => true
  | .node a :: as, .node b :: bs => a.agrees b && childrenAgree as bs
  | .text a :: as, .text b :: bs => a == b && childrenAgree as bs
  | _, _ => false

end

end Node

end ScreenStudio
