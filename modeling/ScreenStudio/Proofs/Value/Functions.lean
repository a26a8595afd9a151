/- digest: A property of all arrow functions that a value or a tree leads to. -/

import ScreenStudio.Proofs.Value.Reach

set_option autoImplicit false
set_option relaxedAutoImplicit false

namespace ScreenStudio

mutual

/-- Every arrow function that the value leads to has the property, and every callback is of the source. -/
inductive Value.Functions (holds : Closure → Prop) (source : String) : Value → Prop
  | null : Value.Functions holds source .null
  | bool (value : Bool) : Value.Functions holds source (.bool value)
  | number (value : Float) : Value.Functions holds source (.number value)
  | text (value : String) : Value.Functions holds source (.text value)
  | builtin (known : Builtin) : Value.Functions holds source (.builtin known)
  | adder (collector : Nat) : Value.Functions holds source (.adder collector)
  | array (identity : Nat) {items : List Value} (held : ∀ item ∈ items, Value.Functions holds source item) :
    Value.Functions holds source (.array identity items)
  | object (identity : Nat) {entries : List (String × Value)}
    (held : ∀ entry ∈ entries, Value.Functions holds source entry.2) :
    Value.Functions holds source (.object identity entries)
  | function {closure : Closure} (own : holds closure)
    (captured : ∀ binding ∈ closure.scope, Value.Functions holds source binding.2) :
    Value.Functions holds source (.function closure)
  | node (identity : Nat) {tree : Node} (held : Child.Functions holds source (.node tree)) :
    Value.Functions holds source (.node identity tree)

inductive Child.Functions (holds : Closure → Prop) (source : String) : Child → Prop
  | text (content : String) : Child.Functions holds source (.text content)
  | node (tag : String) {properties : List (String × Property)} {children : List Child}
    (own : ∀ entry ∈ properties, Property.Functions holds source entry.2)
    (inner : ∀ child ∈ children, Child.Functions holds source child) :
    Child.Functions holds source (.node (.mk tag properties children))

inductive Property.Functions (holds : Closure → Prop) (source : String) : Property → Prop
  | data (content : Json) : Property.Functions holds source (.data content)
  | action (content : String) : Property.Functions holds source (.handler (.action content))
  | callback {closure : Closure} (fresh : Nat) (held : Value.Functions holds source (.function closure)) :
    Property.Functions holds source (.handler (.callback closure source fresh))

end

variable {holds : Closure → Prop} {source : String}

/-- A handler that is an action, or a callback of the source with the property. -/
def Handler.Functions (holds : Closure → Prop) (source : String) (handler : Handler) : Prop :=
  Property.Functions holds source (.handler handler)

private theorem functions_propertyHandlers {properties : List (String × Property)}
    (held : ∀ entry ∈ properties, Property.Functions holds source entry.2) :
    ∀ entry ∈ Property.handlers properties, entry.2.Functions holds source := by
  induction properties with
  | nil => exact List.forall_mem_nil _
  | cons first rest ih =>
    obtain ⟨name, property⟩ := first
    obtain ⟨own, others⟩ := List.forall_mem_cons.mp held
    cases property with
    | data value => exact ih others
    | handler reaction => exact List.forall_mem_cons.mpr ⟨own, ih others⟩

mutual

theorem Node.functions_handlers : ∀ {tree : Node}, Child.Functions holds source (.node tree) →
    ∀ entry ∈ tree.handlers, entry.2.Functions holds source
  | .mk _ properties children, held => by
    cases held with
    | node tag own inner =>
      intro entry member
      rcases List.mem_append.mp member with here | within
      · exact functions_propertyHandlers own entry here
      · exact Child.functions_handlers inner entry within

theorem Child.functions_handlers : ∀ {children : List Child},
    (∀ child ∈ children, Child.Functions holds source child) →
    ∀ entry ∈ Child.handlers children, entry.2.Functions holds source
  | [], _ => List.forall_mem_nil _
  | .node tree :: rest, held => by
    obtain ⟨own, others⟩ := List.forall_mem_cons.mp held
    intro entry member
    rcases List.mem_append.mp member with first | behind
    · exact Node.functions_handlers own entry first
    · exact Child.functions_handlers others entry behind
  | .text _ :: rest, held => by
    obtain ⟨_, others⟩ := List.forall_mem_cons.mp held
    exact fun entry member => Child.functions_handlers others entry member

end

theorem Node.functions_callback {tree : Node} {property origin : String} {closure : Closure} {fresh : Nat}
    (held : Child.Functions holds source (.node tree))
    (among : (property, .callback closure origin fresh) ∈ tree.handlers) :
    Value.Functions holds source (.function closure) := by
  have own := Node.functions_handlers held _ among
  cases own with
  | callback _ held => exact held

theorem Value.cumulative_functions : Value.Cumulative (Value.Functions holds source) where
  null := .null
  bool := .bool
  number := .number
  text := .text
  array := .array _
  object := .object _

end ScreenStudio
