/- digest: The tree of a screen is put together from the elements that the vocabulary's builders make. -/

import ScreenStudio.Proofs.Evaluation.Lawful
import ScreenStudio.Proofs.Value.Reach

set_option autoImplicit false
set_option relaxedAutoImplicit false

namespace ScreenStudio

open Evaluation (Built Law Point)

/-- Every element of the tree is made by a builder. -/
inductive Child.Assembled (known : Builtin → Prop) : Child → Prop
  | text (content : String) : Child.Assembled known (.text content)
  | node {tag : String} {properties : List (String × Property)} {children : List Child}
    (own : Built known tag properties children)
    (inner : ∀ child ∈ children, Child.Assembled known child) :
    Child.Assembled known (.node (.mk tag properties children))

/-- The value leads to assembled trees and to known builtins only. -/
inductive Value.Assembled (known : Builtin → Prop) : Value → Prop
  | null : Value.Assembled known .null
  | bool (value : Bool) : Value.Assembled known (.bool value)
  | number (value : Float) : Value.Assembled known (.number value)
  | text (value : String) : Value.Assembled known (.text value)
  | builtin {function : Builtin} (own : known function) : Value.Assembled known (.builtin function)
  | adder (collector : Nat) : Value.Assembled known (.adder collector)
  | array (identity : Nat) {items : List Value} (held : ∀ item ∈ items, Value.Assembled known item) :
    Value.Assembled known (.array identity items)
  | object (identity : Nat) {entries : List (String × Value)}
    (held : ∀ entry ∈ entries, Value.Assembled known entry.2) :
    Value.Assembled known (.object identity entries)
  | function {closure : Closure}
    (captured : ∀ binding ∈ closure.scope, Value.Assembled known binding.2) :
    Value.Assembled known (.function closure)
  | node (identity : Nat) {tree : Node} (held : Child.Assembled known (.node tree)) :
    Value.Assembled known (.node identity tree)

variable {known : Builtin → Prop}

theorem Value.cumulative_assembled : Value.Cumulative (Value.Assembled known) where
  null := .null
  bool := .bool
  number := .number
  text := .text
  array := .array _
  object := .object _

namespace Evaluation

theorem Built.mono {also : Builtin → Prop} (more : ∀ function, known function → also function)
    {tag : String} {properties : List (String × Property)} {children : List Child}
    (built : Built known tag properties children) : Built also tag properties children := by
  cases built with
  | block named => exact .block named children
  | button named content => exact .button named content
  | image named => exact .image named
  | label own content => exact .label (more _ own) content

/-- The law of trees that are assembled and of builtins that are known. -/
def Law.assembled (known : Builtin → Prop) (source : String) : Law source where
  value _ := Value.Assembled known
  child _ := Child.Assembled known
  property _ _ := True
  placed _ _ := True
  reached _ := True
  failure _ := True
  value_mono _ held := held
  child_mono _ held := held
  property_mono _ _ := trivial
  null := .null
  bool := .bool
  number := .number
  text := .text
  adder _ := .adder _
  array _ held := .array _ held
  item held := by
    cases held with
    | array identity items => exact items
  object _ held := .object _ held
  entry held := by
    cases held with
    | object identity entries => exact entries
  arrow _ captured := .function captured
  captured held := by
    cases held with
    | function captured => exact captured
  node _ held := .node _ held
  tree held := by
    cases held with
    | node identity tree => exact tree
  element built _ inner := .node (built.mono (fun function held => by
    cases held with
    | builtin own => exact own)) inner
  childText := .text
  data _ := trivial
  action _ := trivial
  callback _ _ := trivial
  parts _ _ _ := trivial
  inside _ _ _ := trivial
  behind _ _ _ := trivial
  body _ _ := trivial
  raised _ _ _ _ := trivial
  unbound _ _ _ := trivial

theorem assembled_screenFrom {next : Nat} {source : String} {vocabulary : Vocabulary} {state : Json}
    {host : Recording} {root : Node}
    (made : (screenFrom next source vocabulary state host).1 = .ok root) :
    Child.Assembled (· ∈ vocabulary.builders ++ Vocabulary.hostFunctions) (.node root) := by
  cases read : Source.program source with
  | error error =>
    unfold screenFrom at made
    rw [read] at made
    cases made
  | ok statements =>
    have here : (Law.assembled (· ∈ vocabulary.builders ++ Vocabulary.hostFunctions) source).At
        (Point.screen next vocabulary state host statements) :=
      Law.at_screen_of_vocabulary (fun _ member => .builtin member)
        (Value.holds_ofJson Value.cumulative_assembled state next) trivial trivial
    obtain ⟨_, held⟩ := Law.holds_of_screenFrom here read made
    exact held

end Evaluation

end ScreenStudio
