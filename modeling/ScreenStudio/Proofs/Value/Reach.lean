/- digest: The parts of a value, and what stands in the way of its document. -/

import ScreenStudio.Proofs.Value.InStep

set_option autoImplicit false
set_option relaxedAutoImplicit false

namespace ScreenStudio.Value

/-- The value itself and what stands in it at any depth of arrays and objects. -/
inductive Holds : Value → Value → Prop
  | self (value : Value) : Holds value value
  | item {identity : Nat} {items : List Value} {item part : Value} (member : item ∈ items)
    (inner : Holds item part) : Holds (.array identity items) part
  | entry {identity : Nat} {entries : List (String × Value)} {entry : String × Value} {part : Value}
    (member : entry ∈ entries) (inner : Holds entry.2 part) : Holds (.object identity entries) part

/-- What stands in the value at any depth, also in the bindings that its arrow functions have
captured. -/
inductive Reaches : Value → Value → Prop
  | self (value : Value) : Reaches value value
  | item {identity : Nat} {items : List Value} {item part : Value} (member : item ∈ items)
    (inner : Reaches item part) : Reaches (.array identity items) part
  | entry {identity : Nat} {entries : List (String × Value)} {entry : String × Value} {part : Value}
    (member : entry ∈ entries) (inner : Reaches entry.2 part) : Reaches (.object identity entries) part
  | captured {closure : Closure} {binding : String × Value} {part : Value}
    (member : binding ∈ closure.scope) (inner : Reaches binding.2 part) :
    Reaches (.function closure) part

theorem Holds.reaches {value part : Value} (holds : value.Holds part) : value.Reaches part := by
  induction holds with
  | self value => exact .self value
  | item member inner ih => exact .item member ih
  | entry member inner ih => exact .entry member ih

theorem below_of_reaches {bound : Nat} {value part : Value} (reaches : value.Reaches part)
    (below : value.Below bound) : part.Below bound := by
  induction reaches with
  | self value => exact below
  | item member inner ih => exact ih (itemsBelow_iff.mp below.2 _ member)
  | entry member inner ih => exact ih (entriesBelow_iff.mp below.2 _ member)
  | @captured closure binding part member inner ih =>
    obtain ⟨span, parameters, body, scope⟩ := closure
    exact ih (entriesBelow_iff.mp below _ member)

/-- Null, truth values, numbers and texts have the property, and arrays and objects have it if what stands
in them has it. -/
structure Cumulative (holds : Value → Prop) : Prop where
  null : holds .null
  bool : ∀ value, holds (.bool value)
  number : ∀ value, holds (.number value)
  text : ∀ value, holds (.text value)
  array : ∀ {identity items}, (∀ item ∈ items, holds item) → holds (.array identity items)
  object : ∀ {identity entries}, (∀ entry ∈ entries, holds entry.2) → holds (.object identity entries)

section Cumulative

variable {holds : Value → Prop}

mutual

theorem holds_ofJson (cumulative : Cumulative holds) :
    ∀ (json : Json) (next : Nat), holds (ofJson next json).1
  | .null, _ => cumulative.null
  | .bool value, _ => cumulative.bool value
  | .integer _, _ => cumulative.number _
  | .double value, _ => cumulative.number value
  | .text value, _ => cumulative.text value
  | .array items, next => cumulative.array (holds_ofItems cumulative items (next + 1))
  | .object entries, next => cumulative.object (holds_ofEntries cumulative entries (next + 1))

theorem holds_ofItems (cumulative : Cumulative holds) :
    ∀ (items : List Json) (next : Nat), ∀ item ∈ (ofItems next items).1, holds item
  | [], _ => List.forall_mem_nil _
  | item :: rest, next =>
    List.forall_mem_cons.mpr ⟨holds_ofJson cumulative item next, holds_ofItems cumulative rest _⟩

theorem holds_ofEntries (cumulative : Cumulative holds) :
    ∀ (entries : List (String × Json)) (next : Nat), ∀ entry ∈ (ofEntries next entries).1, holds entry.2
  | [], _ => List.forall_mem_nil _
  | (_, item) :: rest, next =>
    List.forall_mem_cons.mpr ⟨holds_ofJson cumulative item next, holds_ofEntries cumulative rest _⟩

end

end Cumulative

/-- The value is a builtin, an adder or a node: something that acts on a host or a tree, or is part of
one. -/
def IsCapability : Value → Prop
  | .builtin _ => True
  | .adder _ => True
  | .node _ _ => True
  | _ => False

/-- The value reaches no builtin, no adder and no node. -/
def Powerless (value : Value) : Prop := ∀ part, value.Reaches part → ¬ part.IsCapability

section Powerless

theorem powerless_array {identity : Nat} {items : List Value} :
    (array identity items).Powerless ↔ ∀ item ∈ items, item.Powerless := by
  constructor
  · intro powerless item member part reaches
    exact powerless part (.item member reaches)
  · intro held part reaches
    cases reaches with
    | self => exact id
    | item member inner => exact held _ member part inner

theorem powerless_object {identity : Nat} {entries : List (String × Value)} :
    (object identity entries).Powerless ↔ ∀ entry ∈ entries, entry.2.Powerless := by
  constructor
  · intro powerless entry member part reaches
    exact powerless part (.entry member reaches)
  · intro held part reaches
    cases reaches with
    | self => exact id
    | entry member inner => exact held _ member part inner

theorem powerless_function {closure : Closure} :
    (function closure).Powerless ↔ ∀ binding ∈ closure.scope, binding.2.Powerless := by
  constructor
  · intro powerless binding member part reaches
    exact powerless part (.captured member reaches)
  · intro held part reaches
    cases reaches with
    | self => exact id
    | captured member inner => exact held _ member part inner

private theorem powerless_leaf {value : Value} (leaf : ∀ part, value.Reaches part → part = value)
    (free : ¬ value.IsCapability) : value.Powerless := by
  intro part reaches
  rw [leaf part reaches]
  exact free

theorem powerless_null : null.Powerless :=
  powerless_leaf (fun _ reaches => by cases reaches; rfl) id

theorem powerless_bool (value : Bool) : (bool value).Powerless :=
  powerless_leaf (fun _ reaches => by cases reaches; rfl) id

theorem powerless_number (value : Float) : (number value).Powerless :=
  powerless_leaf (fun _ reaches => by cases reaches; rfl) id

theorem powerless_text (value : String) : (text value).Powerless :=
  powerless_leaf (fun _ reaches => by cases reaches; rfl) id

theorem cumulative_powerless : Cumulative Powerless where
  null := powerless_null
  bool := powerless_bool
  number := powerless_number
  text := powerless_text
  array := powerless_array.mpr
  object := powerless_object.mpr

end Powerless

section Document

/-- What stands in the way of a document: an arrow function, which the failure names as a function, or
something that acts. -/
def Blocks (kind : Kind) (part : Value) : Prop :=
  (kind = .function ∧ ∃ closure, part = .function closure) ∨ part.IsCapability

mutual

theorem blocks_of_toJson : ∀ {value : Value} {kind : Kind}, toJson value = .error kind →
    ∃ part, value.Holds part ∧ Blocks kind part
  | .null, _, failed => nomatch failed
  | .bool _, _, failed => nomatch failed
  | .number _, _, failed => nomatch failed
  | .text _, _, failed => nomatch failed
  | .array _ items, kind, failed => by
    rw [toJson] at failed
    cases converted : itemsToJson items with
    | ok documents =>
      rw [converted] at failed
      cases failed
    | error other =>
      rw [converted] at failed
      cases failed
      obtain ⟨item, member, part, holds, blocks⟩ := blocks_of_itemsToJson converted
      exact ⟨part, .item member holds, blocks⟩
  | .object _ entries, kind, failed => by
    rw [toJson] at failed
    cases converted : entriesToJson entries with
    | ok documents =>
      rw [converted] at failed
      cases failed
    | error other =>
      rw [converted] at failed
      cases failed
      obtain ⟨entry, member, part, holds, blocks⟩ := blocks_of_entriesToJson converted
      exact ⟨part, .entry member holds, blocks⟩
  | .function closure, kind, failed => by
    cases failed
    exact ⟨_, .self _, .inl ⟨rfl, closure, rfl⟩⟩
  | .builtin known, _, _ => ⟨_, .self (.builtin known), .inr trivial⟩
  | .adder collector, _, _ => ⟨_, .self (.adder collector), .inr trivial⟩
  | .node identity tree, _, _ => ⟨_, .self (.node identity tree), .inr trivial⟩

theorem blocks_of_itemsToJson : ∀ {items : List Value} {kind : Kind}, itemsToJson items = .error kind →
    ∃ item ∈ items, ∃ part, item.Holds part ∧ Blocks kind part
  | [], _, failed => nomatch failed
  | item :: rest, kind, failed => by
    rw [itemsToJson] at failed
    cases first : toJson item with
    | error other =>
      rw [first] at failed
      cases failed
      exact ⟨item, List.mem_cons_self, blocks_of_toJson first⟩
    | ok json =>
      cases others : itemsToJson rest with
      | error other =>
        rw [first, others] at failed
        cases failed
        obtain ⟨blocked, member, found⟩ := blocks_of_itemsToJson others
        exact ⟨blocked, List.mem_cons_of_mem _ member, found⟩
      | ok more =>
        rw [first, others] at failed
        cases failed

theorem blocks_of_entriesToJson : ∀ {entries : List (String × Value)} {kind : Kind},
    entriesToJson entries = .error kind →
    ∃ entry ∈ entries, ∃ part, entry.2.Holds part ∧ Blocks kind part
  | [], _, failed => nomatch failed
  | (key, item) :: rest, kind, failed => by
    rw [entriesToJson] at failed
    cases first : toJson item with
    | error other =>
      rw [first] at failed
      cases failed
      exact ⟨(key, item), List.mem_cons_self, blocks_of_toJson first⟩
    | ok json =>
      cases others : entriesToJson rest with
      | error other =>
        rw [first, others] at failed
        cases failed
        obtain ⟨blocked, member, found⟩ := blocks_of_entriesToJson others
        exact ⟨blocked, List.mem_cons_of_mem _ member, found⟩
      | ok more =>
        rw [first, others] at failed
        cases failed

end

theorem function_of_toJson {value : Value} (powerless : value.Powerless) {kind : Kind}
    (failed : value.toJson = .error kind) :
    kind = .function ∧ ∃ closure, value.Holds (.function closure) := by
  obtain ⟨part, holds, ⟨named, closure, rfl⟩ | acts⟩ := blocks_of_toJson failed
  · exact ⟨named, closure, holds⟩
  · exact absurd acts (powerless part holds.reaches)

end Document

end ScreenStudio.Value
