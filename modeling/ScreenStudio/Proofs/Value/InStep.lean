/- digest: Renamings that count in step, and documents, trees and handlers under them. -/

import ScreenStudio.Proofs.Value.Renaming
import ScreenStudio.Value.Data
import ScreenStudio.Value.Tree

set_option autoImplicit false
set_option relaxedAutoImplicit false

namespace ScreenStudio

/-- A one-to-one renaming that counts on in step from `start` on. -/
structure Renaming where
  relabel : Nat → Nat
  start : Nat
  injective : ∀ {a b}, relabel a = relabel b → a = b
  inStep : ∀ count, relabel (start + count) = relabel start + count

namespace Renaming

theorem relabel_succ (map : Renaming) {next : Nat} (reached : map.start ≤ next) :
    map.relabel (next + 1) = map.relabel next + 1 := by
  obtain ⟨count, rfl⟩ := Nat.exists_eq_add_of_le reached
  rw [Nat.add_assoc, map.inStep, map.inStep, Nat.add_assoc]

/-- Everything from `fresh` on is moved to `later`, and everything below by `distance`. -/
def splice (distance fresh later : Nat) (behind : fresh + distance ≤ later) : Renaming where
  relabel identity := if identity < fresh then identity + distance else later + (identity - fresh)
  start := fresh
  injective := by
    intro a b same
    split at same <;> split at same <;> omega
  inStep := by
    intro count
    rw [if_neg (by omega), if_neg (Nat.lt_irrefl fresh)]
    omega

theorem relabel_splice_start {distance fresh later : Nat} (behind : fresh + distance ≤ later) :
    (splice distance fresh later behind).relabel fresh = later := by
  show (if fresh < fresh then fresh + distance else later + (fresh - fresh)) = later
  rw [if_neg (Nat.lt_irrefl fresh)]
  omega

/-- Everything is moved by a distance. -/
def shift (distance : Nat) : Renaming := splice distance 0 distance (by omega)

theorem relabel_shift (distance identity : Nat) :
    (shift distance).relabel identity = identity + distance := by
  show (if identity < 0 then identity + distance else distance + (identity - 0)) = _
  rw [if_neg (Nat.not_lt_zero identity)]
  omega

theorem agree_splice {distance fresh later : Nat} (behind : fresh + distance ≤ later) :
    Agree fresh (shift distance).relabel (splice distance fresh later behind).relabel := by
  intro identity less
  rw [relabel_shift]
  exact (if_pos less).symm

end Renaming

namespace Value

variable (map : Renaming)

mutual

theorem ofJson_below : ∀ (json : Json) (next : Nat),
    next ≤ (ofJson next json).2 ∧ (ofJson next json).1.Below (ofJson next json).2
  | .null, next => ⟨Nat.le_refl next, trivial⟩
  | .bool _, next => ⟨Nat.le_refl next, trivial⟩
  | .integer _, next => ⟨Nat.le_refl next, trivial⟩
  | .double _, next => ⟨Nat.le_refl next, trivial⟩
  | .text _, next => ⟨Nat.le_refl next, trivial⟩
  | .array items, next => by
    obtain ⟨le, below⟩ := ofItems_below items (next + 1)
    exact ⟨Nat.le_of_succ_le le, le, below⟩
  | .object entries, next => by
    obtain ⟨le, below⟩ := ofEntries_below entries (next + 1)
    exact ⟨Nat.le_of_succ_le le, le, below⟩

theorem ofItems_below : ∀ (items : List Json) (next : Nat),
    next ≤ (ofItems next items).2 ∧ ItemsBelow (ofItems next items).2 (ofItems next items).1
  | [], next => ⟨Nat.le_refl next, trivial⟩
  | item :: rest, next => by
    obtain ⟨first, below⟩ := ofJson_below item next
    obtain ⟨second, others⟩ := ofItems_below rest (ofJson next item).2
    exact ⟨Nat.le_trans first second, below.mono second, others⟩

theorem ofEntries_below : ∀ (entries : List (String × Json)) (next : Nat),
    next ≤ (ofEntries next entries).2 ∧
      EntriesBelow (ofEntries next entries).2 (ofEntries next entries).1
  | [], next => ⟨Nat.le_refl next, trivial⟩
  | (_, item) :: rest, next => by
    obtain ⟨first, below⟩ := ofJson_below item next
    obtain ⟨second, others⟩ := ofEntries_below rest (ofJson next item).2
    exact ⟨Nat.le_trans first second, below.mono second, others⟩

end

mutual

theorem ofJson_rename : ∀ (json : Json) (next : Nat), map.start ≤ next →
    ofJson (map.relabel next) json =
      ((ofJson next json).1.rename map.relabel, map.relabel (ofJson next json).2)
  | .null, _, _ => rfl
  | .bool _, _, _ => rfl
  | .integer _, _, _ => rfl
  | .double _, _, _ => rfl
  | .text _, _, _ => rfl
  | .array items, next, reached => by
    have inner := ofItems_rename items (next + 1) (Nat.le_succ_of_le reached)
    rw [map.relabel_succ reached] at inner
    rw [ofJson, inner]
    rfl
  | .object entries, next, reached => by
    have inner := ofEntries_rename entries (next + 1) (Nat.le_succ_of_le reached)
    rw [map.relabel_succ reached] at inner
    rw [ofJson, inner]
    rfl

theorem ofItems_rename : ∀ (items : List Json) (next : Nat), map.start ≤ next →
    ofItems (map.relabel next) items =
      (renameItems map.relabel (ofItems next items).1, map.relabel (ofItems next items).2)
  | [], _, _ => rfl
  | item :: rest, next, reached => by
    have middle := Nat.le_trans reached (ofJson_below item next).1
    rw [ofItems, ofJson_rename item next reached]
    dsimp only
    rw [ofItems_rename rest _ middle]
    rfl

theorem ofEntries_rename : ∀ (entries : List (String × Json)) (next : Nat), map.start ≤ next →
    ofEntries (map.relabel next) entries =
      (renameEntries map.relabel (ofEntries next entries).1, map.relabel (ofEntries next entries).2)
  | [], _, _ => rfl
  | (_, item) :: rest, next, reached => by
    have middle := Nat.le_trans reached (ofJson_below item next).1
    rw [ofEntries, ofJson_rename item next reached]
    dsimp only
    rw [ofEntries_rename rest _ middle]
    rfl

end

end Value

section Trees

variable (relabel : Nat → Nat)

private theorem toJson_renameList (properties : List (String × Property)) :
    (Property.renameList relabel properties).map (fun entry => (entry.1, entry.2.toJson)) =
      properties.map (fun entry => (entry.1, entry.2.toJson)) := by
  induction properties with
  | nil => rfl
  | cons entry rest ih =>
    obtain ⟨name, property⟩ := entry
    rw [Property.renameList, List.map_cons, List.map_cons, ih]
    cases property with
    | data value => rfl
    | handler reaction => cases reaction <;> rfl

mutual

theorem Node.toJson_rename : ∀ tree : Node, (tree.rename relabel).toJson = tree.toJson
  | .mk _ properties children => by
    rw [Node.rename, Node.toJson, Node.toJson, toJson_renameList,
      Node.childrenToJson_renameList children]

theorem Node.childrenToJson_renameList : ∀ children : List Child,
    Node.childrenToJson (Child.renameList relabel children) = Node.childrenToJson children
  | [] => rfl
  | .node tree :: rest => by
    rw [Child.renameList, Child.rename, Node.childrenToJson, Node.childrenToJson,
      Node.toJson_rename tree, Node.childrenToJson_renameList rest]
  | .text _ :: rest => by
    rw [Child.renameList, Child.rename, Node.childrenToJson, Node.childrenToJson,
      Node.childrenToJson_renameList rest]

end

end Trees

/-- The handlers among the properties of a node, under the names of the properties. -/
def Property.handlers : List (String × Property) → List (String × Handler)
  | [] => []
  | (name, .handler reaction) :: rest => (name, reaction) :: handlers rest
  | (_, .data _) :: rest => handlers rest

mutual

/-- The handlers of a tree under the names of their properties, in document order. -/
def Node.handlers : Node → List (String × Handler)
  | .mk _ properties children => Property.handlers properties ++ Child.handlers children

def Child.handlers : List Child → List (String × Handler)
  | [] => []
  | .node tree :: rest => tree.handlers ++ Child.handlers rest
  | .text _ :: rest => Child.handlers rest

end

section Handlers

variable {relabel : Nat → Nat} {bound : Nat}

private theorem handlers_renameList (properties : List (String × Property)) :
    Property.handlers (Property.renameList relabel properties) =
      (Property.handlers properties).map (fun entry => (entry.1, entry.2.rename relabel)) := by
  induction properties with
  | nil => rfl
  | cons entry rest ih =>
    obtain ⟨name, property⟩ := entry
    cases property with
    | data value => exact ih
    | handler reaction => exact congrArg (List.cons _) ih

mutual

theorem Node.handlers_rename : ∀ tree : Node,
    (tree.rename relabel).handlers = tree.handlers.map (fun entry => (entry.1, entry.2.rename relabel))
  | .mk _ properties children => by
    rw [Node.rename, Node.handlers, Node.handlers, List.map_append, handlers_renameList,
      Child.handlers_renameList children]

theorem Child.handlers_renameList : ∀ children : List Child,
    Child.handlers (Child.renameList relabel children) =
      (Child.handlers children).map (fun entry => (entry.1, entry.2.rename relabel))
  | [] => rfl
  | .node tree :: rest => by
    rw [Child.renameList, Child.rename, Child.handlers, Child.handlers, List.map_append,
      Node.handlers_rename tree, Child.handlers_renameList rest]
  | .text _ :: rest => Child.handlers_renameList rest

end

private theorem below_propertyHandlers {properties : List (String × Property)}
    (below : Property.ListBelow bound properties) :
    ∀ entry ∈ Property.handlers properties, entry.2.Below bound := by
  induction properties with
  | nil => exact fun _ member => nomatch member
  | cons first rest ih =>
    obtain ⟨name, property⟩ := first
    cases property with
    | data value => exact ih below.2
    | handler reaction => exact List.forall_mem_cons.mpr ⟨below.1, ih below.2⟩

mutual

theorem Node.below_handlers : ∀ {tree : Node}, tree.Below bound →
    ∀ entry ∈ tree.handlers, entry.2.Below bound
  | .mk _ properties children, below => by
    intro entry member
    rcases List.mem_append.mp member with own | inner
    · exact below_propertyHandlers below.1 entry own
    · exact Child.below_handlers below.2 entry inner

theorem Child.below_handlers : ∀ {children : List Child}, Child.ListBelow bound children →
    ∀ entry ∈ Child.handlers children, entry.2.Below bound
  | [], _ => fun _ member => nomatch member
  | .node tree :: rest, below => by
    have own : tree.Below bound := below.1
    intro entry member
    rcases List.mem_append.mp member with first | others
    · exact Node.below_handlers own entry first
    · exact Child.below_handlers below.2 entry others
  | .text _ :: rest, below => by
    have others : Child.ListBelow bound rest := below.2
    exact fun entry member => Child.below_handlers others entry member

end

end Handlers

end ScreenStudio
