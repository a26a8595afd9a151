/- digest: The elements of a materialized tree that listen, and what events on them do. -/

import ScreenStudio.Proofs.Value.InStep
import ScreenStudio.Surface.Basic

/-!
Three walks over a tree agree. A node becomes an element, its text is the text that is shown of it, and the
interactive elements are what becomes of the nodes that listen, in document order. A node listens to the
events that the names of its handlers tell. An event with an index goes to the node at that place among those
that listen, and there to the first handler for it.
-/

set_option autoImplicit false
set_option relaxedAutoImplicit false

namespace ScreenStudio

/-- The name of a property tells an event: it is `on`, followed by the name of the event in letters of
either size. -/
def TellsEvent (name event : String) : Prop :=
  2 < name.utf8ByteSize ∧ ∃ suffix, name = "on" ++ suffix ∧ event = Text.lower suffix

/-- The handlers of a node whose names tell events, in order, under these events. -/
def Node.reactions : Node → List (String × Handler)
  | .mk _ properties _ => (Property.handlers properties).filterMap
      fun entry => (Surface.eventOf? entry.1).map fun event => (event, entry.2)

/-- The node has a handler whose name tells an event. -/
def Node.listens (node : Node) : Bool := !node.reactions.isEmpty

mutual

/-- A node and all nodes below it, in document order. -/
def Node.nodes : Node → List Node
  | .mk tag properties children => .mk tag properties children :: Child.nodes children

def Child.nodes : List Child → List Node
  | [] => []
  | .node node :: rest => node.nodes ++ Child.nodes rest
  | .text _ :: rest => Child.nodes rest

end

/-- The first of several reactions that are for an event. -/
def IsFirstReaction (event : String) (handler : Handler) (reactions : List (String × Handler)) : Prop :=
  ∃ before behind, reactions = before ++ (event, handler) :: behind ∧ ∀ entry ∈ before, entry.1 ≠ event

/-- What the handler of an event does, and the line about it if it fails. -/
def Handler.react (handler : Handler) (host : Recording) : Except InteractionError Unit × Recording :=
  match handler.invoke host with
  | (.ok _, after) => (.ok (), after)
  | (.error error, after) => (.error (.handler error), after.log (Surface.handlerFailureLine error))

namespace Surface

section Listeners

theorem eventOf?_eq_some_iff {name event : String} : eventOf? name = some event ↔ TellsEvent name event := by
  have written (suffix : String) : ("on" ++ suffix).toList = 'o' :: 'n' :: suffix.toList :=
    String.toList_append
  constructor
  · intro told
    unfold eventOf? at told
    split at told
    · rename_i c rest characters
      have name_eq : name = "on" ++ String.ofList (c :: rest) := by
        rw [← String.toList_inj, written, String.toList_ofList, characters]
      refine ⟨?_, String.ofList (c :: rest), name_eq, (Option.some.inj told).symm⟩
      have one : 0 < (String.ofList (c :: rest)).utf8ByteSize := by
        refine Nat.pos_of_ne_zero fun none => ?_
        have empty := String.utf8ByteSize_eq_zero_iff.mp none
        cases String.toList_ofList.symm.trans (congrArg String.toList empty)
      rw [name_eq, String.utf8ByteSize_append]
      exact Nat.add_lt_add_left one 2
    · cases told
  · rintro ⟨long, suffix, rfl, rfl⟩
    unfold eventOf?
    rw [written]
    cases characters : suffix.toList with
    | nil =>
      rw [String.toList_eq_nil_iff.mp characters] at long
      exact absurd long (by decide)
    | cons c rest =>
      show some (Text.lower (String.ofList (c :: rest))) = _
      rw [← characters, String.ofList_toList]

private theorem listeners_add (dress : Dress) (name : String) (property : Property) :
    (dress.add (name, property)).listeners =
      dress.listeners ++ (Property.handlers [(name, property)]).filterMap
        fun entry => (eventOf? entry.1).map fun event => (event, entry.2) := by
  unfold Dress.add
  cases property with
  | handler handler =>
    dsimp only
    rw [Property.handlers, Property.handlers, List.filterMap_cons, List.filterMap_nil]
    cases eventOf? name with
    | none => exact (List.append_nil _).symm
    | some event => rfl
  | data value =>
    dsimp only
    rw [Property.handlers, Property.handlers, List.filterMap_nil, List.append_nil]
    split
    · rfl
    · split
      · rfl
      · rfl

private theorem listeners_foldl (properties : List (String × Property)) (dress : Dress) :
    (properties.foldl Dress.add dress).listeners = dress.listeners ++ (Property.handlers properties).filterMap
      fun entry => (eventOf? entry.1).map fun event => (event, entry.2) := by
  induction properties generalizing dress with
  | nil => exact (List.append_nil _).symm
  | cons entry rest ih =>
    obtain ⟨name, property⟩ := entry
    rw [List.foldl_cons, ih, listeners_add, List.append_assoc, ← List.filterMap_append]
    cases property with
    | handler handler => rfl
    | data value => rfl

theorem listeners_materialize (node : Node) : node.materialize.listeners = node.reactions := by
  obtain ⟨_, properties, _⟩ := node
  rw [Node.materialize]
  exact listeners_foldl properties .empty

end Listeners

section Walks

mutual

theorem elementText_materialize : ∀ node : Node, elementText node.materialize = node.textContent
  | .mk _ _ children => by
    rw [Node.materialize, elementText, Node.textContent, childrenText_materializeChildren children]

theorem childrenText_materializeChildren : ∀ children : List Child,
    childrenText (Node.materializeChildren children) = Node.childrenText children
  | [] => rfl
  | .node node :: rest => by
    rw [Node.materializeChildren, childrenText, textOf, Node.childrenText, elementText_materialize node,
      childrenText_materializeChildren rest]
  | .text content :: rest => by
    rw [Node.materializeChildren, childrenText, textOf, Node.childrenText,
      childrenText_materializeChildren rest]

end

private theorem elementInteractive_eq (element : Element) : elementInteractive element =
    (if element.listeners.isEmpty then [] else [element]) ++ childrenInteractive element.children := by
  cases element
  rfl

mutual

/-- The interactive elements of a tree are those of its nodes that listen, in document order. -/
theorem elementInteractive_materialize : ∀ node : Node,
    elementInteractive node.materialize = (node.nodes.filter Node.listens).map Node.materialize
  | .mk tag properties children => by
    rw [elementInteractive_eq, listeners_materialize, Node.nodes, List.filter_cons, Node.materialize,
      childrenInteractive_materializeChildren children]
    unfold Node.listens
    cases (Node.mk tag properties children).reactions.isEmpty with
    | true => rfl
    | false => rfl

theorem childrenInteractive_materializeChildren : ∀ children : List Child,
    childrenInteractive (Node.materializeChildren children) =
      ((Child.nodes children).filter Node.listens).map Node.materialize
  | [] => rfl
  | .node node :: rest => by
    rw [Node.materializeChildren, childrenInteractive, interactiveOf, Child.nodes, List.filter_append,
      List.map_append, elementInteractive_materialize node, childrenInteractive_materializeChildren rest]
  | .text _ :: rest => by
    rw [Node.materializeChildren, childrenInteractive, interactiveOf, Child.nodes, List.nil_append,
      childrenInteractive_materializeChildren rest]

end

/-- A surface that shows one tree. -/
def holding (id : String) (root : Node) : Surface := (blank id).append (.element root.materialize)

theorem textContent_holding (id : String) (root : Node) :
    (holding id root).textContent = root.textContent := by
  show elementText root.materialize ++ "" = root.textContent
  rw [String.append_empty, elementText_materialize]

theorem interactive_holding (id : String) (root : Node) :
    (holding id root).interactive = (root.nodes.filter Node.listens).map Node.materialize := by
  show elementInteractive root.materialize ++ [] = _
  rw [List.append_nil, elementInteractive_materialize]

end Walks

section Events

private theorem get?_eq_some_iff {event : String} {handler : Handler} {reactions : List (String × Handler)} :
    Dictionary.get? event reactions = some handler ↔ IsFirstReaction event handler reactions := by
  constructor
  · intro found
    induction reactions with
    | nil => cases found
    | cons entry rest ih =>
      obtain ⟨name, own⟩ := entry
      rw [Dictionary.get?] at found
      split at found
      · rename_i same
        cases same
        cases found
        exact ⟨[], rest, rfl, List.forall_mem_nil _⟩
      · rename_i different
        obtain ⟨before, behind, rfl, others⟩ := ih found
        exact ⟨(name, own) :: before, behind, rfl, List.forall_mem_cons.mpr ⟨different, others⟩⟩
  · rintro ⟨before, behind, rfl, others⟩
    induction before with
    | nil => exact if_pos rfl
    | cons entry rest ih =>
      obtain ⟨different, more⟩ := List.forall_mem_cons.mp others
      exact (if_neg different).trans (ih more)

private theorem get?_eq_none_iff {event : String} {reactions : List (String × Handler)} :
    Dictionary.get? event reactions = none ↔ ∀ entry ∈ reactions, entry.1 ≠ event := by
  induction reactions with
  | nil => exact iff_of_true rfl (List.forall_mem_nil _)
  | cons entry rest ih =>
    obtain ⟨name, own⟩ := entry
    rw [Dictionary.get?, List.forall_mem_cons]
    split
    · rename_i same
      exact iff_of_false (by simp) fun all => all.1 same
    · rename_i different
      exact ih.trans (and_iff_right different).symm

private theorem trigger_holding (id : String) (root : Node) (index : Nat) (event : String)
    (host : Recording) : (holding id root).trigger index event host =
      match (root.nodes.filter Node.listens)[index]? with
      | none => (.error (.noSuchElement index), host)
      | some node =>
        match Dictionary.get? event node.reactions with
        | none => (.error (.noListener index event), host)
        | some handler => handler.react host := by
  unfold trigger
  rw [interactive_holding, List.getElem?_map]
  cases (root.nodes.filter Node.listens)[index]? with
  | none => rfl
  | some node =>
    rw [Option.map_some]
    dsimp only
    rw [Element.listener?, listeners_materialize]
    cases Dictionary.get? event node.reactions with
    | none => rfl
    | some handler =>
      unfold Handler.react
      cases handler.invoke host with
      | mk result after => cases result <;> rfl

private theorem react_ne (handler : Handler) (host : Recording) :
    (∀ index, (handler.react host).1 ≠ .error (.noSuchElement index)) ∧
      ∀ index event, (handler.react host).1 ≠ .error (.noListener index event) := by
  unfold Handler.react
  cases handler.invoke host with
  | mk result after => cases result <;> simp

/-- A surface that shows a tree keeps its structure. Its text is the text of the tree. Its interactive
elements are made of the nodes that listen, in document order, and have the listeners that the names of
their handlers tell. An event runs the first handler for it on the node at its index, and nothing if
there is no such node or no such handler. -/
theorem materialized_tree_keeps_structure :
    (∀ name event, eventOf? name = some event ↔ TellsEvent name event) ∧
    (∀ node : Node, node.materialize.listeners = node.reactions) ∧
    ∀ (id : String) (root : Node),
      (holding id root).textContent = root.textContent ∧
      (holding id root).interactive = (root.nodes.filter Node.listens).map Node.materialize ∧
      ∀ index event host,
        ((((holding id root).trigger index event host).1 = .error (.noSuchElement index) ↔
            (root.nodes.filter Node.listens).length ≤ index) ∧
          ((root.nodes.filter Node.listens).length ≤ index →
            ((holding id root).trigger index event host).2 = host)) ∧
        ∀ node, (root.nodes.filter Node.listens)[index]? = some node →
          (((holding id root).trigger index event host).1 = .error (.noListener index event) ↔
            ∀ entry ∈ node.reactions, entry.1 ≠ event) ∧
          ((∀ entry ∈ node.reactions, entry.1 ≠ event) →
            ((holding id root).trigger index event host).2 = host) ∧
          ∀ handler, IsFirstReaction event handler node.reactions →
            (holding id root).trigger index event host = handler.react host := by
  refine ⟨fun _ _ => eventOf?_eq_some_iff, listeners_materialize, fun id root =>
    ⟨textContent_holding id root, interactive_holding id root, fun index event host => ⟨?_, ?_⟩⟩⟩
  · rw [trigger_holding, ← List.getElem?_eq_none_iff]
    cases (root.nodes.filter Node.listens)[index]? with
    | none => exact ⟨iff_of_true rfl rfl, fun _ => rfl⟩
    | some node =>
      refine ⟨iff_of_false ?_ nofun, nofun⟩
      dsimp only
      cases Dictionary.get? event node.reactions with
      | none => nofun
      | some handler => exact (react_ne handler host).1 index
  · intro node chosen
    rw [trigger_holding, chosen]
    dsimp only
    refine ⟨?_, fun none => ?_, fun handler first => ?_⟩
    · rw [← get?_eq_none_iff]
      cases Dictionary.get? event node.reactions with
      | none => exact iff_of_true rfl rfl
      | some handler => exact iff_of_false ((react_ne handler host).2 index event) nofun
    · rw [get?_eq_none_iff.mpr none]
    · rw [get?_eq_some_iff.mpr first]

end Events

end Surface

end ScreenStudio
