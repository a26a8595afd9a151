/- digest: The markup that is shown of a tree tells no identity. -/

import ScreenStudio.Proofs.Evaluation.Interchangeable
import ScreenStudio.Surface.Preview

set_option autoImplicit false
set_option relaxedAutoImplicit false

namespace ScreenStudio

namespace Surface

/-- Two dresses that look alike, whatever they listen for. -/
structure Dress.LooksLike (one two : Dress) : Prop where
  attributes : one.attributes = two.attributes
  style : one.style = two.style

variable (relabel : Nat → Nat)

private theorem Dress.looksLike_add {one two : Dress} (alike : one.LooksLike two)
    (name : String) (property : Property) :
    (one.add (name, property.rename relabel)).LooksLike (two.add (name, property)) := by
  cases property with
  | handler reaction =>
    rw [Property.rename]
    unfold Dress.add
    dsimp only
    cases eventOf? name with
    | none => exact alike
    | some event => exact ⟨alike.attributes, alike.style⟩
  | data value =>
    rw [Property.rename]
    unfold Dress.add
    dsimp only
    rw [alike.attributes, alike.style]
    split
    · exact ⟨rfl, rfl⟩
    · split
      · exact ⟨rfl, rfl⟩
      · exact alike

private theorem looksLike_foldl (properties : List (String × Property)) {one two : Dress}
    (alike : one.LooksLike two) :
    ((Property.renameList relabel properties).foldl Dress.add one).LooksLike
      (properties.foldl Dress.add two) := by
  induction properties generalizing one two with
  | nil => exact alike
  | cons entry rest ih =>
    obtain ⟨name, property⟩ := entry
    exact ih (Dress.looksLike_add relabel alike name property)

theorem looksLike_dressOf (properties : List (String × Property)) :
    (dressOf (Property.renameList relabel properties)).LooksLike (dressOf properties) :=
  looksLike_foldl relabel properties ⟨rfl, rfl⟩

mutual

theorem elementChars_rename : ∀ tree : Node,
    elementChars (tree.rename relabel).materialize = elementChars tree.materialize
  | .mk tag properties children => by
    have look := looksLike_dressOf relabel properties
    rw [Node.rename, Node.materialize, Node.materialize, elementChars, elementChars, look.attributes,
      look.style, childrenChars_renameList children]

theorem childrenChars_renameList : ∀ children : List Child,
    childrenChars (Node.materializeChildren (Child.renameList relabel children)) =
      childrenChars (Node.materializeChildren children)
  | [] => rfl
  | .node tree :: rest => by
    rw [Child.renameList, Child.rename, Node.materializeChildren, Node.materializeChildren,
      childrenChars, childrenChars, htmlChars, htmlChars, elementChars_rename tree,
      childrenChars_renameList rest]
  | .text content :: rest => by
    rw [Child.renameList, Child.rename, Node.materializeChildren, Node.materializeChildren,
      childrenChars, childrenChars, childrenChars_renameList rest]

end

end Surface

namespace Preview

/-- What is shown of the outcome of a screen. -/
def shownOf : Except EvaluationError Node → Shown
  | .ok root => .element root.materialize
  | .error error => errorBox error

theorem htmlChars_shownOf (next : Nat) (source : String) (vocabulary : Vocabulary) (state : Json)
    (host : Recording) :
    Surface.htmlChars (shownOf (Evaluation.screenFrom next source vocabulary state host).1) =
      Surface.htmlChars (shownOf (Evaluation.screen source vocabulary state host).1) := by
  unfold Evaluation.screen
  rw [Evaluation.screenFrom_shift next]
  cases (Evaluation.screenFrom 0 source vocabulary state host).1 with
  | error error => rfl
  | ok root => exact Surface.elementChars_rename _ root

end Preview

end ScreenStudio
