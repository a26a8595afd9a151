/- digest: What a screen shows is plain, and HTML of plain things gives back its structure and its text. -/

import ScreenStudio.Proofs.Dictionary
import ScreenStudio.Proofs.Evaluation.Assembled
import ScreenStudio.Proofs.Surface.Html
import ScreenStudio.Surface.Preview

/-!
The builders name everything by words, so a tree that is assembled from their elements becomes a plain
element, as long as the labels among the builtins have plain tags. Together with the box for errors
this covers all that a preview shows by itself, so its HTML can be read back whatever the state and the
screens contain.
-/

set_option autoImplicit false
set_option relaxedAutoImplicit false

namespace ScreenStudio

open Evaluation (Built IsWord NamedByWords)

namespace Surface

/-! ### Names made of words -/

private theorem plain_of_isAlpha {c : Char} (letter : c.isAlpha = true) :
    c ≠ '<' ∧ c ≠ '>' ∧ c ≠ '"' ∧ c ≠ '&' := by
  refine ⟨?_, ?_, ?_, ?_⟩ <;> rintro rfl <;> exact absurd letter (by decide)

theorem isPlainName_of_isWord {name : String} (word : IsWord name) : IsPlainName name :=
  fun c member => plain_of_isAlpha (word c member)

theorem isPlainName_attributeName {name : String} (word : IsWord name) :
    IsPlainName (attributeName name) := by
  unfold attributeName
  split
  · decide
  · exact isPlainName_of_isWord word

private theorem isAlpha_toLower {c : Char} (capital : c.isUpper = true) : c.toLower.isAlpha = true := by
  have small : ∀ count ∈ List.range 26, (Char.ofNat (65 + count)).toLower.isAlpha = true := by decide
  have bounds : 65 ≤ c.toNat ∧ c.toNat ≤ 90 := by
    unfold Char.isUpper at capital
    simpa [UInt32.le_iff_toNat_le] using capital
  have again : Char.ofNat (65 + (c.toNat - 65)) = c := by
    rw [Nat.add_sub_cancel' bounds.1, Char.ofNat_toNat]
  rw [← again]
  exact small _ (List.mem_range.mpr (by omega))

theorem isPlainName_styleName {name : String} (word : IsWord name) : IsPlainName (styleName name) := by
  intro c member
  unfold styleName at member
  rw [String.toList_ofList] at member
  obtain ⟨origin, inside, member⟩ := List.mem_flatMap.mp member
  split at member
  · rename_i capital
    rcases List.mem_cons.mp member with rfl | small
    · decide
    · rw [List.mem_singleton.mp small]
      exact plain_of_isAlpha (isAlpha_toLower capital)
  · rw [List.mem_singleton.mp member]
    exact plain_of_isAlpha (word origin inside)

/-! ### Elements of trees -/

/-- The attributes and the style declarations have plain names. -/
structure Dress.Plain (dress : Dress) : Prop where
  attributes : ∀ entry ∈ dress.attributes, IsPlainName entry.1
  style : ∀ entry ∈ dress.style, IsPlainName entry.1

private theorem plain_insert {name content : String} {entries : List (String × String)}
    (plain : IsPlainName name) (others : ∀ entry ∈ entries, IsPlainName entry.1) :
    ∀ entry ∈ Dictionary.insert name content entries, IsPlainName entry.1 := by
  intro entry member
  rcases Dictionary.mem_of_mem_insert member with rfl | inside
  · exact plain
  · exact others entry inside

private theorem plain_declarations {entries : List (String × Json)}
    (words : ∀ entry ∈ entries, IsWord entry.1) {style : List (String × String)}
    (plain : ∀ entry ∈ style, IsPlainName entry.1) :
    ∀ entry ∈ entries.foldl addDeclaration style, IsPlainName entry.1 := by
  induction entries generalizing style with
  | nil => exact plain
  | cons entry rest ih =>
    obtain ⟨word, others⟩ := List.forall_mem_cons.mp words
    refine ih others ?_
    unfold addDeclaration
    split
    · exact plain_insert (isPlainName_styleName word) plain
    · exact plain

private theorem Dress.Plain.add {dress : Dress} (plain : dress.Plain) {property : String × Property}
    (word : IsWord property.1)
    (inner : ∀ entries, property.2 = .data (.object entries) → ∀ entry ∈ entries, IsWord entry.1) :
    (dress.add property).Plain := by
  obtain ⟨name, value⟩ := property
  unfold Dress.add
  cases value with
  | handler handler =>
    dsimp only
    split
    · exact ⟨plain.attributes, plain.style⟩
    · exact plain
  | data value =>
    dsimp only
    split
    · rename_i entries _ found _
      cases value <;> cases found
      exact ⟨plain.attributes, plain_declarations (inner _ rfl) plain.style⟩
    · split
      · exact ⟨plain_insert (isPlainName_attributeName word) plain.attributes, plain.style⟩
      · exact plain

theorem plain_dressOf {properties : List (String × Property)} (named : NamedByWords properties) :
    (dressOf properties).Plain := by
  have all : ∀ {dress : Dress}, dress.Plain → (properties.foldl Dress.add dress).Plain := by
    induction properties with
    | nil => exact fun plain => plain
    | cons property rest ih =>
      intro dress plain
      obtain ⟨own, others⟩ := List.forall_mem_cons.mp named
      exact ih others (plain.add own.1 own.2)
  exact all ⟨List.forall_mem_nil _, List.forall_mem_nil _⟩

variable {known : Builtin → Prop}

/-- The tags of labels among the builtins are plain and not those of void elements. -/
def PlainLabels (known : Builtin → Prop) : Prop :=
  ∀ name tag, known ⟨name, .label tag⟩ → IsPlainName tag ∧ isVoid tag = false

private theorem plain_built (labels : PlainLabels known) {tag : String}
    {properties : List (String × Property)} {children : List Child}
    (built : Built known tag properties children) :
    IsPlainName tag ∧ (dressOf properties).Plain ∧ (isVoid tag = true → children = []) := by
  cases built with
  | block named => exact ⟨by decide, plain_dressOf named, fun void => absurd void (by decide)⟩
  | button named => exact ⟨by decide, plain_dressOf named, fun void => absurd void (by decide)⟩
  | image named => exact ⟨by decide, plain_dressOf named, fun _ => rfl⟩
  | label own =>
    obtain ⟨plain, content⟩ := labels _ tag own
    exact ⟨plain, plain_dressOf (List.forall_mem_nil _), fun void => by rw [content] at void; cases void⟩

mutual

theorem plain_materialize (labels : PlainLabels known) : ∀ {tree : Node},
    Child.Assembled known (.node tree) → IsPlainElement tree.materialize
  | .mk tag properties children, held => by
    cases held with
    | node own inner =>
      obtain ⟨plain, dress, void⟩ := plain_built labels own
      refine ⟨plain, dress.attributes, dress.style, fun content => ?_,
        plain_materializeChildren labels inner⟩
      rw [void content]
      rfl

theorem plain_materializeChildren (labels : PlainLabels known) : ∀ {children : List Child},
    (∀ child ∈ children, Child.Assembled known child) → ArePlain (Node.materializeChildren children)
  | [], _ => trivial
  | .node tree :: rest, held => by
    obtain ⟨first, behind⟩ := List.forall_mem_cons.mp held
    exact ⟨plain_materialize labels first, plain_materializeChildren labels behind⟩
  | .text content :: rest, held => by
    obtain ⟨_, behind⟩ := List.forall_mem_cons.mp held
    exact ⟨trivial, plain_materializeChildren labels behind⟩

end

/-! ### Screens -/

theorem plainLabels_standard :
    PlainLabels (· ∈ Vocabulary.standard.builders ++ Vocabulary.hostFunctions) := by
  intro name tag member
  simp [Vocabulary.standard, Vocabulary.hostFunctions] at member

theorem plain_screen {source : String} {state : Json} {host : Recording} {root : Node}
    (made : (Evaluation.screen source .standard state host).1 = .ok root) :
    IsPlainElement root.materialize :=
  plain_materialize plainLabels_standard (Evaluation.assembled_screenFrom made)

theorem plain_errorBox (error : EvaluationError) : IsPlain (Preview.errorBox error) :=
  ⟨by decide, by decide, List.forall_mem_nil _, fun void => absurd void (by decide), trivial, trivial⟩

theorem plain_renderBuiltin {preview : Preview} (standard : preview.vocabulary = .standard)
    (source : String) (state : Json) (surface : Surface) (host : Recording) :
    ArePlain (preview.renderBuiltin source state surface host).surface.content := by
  unfold Preview.renderBuiltin
  rw [standard]
  cases ran : Evaluation.screen source .standard state host with
  | mk result after =>
    cases result with
    | ok root => exact ⟨plain_screen (congrArg Prod.fst ran), trivial⟩
    | error error => exact ⟨plain_errorBox error, trivial⟩

/-- The marks in the HTML of plain things depend on their outline alone. The quoted values in its tags
are the values of the attributes and styles, and what is left without the tags is the text. Every tree
of a screen with the standard builders is plain, and so is all that a preview shows by itself. -/
theorem html_is_read_back :
    (∀ surface other : Surface, ArePlain surface.content → ArePlain other.content →
      childrenOutlines surface.content = childrenOutlines other.content →
      marks surface.html.toList = marks other.html.toList) ∧
    (∀ surface : Surface, ArePlain surface.content →
      (tags surface.html.toList).map quotedValues = childrenFields surface.content ∧
      decode (outsideTags false surface.html.toList) = surface.textContent.toList) ∧
    (∀ source state host root, (Evaluation.screen source .standard state host).1 = .ok root →
      IsPlainElement root.materialize) ∧
    ∀ preview : Preview, preview.vocabulary = .standard → ∀ source state surface host,
      ArePlain (preview.renderBuiltin source state surface host).surface.content := by
  have chars (surface : Surface) : surface.html.toList = childrenChars surface.content :=
    String.toList_ofList
  refine ⟨fun surface other plain also same => ?_, fun surface plain => ⟨?_, ?_⟩,
    fun _ _ _ _ made => plain_screen made,
    fun _ standard source state surface host => plain_renderBuiltin standard source state surface host⟩
  · rw [chars, chars, marks_childrenChars plain, marks_childrenChars also, same]
  · have read := tagsFrom_childrenChars plain []
    rw [List.append_nil] at read
    rw [chars, tags, read]
    exact List.append_nil _
  · have left := outsideTags_childrenChars plain []
    rw [List.append_nil, outsideTags, List.append_nil] at left
    rw [chars, left, decode_escape]
    rfl

example : (tags (htmlChars (.element ⟨"p", [("title", "\">")], [], [], [.text "<b>&lt;"]⟩))).map
    quotedValues = [[("p title=".toList, "\">".toList)], []] := by decide

end Surface

end ScreenStudio
