/- digest: Assigning along a path changes what stands at the path and nothing beside it. -/

import ScreenStudio.Action
import ScreenStudio.Proofs.Dictionary

/-!
A path leads through objects by their keys. Assigning puts a value at the end of a path, and on the way
there it needs an object at every key, whatever has stood there. Said with what has stood at a key, or
nothing, this is one recursion on the path. Two paths of which neither begins with the other part at some
key, and from there on an assignment along the one does not meet the other.
-/

set_option autoImplicit false
set_option relaxedAutoImplicit false

namespace ScreenStudio

namespace Json

/-- What a path of keys leads to. It leads through objects only. -/
def find? : List String → Json → Option Json
  | [], json => some json
  | key :: path, json => (json.get? key).bind (find? path)

theorem find?_append (path more : List String) (json : Json) :
    find? (path ++ more) json = (find? path json).bind (find? more) := by
  induction path generalizing json with
  | nil => rfl
  | cons key rest ih =>
    rw [List.cons_append, find?, find?, Option.bind_assoc]
    exact congrArg _ (funext ih)

end Json

namespace Action

open Json (find?)

/-- What stands at a place after an assignment along a path from there, given what has stood there. -/
def placed (path : List String) (value : Json) (before : Option Json) : Json :=
  match path with
  | [] => value
  | key :: path => .object (assign (key :: path) value ((before.bind Json.entries?).getD []))

/-- Neither of the paths begins with the other: they part at some key. -/
inductive Apart : List String → List String → Prop
  | here {key other : String} (different : key ≠ other) (path more : List String) :
    Apart (key :: path) (other :: more)
  | behind (key : String) {path more : List String} (apart : Apart path more) :
    Apart (key :: path) (key :: more)

variable {path other : List String} {value : Json} {entries : List (String × Json)}
  {before : Option Json}

section Paths

theorem pieces_of_segments {path : String} {keys : List String} (segments : segments? path = some keys) :
    (Text.split (· == '.') path).map Text.trim = keys ∧ keys ≠ [] := by
  unfold segments? at segments
  dsimp only at segments
  split at segments
  · cases segments
  · obtain rfl := Option.some.inj segments
    refine ⟨rfl, fun none => ?_⟩
    exact Text.splitChars_ne_nil _ _ (List.map_eq_nil_iff.mp (List.map_eq_nil_iff.mp none))

theorem apart_of_neither_extends (one : ¬ path <+: other) (two : ¬ other <+: path) : Apart path other := by
  induction path generalizing other with
  | nil => exact absurd List.nil_prefix one
  | cons key rest ih =>
    cases other with
    | nil => exact absurd List.nil_prefix two
    | cons second more =>
      by_cases same : key = second
      · subst same
        refine .behind key (ih ?_ ?_)
        · exact fun ahead => one (List.cons_prefix_cons.mpr ⟨rfl, ahead⟩)
        · exact fun ahead => two (List.cons_prefix_cons.mpr ⟨rfl, ahead⟩)
      · exact .here same rest more

end Paths

section Places

/-- One key of an assignment: what stands under it is replaced, and the rest of the path decides by what. -/
theorem assign_cons (key : String) (path : List String) (value : Json)
    (entries : List (String × Json)) :
    assign (key :: path) value entries =
      Dictionary.insert key (placed path value (Dictionary.get? key entries)) entries := by
  cases path with
  | nil => rfl
  | cons next rest => rfl

theorem placed_cons (key : String) (path : List String) (value : Json) (before : Option Json) :
    placed (key :: path) value before =
      .object (Dictionary.insert key
        (placed path value (Dictionary.get? key ((before.bind Json.entries?).getD [])))
        ((before.bind Json.entries?).getD [])) := by
  rw [placed, assign_cons]

/-- Behind a key, a path leads from an object to where it leads from what stands under the key. -/
theorem find?_cons (key : String) (path : List String) (entries : List (String × Json)) :
    find? (key :: path) (.object entries) = (Dictionary.get? key entries).bind (find? path) := rfl

theorem bind_find?_cons (key : String) (path : List String) (before : Option Json) :
    before.bind (find? (key :: path)) =
      (Dictionary.get? key ((before.bind Json.entries?).getD [])).bind (find? path) := by
  cases before with
  | none => rfl
  | some json =>
    cases json with
    | object entries => rfl
    | _ => rfl

theorem find?_placed (path : List String) (value : Json) (before : Option Json) :
    find? path (placed path value before) = some value := by
  induction path generalizing before with
  | nil => rfl
  | cons key rest ih =>
    rw [placed_cons, find?_cons, Dictionary.get?_insert_self]
    exact ih _

theorem placed_placed (path : List String) (first second : Json) (before : Option Json) :
    placed path second (some (placed path first before)) = placed path second before := by
  induction path generalizing before with
  | nil => rfl
  | cons key rest ih =>
    rw [placed_cons key rest first, placed_cons, placed_cons]
    show Json.object (Dictionary.insert key (placed rest second (Dictionary.get? key
      (Dictionary.insert key _ _))) (Dictionary.insert key _ _)) = _
    rw [Dictionary.get?_insert_self, Dictionary.insert_insert_self, ih]

theorem find?_placed_of_apart (apart : Apart path other) (value : Json) (before : Option Json) :
    find? other (placed path value before) = before.bind (find? other) := by
  induction apart generalizing before with
  | here different path more =>
    rw [placed_cons, find?_cons, Dictionary.get?_insert_of_ne different.symm, bind_find?_cons]
  | behind key _ ih =>
    rw [placed_cons, find?_cons, Dictionary.get?_insert_self, bind_find?_cons]
    exact ih _

theorem placed_comm (apart : Apart path other) (first second : Json) (before : Option Json) :
    placed other second (some (placed path first before)) =
      placed path first (some (placed other second before)) := by
  induction apart generalizing before with
  | @here key next different path more =>
    rw [placed_cons key path first, placed_cons, placed_cons next more second, placed_cons]
    show Json.object (Dictionary.insert next (placed more second (Dictionary.get? next
        (Dictionary.insert key _ _))) (Dictionary.insert key _ _)) =
      Json.object (Dictionary.insert key (placed path first (Dictionary.get? key
        (Dictionary.insert next _ _))) (Dictionary.insert next _ _))
    rw [Dictionary.get?_insert_of_ne different.symm, Dictionary.get?_insert_of_ne different,
      Dictionary.insert_insert_of_ne different.symm]
  | @behind key path more _ ih =>
    rw [placed_cons key path first, placed_cons, placed_cons key more second, placed_cons]
    show Json.object (Dictionary.insert key (placed more second (Dictionary.get? key
        (Dictionary.insert key _ _))) (Dictionary.insert key _ _)) =
      Json.object (Dictionary.insert key (placed path first (Dictionary.get? key
        (Dictionary.insert key _ _))) (Dictionary.insert key _ _))
    rw [Dictionary.get?_insert_self, Dictionary.get?_insert_self, Dictionary.insert_insert_self,
      Dictionary.insert_insert_self, ih]

/-- On the way an assignment changes one key of the object that it meets, or of an empty one. -/
theorem find?_placed_above (above : List String) (key : String) (path : List String) (value : Json)
    (before : Option Json) :
    ∃ inner, find? above (placed (above ++ key :: path) value before) =
      some (.object (Dictionary.insert key inner
        (((before.bind (find? above)).bind Json.entries?).getD []))) := by
  induction above generalizing before with
  | nil =>
    have same : before.bind (find? []) = before := by cases before <;> rfl
    refine ⟨placed path value (Dictionary.get? key ((before.bind Json.entries?).getD [])), ?_⟩
    rw [List.nil_append, placed_cons, same]
    rfl
  | cons next rest ih =>
    obtain ⟨inner, is⟩ := ih (Dictionary.get? next ((before.bind Json.entries?).getD []))
    refine ⟨inner, ?_⟩
    rw [List.cons_append, placed_cons, find?_cons, Dictionary.get?_insert_self, bind_find?_cons]
    exact is

end Places

/-- An assignment along a path with a key is one from the place where the document stands. -/
theorem object_assign (filled : path ≠ []) (value : Json) (entries : List (String × Json)) :
    Json.object (assign path value entries) = placed path value (some (.object entries)) := by
  obtain ⟨key, rest, rfl⟩ := List.exists_cons_of_ne_nil filled
  rfl

/-- Assigning touches its path only. The path then leads to the value. Every path that neither begins with
it nor is a beginning of it leads to what it has led to, or to nothing as before. An object on the way keeps
all its keys but the next one of the path, and where there was none on the way it has this key alone. Of two
assignments along one path the later one counts, and along paths of which neither begins with the other
their order makes no difference. -/
theorem assignment_touches_its_path (path other : List String) (value second : Json)
    (entries : List (String × Json)) (filled : path ≠ []) :
    find? path (.object (assign path value entries)) = some value ∧
      (¬ path <+: other → ¬ other <+: path →
        find? other (.object (assign path value entries)) = find? other (.object entries)) ∧
      (∀ above key rest, path = above ++ key :: rest →
        ∃ inner, find? above (.object (assign path value entries)) =
          some (.object (Dictionary.insert key inner
            (((find? above (.object entries)).bind Json.entries?).getD [])))) ∧
      assign path second (assign path value entries) = assign path second entries ∧
      (¬ path <+: other → ¬ other <+: path →
        assign other second (assign path value entries) =
          assign path value (assign other second entries)) := by
  refine ⟨?_, ?_, ?_, ?_, ?_⟩
  · rw [object_assign filled]
    exact find?_placed path value _
  · intro one two
    rw [object_assign filled]
    exact find?_placed_of_apart (apart_of_neither_extends one two) value _
  · rintro above key rest rfl
    rw [object_assign filled]
    exact find?_placed_above above key rest value _
  · refine Json.object.inj ?_
    rw [object_assign filled, object_assign filled, object_assign filled]
    exact placed_placed path value second _
  · intro one two
    have filledToo : other ≠ [] := fun empty => two (empty ▸ List.nil_prefix)
    refine Json.object.inj ?_
    rw [object_assign filledToo, object_assign filled, object_assign filled, object_assign filledToo]
    exact placed_comm (apart_of_neither_extends one two) value second _

/-- Two paths through one number: the number gives way to an object, and `b` is left alone. -/
theorem assignment_replaces_number :
    let entries := [("a", Json.integer 5), ("b", .array [.integer 1])]
    (["a", "x", "y"] ≠ [] ∧ ¬ ["a", "x", "y"] <+: ["a", "z"] ∧ ¬ ["a", "z"] <+: ["a", "x", "y"]) ∧
      find? ["a", "z"] (.object (assign ["a", "x", "y"] .null entries)) = none ∧
      assign ["a", "z"] (.bool true) (assign ["a", "x", "y"] .null entries) =
        [("a", .object [("x", .object [("y", .null)]), ("z", .bool true)]), ("b", .array [.integer 1])] := by
  intro entries
  have filled : ["a", "x", "y"] ≠ [] := List.cons_ne_nil _ _
  have one : ¬ ["a", "x", "y"] <+: ["a", "z"] := by decide
  have two : ¬ ["a", "z"] <+: ["a", "x", "y"] := by decide
  obtain ⟨_, beside, _, _, order⟩ :=
    assignment_touches_its_path ["a", "x", "y"] ["a", "z"] .null (.bool true) entries filled
  refine ⟨⟨filled, one, two⟩, (beside one two).trans rfl, (order one two).trans ?_⟩
  rfl

end Action

end ScreenStudio
