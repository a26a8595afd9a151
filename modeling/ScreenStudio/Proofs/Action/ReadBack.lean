/- digest: A path that was assigned to is an expression for what was assigned. -/

import ScreenStudio.Proofs.Action
import ScreenStudio.Proofs.Action.Assignment
import ScreenStudio.Proofs.Source.Members

/-!
The keys of an assigned path are found in the document, from the top downwards. As an expression the path
is a name with members behind it. The name is bound to what the document holds under the first key, also if
this key is the name of the document itself, since the keys of the document are bound over it. A member of
an object from a document is what the document holds under the key. So the expression walks the document as
the assignment did.
-/

set_option autoImplicit false
set_option relaxedAutoImplicit false

namespace ScreenStudio

open Source (Expression IsName nowhere)

namespace Value

theorem get?_ofEntries {key : String} {json : Json} {entries : List (String × Json)} (next : Nat)
    (found : Dictionary.get? key entries = some json) :
    ∃ start, Dictionary.get? key (ofEntries next entries).1 = some (ofJson start json).1 := by
  induction entries generalizing next with
  | nil => cases found
  | cons entry rest ih =>
    obtain ⟨name, item⟩ := entry
    rw [Dictionary.get?] at found
    show ∃ start, Dictionary.get? key ((name, (ofJson next item).1) :: _) = _
    rw [Dictionary.get?]
    split at found
    · rename_i same
      cases found
      exact ⟨next, if_pos same⟩
    · rename_i different
      rw [if_neg different]
      exact ih _ found

end Value

namespace Evaluation

section Scopes

variable {name : String} {json : Json} {entries : List (String × Json)}

theorem lookup?_bindEntries_of_none (next : Nat) (scope : Scope)
    (absent : Dictionary.get? name entries = none) :
    Scope.lookup? name (bindEntries next scope entries).1 = Scope.lookup? name scope := by
  induction entries generalizing next scope with
  | nil => rfl
  | cons entry rest ih =>
    obtain ⟨key, item⟩ := entry
    rw [Dictionary.get?] at absent
    split at absent
    · cases absent
    · rename_i different
      rw [bindEntries]
      dsimp only
      rw [ih _ _ absent, Scope.bind, Scope.lookup?, if_neg different]

/-- A key of a dictionary means what stands under it, whatever else is bound to the name. -/
theorem lookup?_bindEntries (next : Nat) (scope : Scope) (ascending : Dictionary.Ascending entries)
    (found : Dictionary.get? name entries = some json) :
    ∃ start, Scope.lookup? name (bindEntries next scope entries).1 =
      some (Value.ofJson start json).1 := by
  induction entries generalizing next scope with
  | nil => cases found
  | cons entry rest ih =>
    obtain ⟨key, item⟩ := entry
    obtain ⟨above, others⟩ := Dictionary.ascending_cons.mp ascending
    rw [Dictionary.get?] at found
    rw [bindEntries]
    dsimp only
    split at found
    · rename_i same
      cases found
      subst same
      have absent : Dictionary.get? key rest = none := by
        cases again : Dictionary.get? key rest with
        | none => rfl
        | some _ => exact absurd (above _ (Dictionary.mem_of_get? again)) (String.lt_irrefl key)
      refine ⟨next, ?_⟩
      rw [lookup?_bindEntries_of_none _ _ absent, Scope.bind, Scope.lookup?, if_pos rfl]
    · exact ih _ _ others found

end Scopes

section Paths

variable {scope : Scope} {first : String}

theorem evaluate_membersOf (call : Caller) {start : Nat} {top json : Json} {keys : List String}
    {read : Expression}
    (bound : Scope.lookup? first scope = some (Value.ofJson start top).1)
    (found : Json.find? keys top = some json)
    (is : read.bare = (Expression.name nowhere first).membersOf keys) :
    ∃ next, ∀ machine, evaluate call scope read machine =
      (.ok (Value.ofJson next json).1, machine) := by
  induction keys using List.reverseRecOn generalizing json read with
  | nil =>
    cases found
    cases read with
    | name span name =>
      cases is
      refine ⟨start, fun machine => ?_⟩
      rw [evaluate, bound]
      rfl
    | _ => cases is
  | append_singleton keys key ih =>
    rw [Expression.membersOf_concat] at is
    rw [Json.find?_append, Option.bind_eq_some_iff] at found
    obtain ⟨middle, ahead, last⟩ := found
    cases middle with
    | object entries =>
      cases read with
      | member span target property =>
        obtain ⟨_, inner, rfl⟩ := Expression.member.inj is
        obtain ⟨next, walked⟩ := ih ahead inner
        obtain ⟨_, under, same⟩ := Option.bind_eq_some_iff.mp last
        cases Option.some.inj same
        obtain ⟨place, member⟩ := Value.get?_ofEntries (next + 1) under
        refine ⟨place, fun machine => ?_⟩
        rw [evaluate]
        show Run.andThen _ _ machine = _
        rw [Run.andThen, walked]
        show memberOf (.object next (Value.ofEntries (next + 1) entries).1) property span machine = _
        rw [memberOf, member]
        rfl
      | _ => cases is
    | _ => cases last

end Paths

/-- A path of names, evaluated as an expression, gives what the document holds along the path. -/
theorem singleExpression_of_path {path : String} {keys : List String}
    {entries : List (String × Json)} {json : Json} (ascending : Dictionary.Ascending entries)
    (segments : Action.segments? path = some keys) (named : ∀ key ∈ keys, IsName key)
    (found : Json.find? keys (.object entries) = some json) :
    ∃ next, ∀ host, singleExpression path (.object entries) host =
      (.ok (Value.ofJson next json).1, host) := by
  obtain ⟨pieces, filled⟩ := Action.pieces_of_segments segments
  obtain ⟨first, rest, rfl⟩ := List.exists_cons_of_ne_nil filled
  obtain ⟨read, accepted, same⟩ := Source.expression_of_names pieces named
  obtain ⟨top, held, further⟩ := Option.bind_eq_some_iff.mp found
  have start : documentScope (.object entries) = bindEntries (Value.ofJson 0 (.object entries)).2
      (Scope.bind "state" (Value.ofJson 0 (.object entries)).1 []) entries := rfl
  obtain ⟨place, bound⟩ := lookup?_bindEntries (Value.ofJson 0 (.object entries)).2
    (Scope.bind "state" (Value.ofJson 0 (.object entries)).1 []) ascending held
  rw [← start] at bound
  obtain ⟨next, walked⟩ := evaluate_membersOf (callWithin path callLimit) bound further same
  refine ⟨next, fun host => ?_⟩
  rw [singleExpression, accepted]
  dsimp only
  rw [walked]
  rfl

end Evaluation

namespace Action

open Evaluation (singleExpression singleExpression_of_path)

theorem ascending_assign {entries : List (String × Json)} (ascending : Dictionary.Ascending entries)
    (path : List String) (value : Json) : Dictionary.Ascending (assign path value entries) := by
  cases path with
  | nil => exact ascending
  | cons key rest =>
    rw [assign_cons]
    exact Dictionary.ascending_insert ascending

theorem find?_assign {path : List String} (filled : path ≠ []) (value : Json)
    (entries : List (String × Json)) :
    Json.find? path (.object (assign path value entries)) = some value := by
  rw [object_assign filled]
  exact find?_placed path value _

/-- A statement is cut at the equals sign behind a path of names, whatever the source holds. -/
theorem splitAssignment?_of_names {path : String} {keys : List String}
    (segments : segments? path = some keys) (named : ∀ key ∈ keys, IsName key) (source : String) :
    splitAssignment? (path ++ "=" ++ source) = some (Text.trim path, Text.trim source) := by
  obtain ⟨pieces, _⟩ := pieces_of_segments segments
  have before : ∀ c ∈ path.toList, (c != '=') = true := by
    intro c member
    rw [bne_iff_ne]
    rintro rfl
    obtain ⟨piece, inside, holds⟩ : ∃ piece ∈ Text.splitChars (· == '.') path.toList, '=' ∈ piece :=
      Text.exists_mem_splitChars member rfl
    have kept : '=' ∈ (Text.trim (String.ofList piece)).toList :=
      Text.mem_trim_of_mem (String.toList_ofList ▸ holds) rfl
    have key : Text.trim (String.ofList piece) ∈ keys :=
      pieces ▸ List.mem_map_of_mem (List.mem_map_of_mem inside)
    exact absurd ((named _ key).spelled.parts '=' kept) (by decide)
  have chars : (path ++ "=" ++ source).toList = path.toList ++ '=' :: source.toList := by
    rw [String.toList_append, String.toList_append, List.append_assoc]
    rfl
  unfold splitAssignment?
  dsimp only
  rw [chars, List.dropWhile_append_of_pos before, List.takeWhile_append_of_pos before]
  simp

/-- What was assigned along a path is read back. A statement assigns the value of a source to a path
whose keys are names, and the keys of the document ascend, as they do in every document. If the source has
a value in the document and the value is data, then the statement succeeds, and in the document after it
the path itself is an expression for the assigned data, whatever the document held along the path before. -/
theorem assigned_path_reads_back {statement path source : String} {keys : List String} {state : Json}
    {value : Value} {json : Json}
    (split : splitAssignment? statement = some (path, source))
    (segments : segments? path = some keys) (named : ∀ key ∈ keys, IsName key)
    (ascending : Dictionary.Ascending (state.entries?.getD []))
    (evaluated : (singleExpression source state .empty).1 = .ok value)
    (data : value.toJson = .ok json) :
    ∃ after, apply statement state = (.ok (), after) ∧
      ∃ next, ∀ host, singleExpression path after host = (.ok (Value.ofJson next json).1, host) := by
  obtain ⟨_, filled⟩ := pieces_of_segments segments
  have pathFilled : path.isEmpty = false := by
    rw [Bool.eq_false_iff]
    intro empty
    rw [String.isEmpty_iff.mp empty] at segments
    cases segments
  have sourceFilled : source.isEmpty = false := by
    rw [Bool.eq_false_iff]
    intro empty
    rw [String.isEmpty_iff.mp empty] at evaluated
    cases evaluated
  refine ⟨.object (assign keys json (state.entries?.getD [])), ?_, ?_⟩
  · refine apply_of_ok ?_
    rw [evaluate, split]
    dsimp only
    rw [pathFilled, sourceFilled, segments, evaluated]
    dsimp only
    rw [data]
    rfl
  · exact singleExpression_of_path (ascending_assign ascending keys json) segments named
      (find?_assign filled json _)

/-- Under the name of the document there is a truth value, which gives way to an object. -/
theorem assigned_state_reads_back :
    let before := Json.object [("a", .object [("b", .text "c")]), ("state", .bool true)]
    ∃ after, apply "state . x = a.b" before = (.ok (), after) ∧
      ∀ host, singleExpression "state . x" after host = (.ok (.text "c"), host) := by
  intro before
  have ascending : Dictionary.Ascending (before.entries?.getD []) := by decide
  have named : ∀ key ∈ ["state", "x"], IsName key := by decide
  have letters : ∀ key ∈ ["a", "b"], IsName key := by decide
  have pieces : segments? "a.b" = some ["a", "b"] := rfl
  obtain ⟨_, copied⟩ := singleExpression_of_path ascending pieces letters rfl
  have segments : segments? "state . x " = some ["state", "x"] := rfl
  have split : splitAssignment? "state . x = a.b" = some ("state . x", "a.b") :=
    splitAssignment?_of_names segments named " a.b"
  obtain ⟨after, applied, _, reads⟩ :=
    assigned_path_reads_back split rfl named ascending (congrArg Prod.fst (copied .empty)) rfl
  exact ⟨after, applied, reads⟩

end Action

end ScreenStudio
