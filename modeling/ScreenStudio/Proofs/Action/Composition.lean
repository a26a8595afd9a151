/- digest: Actions run one after the other as one action, and statements that fail may be left out. -/

import ScreenStudio.Proofs.Action
import ScreenStudio.Proofs.Text.Pieces

/-!
Two actions with a semicolon between them are one action that does what the first does and then, on
the document it leaves, what the second does. Each statement is such an action: where it fails it adds
its error and nothing else. So an action does to the document what is left of it does after every
statement that fails in its turn is deleted.
-/

set_option autoImplicit false
set_option relaxedAutoImplicit false

namespace ScreenStudio.Action

/-- A text that is one statement of an action as it stands. -/
structure IsStatement (text : String) : Prop where
  filled : text ≠ ""
  trimmed : Text.trim text = text
  no_semicolon : ';' ∉ text.toList

/-- What makes a statement fail on a document, with the error of the stage that fails: it is cut into a path
and a source, the path into keys, the source is evaluated and its value is made data. -/
inductive Fails (statement : String) (state : Json) : ActionError → Prop
  | unsplit (none : splitAssignment? statement = none) : Fails statement state (.malformed statement)
  | unfilled {path source : String} (split : splitAssignment? statement = some (path, source))
    (empty : path = "" ∨ source = "") : Fails statement state (.malformed statement)
  | path {path source : String} (split : splitAssignment? statement = some (path, source))
    (filled : path ≠ "" ∧ source ≠ "") (none : segments? path = none) :
    Fails statement state (.invalidPath path)
  | evaluation {path source : String} {keys : List String} {error : EvaluationError}
    (split : splitAssignment? statement = some (path, source)) (filled : path ≠ "" ∧ source ≠ "")
    (segments : segments? path = some keys)
    (failed : (Evaluation.singleExpression source state .empty).1 = .error error) :
    Fails statement state (.evaluation statement error)
  | conversion {path source : String} {keys : List String} {value : Value} {kind : Kind}
    (split : splitAssignment? statement = some (path, source)) (filled : path ≠ "" ∧ source ≠ "")
    (segments : segments? path = some keys)
    (evaluated : (Evaluation.singleExpression source state .empty).1 = .ok value)
    (failed : value.toJson = .error kind) : Fails statement state (.notData path kind)

/-- The statements that do not fail when all of them run one after the other. -/
def succeeding : List String → Json → List String
  | [], _ => []
  | statement :: rest, state =>
    match apply statement state with
    | (.ok _, after) => statement :: succeeding rest after
    | (.error _, after) => succeeding rest after

/-- What statements do one after the other. -/
def runAll (list : List String) (state : Json) : ActionOutcome :=
  list.foldl step ⟨state, false, []⟩

section Statements

variable {action text : String}

theorem isStatement_of_mem {statement : String} (member : statement ∈ statements action) :
    IsStatement statement := by
  obtain ⟨inside, filled⟩ := List.mem_filter.mp member
  obtain ⟨piece, cut, rfl⟩ := List.mem_map.mp inside
  refine ⟨by simpa using filled, Text.trim_trim piece, ?_⟩
  intro semicolon
  exact Text.not_mem_of_mem_split cut (Text.mem_of_mem_trim semicolon)

theorem statements_append (first second : String) :
    statements (first ++ ";" ++ second) = statements first ++ statements second := by
  unfold statements
  rw [Text.split_append rfl, List.map_append, List.filter_append]

private theorem filter_trimmed {list : List String}
    (each : ∀ statement ∈ list, IsStatement statement) :
    (list.map Text.trim).filter (fun statement => !statement.isEmpty) = list := by
  have trimmed : list.map Text.trim = list := by
    refine (List.map_congr_left ?_).trans (List.map_id list)
    exact fun statement member => (each statement member).trimmed
  rw [trimmed, List.filter_eq_self]
  intro statement member
  simpa using (each statement member).filled

theorem statements_of_isStatement (single : IsStatement text) : statements text = [text] := by
  unfold statements
  rw [Text.split_of_not_mem single.no_semicolon]
  exact filter_trimmed (List.forall_mem_singleton.mpr single)

theorem statements_intercalate {list : List String}
    (each : ∀ statement ∈ list, IsStatement statement) :
    statements (";".intercalate list) = list := by
  cases list with
  | nil => rfl
  | cons statement rest =>
    unfold statements
    rw [Text.split_intercalate rfl (List.cons_ne_nil statement rest)
      (fun other member => (each other member).no_semicolon)]
    exact filter_trimmed each

end Statements

section Failing

variable {statement : String} {state : Json} {error : ActionError}

theorem evaluate_of_fails (fails : Fails statement state error) : evaluate statement state = .error error := by
  have filled : ∀ {path source : String}, path ≠ "" ∧ source ≠ "" →
      (path.isEmpty || source.isEmpty) = false := by
    intro path source ⟨one, two⟩
    simp [one, two]
  unfold evaluate
  cases fails with
  | unsplit none => rw [none]
  | unfilled split empty =>
    rw [split]
    dsimp only
    rw [if_pos (by simpa using empty)]
  | path split full none =>
    rw [split]
    dsimp only
    rw [filled full, none]
    rfl
  | evaluation split full segments failed =>
    rw [split]
    dsimp only
    rw [filled full, segments]
    dsimp only
    rw [failed]
    rfl
  | conversion split full segments evaluated failed =>
    rw [split]
    dsimp only
    rw [filled full, segments]
    dsimp only
    rw [evaluated]
    dsimp only
    rw [failed]
    rfl

theorem fails_of_evaluate (failed : evaluate statement state = .error error) :
    Fails statement state error := by
  unfold evaluate at failed
  split at failed
  · rename_i none
    cases failed
    exact .unsplit none
  · rename_i path source split
    split at failed
    · rename_i empty
      cases failed
      exact .unfilled split (by simpa using empty)
    · rename_i full
      have filled : path ≠ "" ∧ source ≠ "" := by simpa using full
      split at failed
      · rename_i none
        cases failed
        exact .path split filled none
      · rename_i keys segments
        split at failed
        · rename_i cause evaluated
          cases failed
          exact .evaluation split filled segments evaluated
        · rename_i value evaluated
          split at failed
          · rename_i kind converted
            cases failed
            exact .conversion split filled segments evaluated converted
          · cases failed

theorem apply_of_fails (fails : Fails statement state error) :
    apply statement state = (.error error, state) :=
  apply_of_error (evaluate_of_fails fails)

theorem fails_of_apply (failed : (apply statement state).1 = .error error) : Fails statement state error := by
  cases result : evaluate statement state with
  | error cause =>
    rw [apply_of_error result] at failed
    cases failed
    exact fails_of_evaluate result
  | ok assignment =>
    rw [apply_of_ok result] at failed
    cases failed

end Failing

section Running

variable {statement : String} {rest : List String} {state after : Json} {error : ActionError}

private theorem foldl_step_eq (list : List String) (outcome : ActionOutcome) :
    list.foldl step outcome =
      let later := runAll list outcome.state
      ⟨later.state, outcome.changed || later.changed, outcome.errors ++ later.errors⟩ := by
  unfold runAll
  induction list generalizing outcome with
  | nil => simp
  | cons statement rest ih =>
    rw [List.foldl_cons, List.foldl_cons, ih, ih (step _ statement)]
    unfold step
    obtain ⟨result, after⟩ := apply statement outcome.state
    cases result with
    | ok done => simp
    | error error => simp

private theorem apply_cases (statement : String) (state : Json) :
    (∃ after, apply statement state = (.ok (), after)) ∨
      ∃ error, apply statement state = (.error error, state) := by
  cases result : evaluate statement state with
  | ok assignment => exact .inl ⟨_, apply_of_ok result⟩
  | error error => exact .inr ⟨error, apply_of_error result⟩

private theorem runAll_of_ok (applied : apply statement state = (.ok (), after)) :
    runAll (statement :: rest) state = { runAll rest after with changed := true } := by
  have first : step ⟨state, false, []⟩ statement = ⟨after, true, []⟩ := by
    unfold step
    rw [applied]
  rw [runAll, List.foldl_cons, first, foldl_step_eq]
  rfl

private theorem runAll_of_error (failed : apply statement state = (.error error, state)) :
    runAll (statement :: rest) state =
      { runAll rest state with errors := error :: (runAll rest state).errors } := by
  have first : step ⟨state, false, []⟩ statement = ⟨state, false, [error]⟩ := by
    unfold step
    rw [failed]
    rfl
  rw [runAll, List.foldl_cons, first, foldl_step_eq]
  rfl

private theorem succeeding_of_ok (applied : apply statement state = (.ok (), after)) :
    succeeding (statement :: rest) state = statement :: succeeding rest after := by
  rw [succeeding, applied]

private theorem succeeding_of_error (failed : apply statement state = (.error error, state)) :
    succeeding (statement :: rest) state = succeeding rest state := by
  rw [succeeding, failed]

theorem execute_append (first second : String) (state : Json) :
    execute (first ++ ";" ++ second) state =
      ⟨(execute second (execute first state).state).state,
        (execute first state).changed || (execute second (execute first state).state).changed,
        (execute first state).errors ++ (execute second (execute first state).state).errors⟩ := by
  show (statements (first ++ ";" ++ second)).foldl step ⟨state, false, []⟩ = _
  rw [statements_append, List.foldl_append, foldl_step_eq]
  rfl

theorem execute_of_fails (single : IsStatement statement) (fails : Fails statement state error) :
    execute statement state = ⟨state, false, [error]⟩ := by
  show runAll (statements statement) state = _
  rw [statements_of_isStatement single, runAll_of_error (apply_of_fails fails)]
  rfl

theorem succeeding_sublist (list : List String) (state : Json) :
    (succeeding list state).Sublist list := by
  induction list generalizing state with
  | nil => exact List.Sublist.slnil
  | cons statement rest ih =>
    rcases apply_cases statement state with ⟨after, applied⟩ | ⟨error, failed⟩
    · rw [succeeding_of_ok applied]
      exact (ih after).cons_cons statement
    · rw [succeeding_of_error failed]
      exact (ih state).cons statement

private theorem length_succeeding (list : List String) (state : Json) :
    (succeeding list state).length + (runAll list state).errors.length = list.length := by
  induction list generalizing state with
  | nil => rfl
  | cons statement rest ih =>
    rcases apply_cases statement state with ⟨after, applied⟩ | ⟨error, failed⟩
    · have later := ih after
      rw [succeeding_of_ok applied, runAll_of_ok applied]
      simp only [List.length_cons]
      omega
    · have later := ih state
      rw [succeeding_of_error failed, runAll_of_error failed]
      simp only [List.length_cons]
      omega

private theorem runAll_succeeding (list : List String) (state : Json) :
    runAll (succeeding list state) state =
      ⟨(runAll list state).state, (runAll list state).changed, []⟩ := by
  induction list generalizing state with
  | nil => rfl
  | cons statement rest ih =>
    rcases apply_cases statement state with ⟨after, applied⟩ | ⟨error, failed⟩
    · rw [succeeding_of_ok applied, runAll_of_ok applied, runAll_of_ok applied, ih after]
    · rw [succeeding_of_error failed, runAll_of_error failed, ih state]

end Running

/-- Two actions with a semicolon between them do what the first does and then what the second does on
the document that the first has left: the state is that of the second, the errors of both follow each
other, and something has changed if one of them changed it. A statement fails at one of the stages of
`Fails` and at none besides, and whichever it is, it leaves the document that it has met; between the two
actions it adds its error and has no other effect. Deleting all statements that fail from an action, and no
others, changes neither the document it leaves nor whether it has changed something, and an action that has
changed nothing leaves the document as it was. -/
theorem actions_compose (first second : String) (state : Json) :
    let one := execute first state
    let two := execute second one.state
    let kept := succeeding (statements first) state
    execute (first ++ ";" ++ second) state =
        ⟨two.state, one.changed || two.changed, one.errors ++ two.errors⟩ ∧
      (∀ statement document error, (apply statement document).1 = .error error →
        Fails statement document error) ∧
      (∀ statement document error, Fails statement document error →
        apply statement document = (.error error, document)) ∧
      (∀ statement error, IsStatement statement → (apply statement one.state).1 = .error error →
        execute (first ++ ";" ++ statement ++ ";" ++ second) state =
          ⟨two.state, one.changed || two.changed, one.errors ++ error :: two.errors⟩) ∧
      (∀ shorter, statements shorter = kept → execute shorter state = ⟨one.state, one.changed, []⟩) ∧
      statements (";".intercalate kept) = kept ∧
      kept.Sublist (statements first) ∧
      kept.length + one.errors.length = (statements first).length ∧
      (one.changed = false → one.state = state) := by
  intro one two kept
  refine ⟨execute_append first second state, fun _ _ _ failed => fails_of_apply failed,
    fun _ _ _ fails => apply_of_fails fails, ?_, ?_, ?_, succeeding_sublist _ state,
    length_succeeding _ state, execute_unchanged⟩
  · intro statement error single failed
    have adds := execute_of_fails single (fails_of_apply failed)
    rw [execute_append, execute_append, adds]
    simp [one, two]
  · intro shorter same
    show runAll (statements shorter) state = _
    rw [same]
    exact runAll_succeeding (statements first) state
  · refine statements_intercalate ?_
    exact fun statement member => isStatement_of_mem ((succeeding_sublist _ state).mem member)

/-- A statement without an equals sign and one without a path fail; the others see each other. -/
example : succeeding (statements "x; y = 'a' ; = 3; z = state.y") (.object []) =
    ["y = 'a'", "z = state.y"] := by decide +kernel

end ScreenStudio.Action
