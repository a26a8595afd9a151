/- digest: Actions: statements that assign values of expressions to paths of a state document. -/

import ScreenStudio.Evaluation.Program

set_option autoImplicit false
set_option relaxedAutoImplicit false

namespace ScreenStudio

/-- Why a statement of an action changes nothing. -/
inductive ActionError
  | malformed (statement : String)
  | invalidPath (path : String)
  | notData (path : String) (kind : Kind)
  | evaluation (statement : String) (source : EvaluationError)
  deriving DecidableEq

def ActionError.message : ActionError → String
  | .malformed statement =>
    "malformed action statement `" ++ statement ++ "`, expected `path = expression`"
  | .invalidPath path => "invalid assignment target `" ++ path ++ "`"
  | .notData path kind => "cannot store a " ++ kind.name ++ " in `" ++ path ++ "`"
  | .evaluation statement source => "`" ++ statement ++ "`: " ++ source.message

/-- What an action has done: the document it leaves, whether a statement succeeded, and the errors of
the others in order. -/
structure ActionOutcome where
  state : Json
  changed : Bool
  errors : List ActionError

namespace Action

/-- Assign along a path of keys. Where the path needs an object and there is none, an empty one takes
its place. -/
def assign : List String → Json → List (String × Json) → List (String × Json)
  | [], _, entries => entries
  | [key], value, entries => Dictionary.insert key value entries
  | key :: path, value, entries =>
    let inner := ((Dictionary.get? key entries).bind Json.entries?).getD []
    Dictionary.insert key (.object (assign path value inner)) entries

/-- The statements of an action, without blanks around them and without empty ones. -/
def statements (action : String) : List String :=
  ((Text.split (· == ';') action).map Text.trim).filter (fun statement => !statement.isEmpty)

/-- The parts before and after the first equals sign. -/
def splitAssignment? (statement : String) : Option (String × String) :=
  let cs := statement.toList
  match cs.dropWhile (· != '=') with
  | [] => none
  | _ :: after =>
    some (Text.trim (String.ofList (cs.takeWhile (· != '='))), Text.trim (String.ofList after))

/-- The keys of a path, or nothing if one of them is empty. -/
def segments? (path : String) : Option (List String) :=
  let segments := (Text.split (· == '.') path).map Text.trim
  if segments.any String.isEmpty then none else some segments

/-- The keys that a statement assigns to and the data it assigns. -/
def evaluate (statement : String) (state : Json) : Except ActionError (List String × Json) :=
  match splitAssignment? statement with
  | none => .error (.malformed statement)
  | some (path, expression) =>
    if path.isEmpty || expression.isEmpty then .error (.malformed statement)
    else
      match segments? path with
      | none => .error (.invalidPath path)
      | some segments =>
        match (Evaluation.singleExpression expression state .empty).1 with
        | .error source => .error (.evaluation statement source)
        | .ok value =>
          match value.toJson with
          | .error kind => .error (.notData path kind)
          | .ok json => .ok (segments, json)

/-- Run one statement on a document: what comes of it, and the document it leaves. A document that is no
object is replaced by one before something is assigned. -/
def apply (statement : String) (state : Json) : Except ActionError Unit × Json :=
  match evaluate statement state with
  | .error error => (.error error, state)
  | .ok (path, value) => (.ok (), .object (assign path value (state.entries?.getD [])))

def step (outcome : ActionOutcome) (statement : String) : ActionOutcome :=
  match apply statement outcome.state with
  | (.ok _, state) => { outcome with state := state, changed := true }
  | (.error error, state) => { outcome with state := state, errors := outcome.errors ++ [error] }

def execute (action : String) (state : Json) : ActionOutcome :=
  (statements action).foldl step ⟨state, false, []⟩

end Action

end ScreenStudio
