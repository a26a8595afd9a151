/- digest: Evaluating screens and single expressions, and running handlers. -/

import ScreenStudio.Evaluation.Evaluator
import ScreenStudio.Source.Program

set_option autoImplicit false
set_option relaxedAutoImplicit false

namespace ScreenStudio

open Evaluation

/-- The builders that a screen can use, in the order in which they are bound. -/
structure Vocabulary where
  builders : List Builtin

namespace Vocabulary

def standard : Vocabulary where
  builders := [⟨"Column", .column⟩, ⟨"Row", .row⟩, ⟨"Text", .text⟩, ⟨"Button", .button⟩,
    ⟨"Image", .image⟩, ⟨"LazyColumn", .lazyColumn⟩]

/-- Add a builder, in place of one with the same name. -/
def withBuilder (vocabulary : Vocabulary) (name : String) (behaviour : Behaviour) : Vocabulary where
  builders := vocabulary.builders.filter (fun builder => builder.name != name)
    ++ [⟨name, behaviour⟩]

def names (vocabulary : Vocabulary) : List String := vocabulary.builders.map Builtin.name

def hostFunctions : List Builtin := [⟨"render", .render⟩, ⟨"execute", .execute⟩, ⟨"log", .log⟩]

def scope (vocabulary : Vocabulary) (state : Value) : Scope :=
  let functions := vocabulary.builders ++ hostFunctions
  Scope.bind "state" state
    (functions.foldl (fun scope function => Scope.bind function.name (.builtin function) scope) [])

end Vocabulary

/-- A line of a trace: a callee and the line and column of the place in it. -/
structure TraceLine where
  callee : String
  position : Source.Position
  deriving DecidableEq, Repr

def TraceLine.text (line : TraceLine) : String :=
  "at " ++ line.callee ++ " (" ++ String.ofList (Number.digitChars line.position.line) ++ ":"
    ++ String.ofList (Number.digitChars line.position.column) ++ ")"

/-- Why evaluating a source has no result. -/
inductive EvaluationError
  | invalidSource (error : Source.SyntaxError)
  | runtime (fault : Fault) (stack : List TraceLine)
  | noRoot
  deriving DecidableEq

namespace EvaluationError

def message : EvaluationError → String
  | .invalidSource error => "SyntaxError: " ++ error.message
  | .runtime fault _ => fault.message
  | .noRoot => "render() was never called with a node"

/-- The text under the message: a diagnostic or the trace. -/
def detail : EvaluationError → String
  | .invalidSource error => error.report
  | .runtime _ stack => String.intercalate "\n" (stack.map TraceLine.text)
  | .noRoot => ""

end EvaluationError

/-- A failure of a run of `source`, with lines and columns. -/
def Evaluation.RuntimeError.located (error : RuntimeError) (source : String) : EvaluationError :=
  .runtime error.fault
    (error.trace.map (fun entry => ⟨entry.callee, Source.positionAt source entry.span.start⟩))

namespace Evaluation

/-- Run a screen with identities counted from `next`. -/
def screenFrom (next : Nat) (source : String) (vocabulary : Vocabulary) (state : Json)
    (host : Recording) : Except EvaluationError Node × Recording :=
  match Source.program source with
  | .error error => (.error (.invalidSource error), host)
  | .ok statements =>
    let (value, start) := Value.ofJson next state
    let run := executeBlock (callWithin source callLimit) (vocabulary.scope value) statements
    let (result, machine) := run (Machine.initial start host)
    match result with
    | .error error => (.error (error.located source), machine.host)
    | .ok _ =>
      match machine.root with
      | some root => (.ok root, machine.host)
      | none => (.error .noRoot, machine.host)

def screen (source : String) (vocabulary : Vocabulary) (state : Json) (host : Recording) :
    Except EvaluationError Node × Recording :=
  screenFrom 0 source vocabulary state host

/-- Bind every entry of a document over a scope, each with identities of its own. -/
def bindEntries (next : Nat) (scope : Scope) : List (String × Json) → Scope × Nat
  | [] => (scope, next)
  | (key, json) :: rest =>
    let (value, after) := Value.ofJson next json
    bindEntries after (Scope.bind key value scope) rest

/-- The scope of a single expression: the document under its own name, and over it the top-level keys
of the document. -/
def documentScope (state : Json) : Scope × Nat :=
  let (value, next) := Value.ofJson 0 state
  bindEntries next (Scope.bind "state" value []) ((state.entries?).getD [])

/-- Evaluate a source that is a single expression against a state document. -/
def singleExpression (source : String) (state : Json) (host : Recording) :
    Except EvaluationError Value × Recording :=
  match Source.expression source with
  | .error error => (.error (.invalidSource error), host)
  | .ok expression =>
    let (scope, next) := documentScope state
    let run := evaluate (callWithin source callLimit) scope expression
    let (result, machine) := run (Machine.initial next host)
    (result.mapError (fun error => error.located source), machine.host)

end Evaluation

def Handler.traceName : String := "<handler>"

/-- Run a handler with identities counted from `next`. -/
def Handler.invokeFrom (next : Nat) (handler : Handler) (host : Recording) :
    Except EvaluationError Unit × Recording :=
  match handler with
  | .action text => (.ok (), host.dispatch text)
  | .callback closure source _ =>
    let request : Call := ⟨Handler.traceName, .function closure, [], closure.span⟩
    let (result, machine) := callWithin source callLimit request (Machine.initial next host)
    ((result.map (fun _ => ())).mapError (fun error => error.located source), machine.host)

def Handler.invoke (handler : Handler) (host : Recording) :
    Except EvaluationError Unit × Recording :=
  match handler with
  | .action _ => handler.invokeFrom 0 host
  | .callback _ _ fresh => handler.invokeFrom fresh host

end ScreenStudio
