/- digest: Evaluation of expressions and blocks under a bound on nested calls. -/

import ScreenStudio.Evaluation.Builders

/-!
Expressions and blocks are evaluated by recursion on their syntax, with the way to call a value as an
argument. A call in turn has a number of further calls that may be in progress at once, and hands one
less to the body it runs. So evaluation ends: a program that calls without end fails where no further
call is allowed.
-/

set_option autoImplicit false
set_option relaxedAutoImplicit false

namespace ScreenStudio.Evaluation

open Source (Span Literal Expression Statement Body)

/-- How a block ends: behind its last statement, or with a returned value. -/
inductive Flow
  | next
  | result (value : Value)

/-- How a statement ends: with the scope for the next one, or with a returned value. -/
inductive Step
  | goOn (scope : Scope)
  | finish (value : Value)

def literalValue : Literal → Value
  | .number value => .number value
  | .text value => .text value
  | .bool value => .bool value
  | .null => .null

/-- The name by which a call goes in traces. -/
def callName (callee : Expression) (function : Value) : String :=
  match callee, function with
  | .name _ name, _ => name
  | .member _ _ property, _ => property
  | _, .builtin builtin => builtin.name
  | _, _ => "<anonymous>"

mutual

def evaluate (call : Caller) (scope : Scope) : Expression → Run Value
  | .literal _ value => Run.succeed (literalValue value)
  | .array _ items => do
    let values ← evaluateItems call scope items
    let identity ← Run.identity
    return .array identity values
  | .object _ entries => do
    let values ← evaluateEntries call scope entries
    let identity ← Run.identity
    return .object identity (Dictionary.ofEntries values)
  | .name span name =>
    match Scope.lookup? name scope with
    | some value => Run.succeed value
    | none => Run.fail span (.notDefined name)
  | .member span target property => do
    let value ← evaluate call scope target
    memberOf value property span
  | .index span target key => do
    let value ← evaluate call scope target
    let key ← evaluate call scope key
    indexOf value key span
  | .call span callee arguments => do
    let function ← evaluate call scope callee
    let values ← evaluateItems call scope arguments
    call ⟨callName callee function, function, values, span⟩
  | .arrow span parameters body => Run.succeed (.function (.mk span parameters body scope))
  | .unary _ operator operand => do
    let value ← evaluate call scope operand
    return applyUnary operator value
  | .binary _ operator left right => do
    let a ← evaluate call scope left
    match operator, a.isTruthy with
    | .and, false => return a
    | .or, true => return a
    | .and, true => evaluate call scope right
    | .or, false => evaluate call scope right
    | operator, _ =>
      let b ← evaluate call scope right
      return applyBinary operator a b
  | .conditional _ condition consequent alternative => do
    let value ← evaluate call scope condition
    if value.isTruthy then evaluate call scope consequent else evaluate call scope alternative

def evaluateItems (call : Caller) (scope : Scope) : List Expression → Run (List Value)
  | [] => Run.succeed []
  | item :: rest => do
    let value ← evaluate call scope item
    let values ← evaluateItems call scope rest
    return value :: values

/-- Evaluate the entries of an object from left to right. -/
def evaluateEntries (call : Caller) (scope : Scope) :
    List (String × Expression) → Run (List (String × Value))
  | [] => Run.succeed []
  | (key, item) :: rest => do
    let value ← evaluate call scope item
    let values ← evaluateEntries call scope rest
    return (key, value) :: values

def executeStatement (call : Caller) (scope : Scope) : Statement → Run Step
  | .binding _ name value => do
    let value ← evaluate call scope value
    return .goOn (Scope.bind name value scope)
  | .expression _ value => do
    let _ ← evaluate call scope value
    return .goOn scope
  | .branch _ condition consequent alternative => do
    let value ← evaluate call scope condition
    let flow ←
      if value.isTruthy then executeBlock call scope consequent
      else
        match alternative with
        | some statements => executeBlock call scope statements
        | none => Run.succeed .next
    match flow with
    | .next => return .goOn scope
    | .result value => return .finish value
  | .result _ none => Run.succeed (.finish .null)
  | .result _ (some value) => do
    let value ← evaluate call scope value
    return .finish value

def executeBlock (call : Caller) (scope : Scope) : List Statement → Run Flow
  | [] => Run.succeed .next
  | statement :: rest => do
    match ← executeStatement call scope statement with
    | .goOn scope => executeBlock call scope rest
    | .finish value => return .result value

end

/-- The scope of a body: the parameters over the captured bindings. A parameter without an argument
is null. -/
def bindParameters (scope : Scope) : List String → List Value → Scope
  | [], _ => scope
  | parameter :: rest, [] => bindParameters (Scope.bind parameter .null scope) rest []
  | parameter :: rest, argument :: arguments =>
    bindParameters (Scope.bind parameter argument scope) rest arguments

def callClosure (call : Caller) (closure : Closure) (arguments : List Value) : Run Value :=
  let scope := bindParameters closure.scope closure.parameters arguments
  match closure.body with
  | .expression value => evaluate call scope value
  | .block statements => do
    match ← executeBlock call scope statements with
    | .result value => return value
    | .next => return .null

def enter (source : String) (call : Caller) (request : Call) : Run Value :=
  match request.callee with
  | .builtin function => runBuiltin source call function.behaviour request.arguments request.span
  | .function closure => callClosure call closure request.arguments
  | .adder collector => addTo collector request.arguments request.span
  | other => Run.fail request.span (.notFunction other.kind.name)

/-- How many calls may be in progress at once. -/
def callLimit : Nat := 256

/-- Call a value while `room` further calls may be in progress. -/
def callWithin (source : String) : Nat → Caller
  | 0 => fun request =>
    if request.callee.isCallable then Run.fail request.span .tooManyCalls
    else Run.fail request.span (.notFunction request.name)
  | room + 1 => fun request =>
    if request.callee.isCallable then
      Run.withFrame ⟨request.name, request.span⟩ (enter source (callWithin source room) request)
    else Run.fail request.span (.notFunction request.name)

end ScreenStudio.Evaluation
