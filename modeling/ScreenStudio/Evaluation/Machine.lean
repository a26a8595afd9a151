/- digest: What a running program changes, and runs that can fail without losing those changes. -/

import ScreenStudio.Value.Text

set_option autoImplicit false
set_option relaxedAutoImplicit false

namespace ScreenStudio

/-- What a program has handed to its host, in order. -/
structure Recording where
  actions : List String
  logs : List String
  deriving DecidableEq, Repr

def Recording.empty : Recording := ⟨[], []⟩

instance : Inhabited Recording := ⟨.empty⟩

def Recording.log (recording : Recording) (line : String) : Recording :=
  { recording with logs := recording.logs ++ [line] }

def Recording.dispatch (recording : Recording) (action : String) : Recording :=
  { recording with actions := recording.actions ++ [action] }

namespace Evaluation

open Source (Span)

/-- Why running a program fails. -/
inductive Fault
  | notDefined (name : String)
  | notFunction (name : String)
  | tooManyCalls
  | memberOfNull (property : String)
  | builderExpected (got : Kind)
  | notChild (got : Kind)
  | containerClosed
  | buttonAction
  | itemsExpected (got : Kind)
  | itemRendererExpected
  | nullItem
  | renderFunction
  | renderNode (got : Kind)
  deriving DecidableEq, Repr

def Fault.message : Fault → String
  | .notDefined name => name ++ " is not defined"
  | .notFunction name => name ++ " is not a function"
  | .tooManyCalls => "Maximum call stack size exceeded"
  | .memberOfNull property => "Cannot read properties of null (reading '" ++ property ++ "')"
  | .builderExpected got => "container expects a builder function, got " ++ got.name
  | .notChild got => "cannot add a " ++ got.name ++ " as a child"
  | .containerClosed => "add() was called after its container was built"
  | .buttonAction => "Button action must be an action string or an arrow function"
  | .itemsExpected got => "LazyColumn expects an array of items, got " ++ got.name
  | .itemRendererExpected => "LazyColumn expects an item renderer function"
  | .nullItem => "item renderer returned null"
  | .renderFunction => "render() expects a function"
  | .renderNode got => "render() function must return a node, got " ++ got.name

/-- A call in progress: what was called and from where. -/
structure Frame where
  callee : String
  span : Span
  deriving DecidableEq, Repr

/-- One line of a trace: a callee and the place in it. -/
structure TraceEntry where
  callee : String
  span : Span
  deriving DecidableEq, Repr

/-- The callee of the outermost line of a trace. -/
def programName : String := "<program>"

/-- The trace of a failure at `span` with some calls in progress. -/
def traceFrom (span : Span) : List Frame → List TraceEntry
  | [] => [⟨programName, span⟩]
  | frame :: outer => ⟨frame.callee, span⟩ :: traceFrom frame.span outer

/-- A failure of a running program. -/
structure RuntimeError where
  fault : Fault
  trace : List TraceEntry
  deriving DecidableEq, Repr

/-- What a running program changes. -/
structure Machine where
  next : Nat
  frames : List Frame
  collectors : List (Nat × List Child)
  root : Option Node
  host : Recording

/-- The machine at the start of a run. -/
def Machine.initial (next : Nat) (host : Recording) : Machine where
  next := next
  frames := []
  collectors := []
  root := none
  host := host

def Run (α : Type) := Machine → Except RuntimeError α × Machine

namespace Run

variable {α β : Type}

def succeed (value : α) : Run α := fun machine => (.ok value, machine)

/-- Run one and then another that depends on its result. -/
def andThen (run : Run α) (next : α → Run β) : Run β := fun machine =>
  match run machine with
  | (.ok value, after) => next value after
  | (.error error, after) => (.error error, after)

instance : Monad Run where
  pure := succeed
  bind := andThen

/-- Fail at a place with the trace of the calls in progress. -/
def fail (span : Span) (fault : Fault) : Run α := fun machine =>
  (.error ⟨fault, traceFrom span machine.frames⟩, machine)

/-- Run and hand out the failure as a value. -/
def attempt (run : Run α) : Run (Except RuntimeError α) := fun machine =>
  let (result, after) := run machine
  (.ok result, after)

def identity : Run Nat := fun machine =>
  (.ok machine.next, { machine with next := machine.next + 1 })

def log (line : String) : Run Unit := fun machine =>
  (.ok (), { machine with host := machine.host.log line })

def dispatch (action : String) : Run Unit := fun machine =>
  (.ok (), { machine with host := machine.host.dispatch action })

/-- Make a node the root of the tree. -/
def setRoot (node : Node) : Run Unit := fun machine =>
  (.ok (), { machine with root := some node })

/-- Run with one more call in progress. The call ends with the run, however the run ends. -/
def withFrame (frame : Frame) (run : Run α) : Run α := fun machine =>
  let (result, after) := run { machine with frames := frame :: machine.frames }
  (result, { after with frames := after.frames.tail })

def collected (collector : Nat) : List (Nat × List Child) → List Child
  | [] => []
  | (identity, children) :: outer =>
    if identity = collector then children else collected collector outer

/-- Run with an open collector and hand out what it has collected. The collector is closed with the
run, however the run ends. -/
def withCollector (collector : Nat) (run : Run α) : Run (α × List Child) := fun machine =>
  let (result, after) := run { machine with collectors := (collector, []) :: machine.collectors }
  let children := collected collector after.collectors
  (result.map (fun value => (value, children)),
    { after with collectors := after.collectors.filter (fun entry => entry.1 != collector) })

/-- Add children to an open collector; tells whether it was open. -/
def collect (collector : Nat) (children : List Child) : Run Bool := fun machine =>
  if machine.collectors.any (fun entry => entry.1 == collector) then
    (.ok true, { machine with collectors := machine.collectors.map (fun entry =>
      if entry.1 = collector then (entry.1, entry.2 ++ children) else entry) })
  else (.ok false, machine)

end Run

end Evaluation

end ScreenStudio
