/- digest: The builders of the vocabulary, given a way to call values. -/

import ScreenStudio.Evaluation.Operators
import ScreenStudio.Value.Data

set_option autoImplicit false
set_option relaxedAutoImplicit false

namespace ScreenStudio.Evaluation

open Source (Span)

/-- A call: the name it goes by in traces, the value called, the arguments and the place. -/
structure Call where
  name : String
  callee : Value
  arguments : List Value
  span : Span

abbrev Caller := Call → Run Value

/-- The name by which a value goes in traces when a builder calls it. -/
def traceName : Value → String
  | .builtin function => function.name
  | .adder _ => "add"
  | _ => "<anonymous>"

def Caller.apply (call : Caller) (callee : Value) (arguments : List Value) (span : Span) :
    Run Value :=
  call ⟨traceName callee, callee, arguments, span⟩

/-- The child that a value makes; null makes none. -/
def childOf (value : Value) (span : Span) : Run (Option Child) :=
  match value with
  | .null => Run.succeed none
  | .node _ node => Run.succeed (some (.node node))
  | .text content => Run.succeed (some (.text content))
  | .number _ => Run.succeed (some (.text value.display))
  | .bool _ => Run.succeed (some (.text value.display))
  | other => Run.fail span (.notChild other.kind)

def addTo (collector : Nat) (arguments : List Value) (span : Span) : Run Value := do
  let child ← childOf (arguments.head?.getD .null) span
  if ← Run.collect collector child.toList then return .null
  else Run.fail span .containerClosed

def childrenOf (call : Caller) (builder : Option Value) (span : Span) : Run (List Child) :=
  match builder with
  | none => Run.succeed []
  | some .null => Run.succeed []
  | some builder =>
    if builder.isCallable then do
      let collector ← Run.identity
      let (_, children) ← Run.withCollector collector (call.apply builder [.adder collector] span)
      return children
    else Run.fail span (.builderExpected builder.kind)

def newNode (tag : String) (properties : List (String × Property)) (children : List Child) :
    Run Value := do
  let identity ← Run.identity
  return .node identity (.mk tag properties children)

def style (entries : List (String × String)) : String × Property :=
  ("style", .data (.object (entries.map (fun entry => (entry.1, .text entry.2)))))

def column (call : Caller) (arguments : List Value) (span : Span) : Run Value := do
  let children ← childrenOf call arguments.head? span
  newNode "div"
    [style [("display", "flex"), ("flexDirection", "column"), ("gap", "8px")]] children

def row (call : Caller) (arguments : List Value) (span : Span) : Run Value := do
  let children ← childrenOf call arguments.head? span
  newNode "div"
    [style [("alignItems", "center"), ("display", "flex"), ("flexDirection", "row"),
      ("gap", "8px")]]
    children

/-- The text of a value or of what it produces; `absent` where there is none. -/
def contentOf (call : Caller) (content : Option Value) (absent : String) (span : Span) :
    Run String :=
  match content with
  | none => Run.succeed absent
  | some content =>
    if content.isCallable then do
      match ← call.apply content [] span with
      | .null => return ""
      | produced => return produced.display
    else if content.isTruthy then Run.succeed content.display
    else Run.succeed absent

def text (call : Caller) (arguments : List Value) (span : Span) : Run Value := do
  let content ← contentOf call arguments.head? "" span
  newNode "div" [style [("color", "#e6f6ff"), ("fontSize", "14px")]] [.text content]

/-- The handler that the first argument of a button makes. -/
def handlerOf (source : String) (action : Option Value) (span : Span) : Run (Option Handler) :=
  match action with
  | none => Run.succeed none
  | some .null => Run.succeed none
  | some (.function closure) => fun machine =>
    (.ok (some (.callback closure source machine.next)), machine)
  | some other =>
    if other.isCallable then Run.fail span .buttonAction
    else Run.succeed (some (.action other.display))

def button (source : String) (call : Caller) (arguments : List Value) (span : Span) :
    Run Value := do
  let handler ← handlerOf source arguments.head? span
  let label ← contentOf call arguments[1]? "Button" span
  let listener := handler.toList.map (fun handler => ("onClick", Property.handler handler))
  newNode "button" (("className", .data (.text "compose-button")) :: listener) [.text label]

/-- The width that an image is given when no other is asked for. -/
def defaultImageWidth : Float := 120

/-- The width that the options of an image ask for. -/
def imageWidth (options : Option Value) : Float :=
  match options with
  | some (.object _ entries) =>
    match Dictionary.get? "width" entries with
    | some width => if width.isTruthy then width.toNumber else defaultImageWidth
    | none => defaultImageWidth
  | _ => defaultImageWidth

def imageAddress : Option Value → String
  | none => ""
  | some .null => ""
  | some address => address.display

def image (arguments : List Value) : Run Value :=
  newNode "img"
    [("src", .data (.text (imageAddress arguments.head?))),
      ("style", .data (.object [("borderRadius", .text "8px"),
        ("maxWidth", Json.ofFloat (imageWidth arguments[1]?))]))]
    []

def itemsOf (items : Option Value) (span : Span) : Run (List Value) :=
  match items with
  | none => Run.succeed []
  | some .null => Run.succeed []
  | some (.array _ items) => Run.succeed items
  | some other => Run.fail span (.itemsExpected other.kind)

/-- The child that a renderer makes of an item. -/
def itemChild (call : Caller) (renderer item : Value) (index : Nat) (span : Span) :
    Run Child := do
  let rendered ← call.apply renderer [item, .number (Number.ofInt index)] span
  match ← childOf rendered span with
  | some child => return child
  | none => Run.fail span .nullItem

/-- What stands in for an item that could not be rendered. -/
def itemPlaceholder (index : Nat) : Child :=
  .node (.mk "div" [("className", .data (.text "item-error"))]
    [.text ("Error rendering item " ++ String.ofList (Number.digitChars index))])

/-- The log line about an item that could not be rendered. -/
def itemFailureLine (fault : Fault) : String := "LazyColumn item render error: " ++ fault.message

/-- What an item of a list is shown as: its child, or a placeholder and a log line. -/
def itemShown (call : Caller) (renderer item : Value) (index : Nat) (span : Span) : Run Child := do
  match ← Run.attempt (itemChild call renderer item index span) with
  | .ok child => return child
  | .error error =>
    Run.log (itemFailureLine error.fault)
    return itemPlaceholder index

/-- The children of a list from the item at `index` on. -/
def itemChildren (call : Caller) (renderer : Value) (span : Span) (index : Nat) :
    List Value → Run (List Child)
  | [] => Run.succeed []
  | item :: rest => do
    let child ← itemShown call renderer item index span
    let children ← itemChildren call renderer span (index + 1) rest
    return child :: children

/-- A list that renders its items one by one. -/
def lazyColumn (call : Caller) (arguments : List Value) (span : Span) : Run Value := do
  let items ← itemsOf arguments.head? span
  let renderer := arguments[1]?.getD .null
  if renderer.isCallable then
    let children ← itemChildren call renderer span 0 items
    newNode "div"
      [style [("display", "flex"), ("flexDirection", "column"), ("gap", "6px")]] children
  else Run.fail span .itemRendererExpected

/-- Make what a function returns the root of the tree. -/
def render (call : Caller) (arguments : List Value) (span : Span) : Run Value := do
  let producer := arguments.head?.getD .null
  if producer.isCallable then
    match ← call.apply producer [] span with
    | .node _ node =>
      Run.setRoot node
      return .null
    | other => Run.fail span (.renderNode other.kind)
  else Run.fail span .renderFunction

def execute (arguments : List Value) : Run Value :=
  match arguments.head? with
  | none => Run.succeed .null
  | some .null => Run.succeed .null
  | some action => do
    Run.dispatch action.display
    return .null

def logLine (arguments : List Value) : Run Value := do
  Run.log (String.intercalate " " (arguments.map Value.display))
  return .null

/-- An element around the text of the first argument. -/
def label (tag : String) (arguments : List Value) : Run Value :=
  newNode tag [] [.text ((arguments.head?.map Value.display).getD "")]

def runBuiltin (source : String) (call : Caller) (behaviour : Behaviour) (arguments : List Value)
    (span : Span) : Run Value :=
  match behaviour with
  | .column => column call arguments span
  | .row => row call arguments span
  | .text => text call arguments span
  | .button => button source call arguments span
  | .image => image arguments
  | .lazyColumn => lazyColumn call arguments span
  | .render => render call arguments span
  | .execute => execute arguments
  | .log => logLine arguments
  | .label tag => label tag arguments

end ScreenStudio.Evaluation
