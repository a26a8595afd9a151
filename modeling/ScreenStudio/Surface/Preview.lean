/- digest: Rendering a screen onto a surface, by evaluation or by an external renderer. -/

import ScreenStudio.Json.Writer
import ScreenStudio.Surface.Basic

/-!
The builtin mode evaluates a screen and shows its tree, or a box with the error. The external mode
hands the state document as text and the identifier of the surface to a renderer and shows the markup
it answers. Either way the surface is cleared first, except that without a renderer it stays as it
is. A renderer that takes as long as the time limit or longer has failed; one that answers at once is
in time whatever the limit.
-/

set_option autoImplicit false
set_option relaxedAutoImplicit false

namespace ScreenStudio

/-- How a screen is rendered. -/
inductive RenderMode
  | builtin
  | external
  deriving DecidableEq, Repr

namespace RenderMode

def name : RenderMode → String
  | .builtin => "builtin"
  | .external => "external"

/-- The name that a text gives, without blanks and in small letters. -/
def normalized (text : String) : String :=
  String.ofList ((Text.trimChars text.toList).map Char.toLower)

def ofText? (text : String) : Option RenderMode :=
  match normalized text with
  | "builtin" => some .builtin
  | "external" => some .external
  | _ => none

/-- The message about a text that names no mode. -/
def unknownMessage (text : String) : String :=
  "unknown render mode `" ++ normalized text ++ "`, expected `builtin` or `external`"

end RenderMode

/-- What a renderer answers: markup or a message, and after how many milliseconds; `none` is
never. -/
structure RendererAnswer where
  outcome : Except String String
  delay : Option Nat

def RendererAnswer.isWithin (answer : RendererAnswer) (limit : Nat) : Bool :=
  answer.delay.any (fun delay => delay == 0 || decide (delay < limit))

/-- A renderer takes a state document as text and the identifier of a surface. -/
abbrev Renderer := String → String → RendererAnswer

inductive RenderError
  | rendererUnavailable
  | rendererFailed (message : String)
  | rendererTimedOut (limit : Nat)
  | evaluation (error : EvaluationError)
  deriving DecidableEq

def RenderError.message : RenderError → String
  | .rendererUnavailable => "external renderer is not loaded"
  | .rendererFailed message => "external renderer failed: " ++ message
  | .rendererTimedOut limit =>
    "external renderer timed out after " ++ String.ofList (Number.digitChars limit) ++ " ms"
  | .evaluation error => error.message

/-- The settings of a preview. The time limit counts milliseconds. -/
structure Preview where
  mode : RenderMode
  vocabulary : Vocabulary
  renderer : Option Renderer
  timeLimit : Nat

structure Rendering where
  result : Except RenderError Unit
  surface : Surface
  host : Recording

namespace Preview

def errorBox (error : EvaluationError) : Shown :=
  .element ⟨"pre", [("class", "dsl-error")], [], [],
    [.text ("DSL Runtime Error:\n" ++ error.message ++ "\n\n" ++ error.detail)]⟩

/-- The log line about a screen that failed. -/
def failureLine (error : EvaluationError) : String := "DSL Runtime Error: " ++ error.message

def renderBuiltin (preview : Preview) (source : String) (state : Json) (surface : Surface)
    (host : Recording) : Rendering :=
  match Evaluation.screen source preview.vocabulary state host with
  | (.ok root, host) => ⟨.ok (), surface.clear.append (.element root.materialize), host⟩
  | (.error error, host) =>
    ⟨.error (.evaluation error), surface.clear.append (errorBox error),
      host.log (failureLine error)⟩

def renderExternal (preview : Preview) (state : Json) (surface : Surface) (host : Recording) :
    Rendering :=
  match preview.renderer with
  | none => ⟨.error .rendererUnavailable, surface, host⟩
  | some renderer =>
    let answer := renderer state.compact surface.id
    if answer.isWithin preview.timeLimit then
      match answer.outcome with
      | .ok markup => ⟨.ok (), surface.clear.append (.markup markup), host⟩
      | .error message => ⟨.error (.rendererFailed message), surface.clear, host⟩
    else ⟨.error (.rendererTimedOut preview.timeLimit), surface.clear, host⟩

def refresh (preview : Preview) (source : String) (state : Json) (surface : Surface)
    (host : Recording) : Rendering :=
  match preview.mode with
  | .builtin => preview.renderBuiltin source state surface host
  | .external => preview.renderExternal state surface host

end Preview

end ScreenStudio
