/- digest: Surfaces that show things and pass events to their handlers. -/

import ScreenStudio.Evaluation.Program
import ScreenStudio.Surface.Html

set_option autoImplicit false
set_option relaxedAutoImplicit false

namespace ScreenStudio

/-- A place that shows things. -/
structure Surface where
  id : String
  content : List Shown

/-- Why an event has no effect. -/
inductive InteractionError
  | noSuchElement (index : Nat)
  | noListener (index : Nat) (event : String)
  | handler (error : EvaluationError)
  deriving DecidableEq

def InteractionError.message : InteractionError → String
  | .noSuchElement index =>
    "no interactive element at index " ++ String.ofList (Number.digitChars index)
  | .noListener index event =>
    "element " ++ String.ofList (Number.digitChars index) ++ " has no `" ++ event ++ "` listener"
  | .handler error => error.message

namespace Surface

def blank (id : String) : Surface := ⟨id, []⟩

def clear (surface : Surface) : Surface := { surface with content := [] }

/-- The surface with one more thing behind the others. -/
def append (surface : Surface) (shown : Shown) : Surface :=
  { surface with content := surface.content ++ [shown] }

def html (surface : Surface) : String := String.ofList (childrenChars surface.content)

def textContent (surface : Surface) : String := childrenText surface.content

def interactive (surface : Surface) : List Element := childrenInteractive surface.content

/-- The log line about a handler that failed. -/
def handlerFailureLine (error : EvaluationError) : String := "Action error: " ++ error.message

/-- Pass an event to the interactive element at `index`. -/
def trigger (surface : Surface) (index : Nat) (event : String) (host : Recording) :
    Except InteractionError Unit × Recording :=
  match surface.interactive[index]? with
  | none => (.error (.noSuchElement index), host)
  | some element =>
    match element.listener? event with
    | none => (.error (.noListener index event), host)
    | some handler =>
      match handler.invoke host with
      | (.ok _, host) => (.ok (), host)
      | (.error error, host) => (.error (.handler error), host.log (handlerFailureLine error))

end Surface

end ScreenStudio
