/- digest: Showing the active screen of a workspace and interacting with what is shown. -/

import ScreenStudio.Surface.Preview
import ScreenStudio.Workspace.Basic

set_option autoImplicit false
set_option relaxedAutoImplicit false

namespace ScreenStudio

/-- What rendering a workspace has answered. -/
structure RenderReport where
  result : Except RenderError Unit
  logs : List String
  actions : List ActionOutcome

/-- What an interaction has answered. -/
structure InteractionReport where
  logs : List String
  actions : List ActionOutcome

namespace Workspace

variable {σ : Type}

/-- The source of the active screen; no screen has an empty one. -/
def activeSource (workspace : Workspace σ) : String :=
  (workspace.currentScreen?.map Screen.source).getD ""

def reportRendering (workspace : Workspace σ) (mode : RenderMode)
    (result : Except RenderError Unit) : Workspace σ :=
  match result with
  | .ok _ => workspace.report .ok (mode.name ++ " render successful")
  | .error error => workspace.report .error ("Render error: " ++ error.message)

variable [Storage σ]

/-- Render the active screen and run the actions it dispatched. -/
def render (workspace : Workspace σ) (preview : Preview) (surface : Surface) :
    RenderReport × Surface × Workspace σ :=
  let rendering := preview.refresh workspace.activeSource workspace.state surface .empty
  let (outcomes, after) :=
    (workspace.reportRendering preview.mode rendering.result).actAll rendering.host.actions
  (⟨rendering.result, rendering.host.logs, outcomes⟩, rendering.surface, after)

/-- Pass an event to an interactive element and run the actions it dispatched. -/
def interact (workspace : Workspace σ) (surface : Surface) (index : Nat) (event : String) :
    Except InteractionError InteractionReport × Workspace σ :=
  match surface.trigger index event .empty with
  | (.error error, _) =>
    (.error error, workspace.report .error ("Action error: " ++ error.message))
  | (.ok _, host) =>
    let (outcomes, after) := workspace.actAll host.actions
    (.ok ⟨host.logs, outcomes⟩, after)

end Workspace

end ScreenStudio
