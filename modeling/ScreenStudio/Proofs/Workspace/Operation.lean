/- digest: The operations of a workspace, what they try to write, and the runs they make up. -/

import ScreenStudio.Workspace.Rendering
import ScreenStudio.Proofs.Project

set_option autoImplicit false
set_option relaxedAutoImplicit false

namespace ScreenStudio

/-- What can be done with a workspace. The identifier of a new screen and the time come from
outside. -/
inductive Operation
  | newScreen (name : Option String) (id : String) (now : UInt64)
  | deleteScreen (id : String)
  | selectScreen (id : String)
  | saveScreen (id source : String) (companion : Option String)
  | act (action : String)
  | setState (state : Json)
  | snapshot
  | undo
  | redo
  | render (preview : Preview) (surface : Surface)
  | interact (surface : Surface) (index : Nat) (event : String)

/-- A try to store a history, and whether it succeeded. -/
structure Write where
  history : History
  succeeded : Bool

namespace Workspace

variable {σ : Type} [Storage σ]

/-- What storing the history of a workspace tries to write. -/
def writes (workspace : Workspace σ) : List Write :=
  match Record.ofHistory? workspace.history with
  | none => []
  | some record =>
    [⟨workspace.history, (Storage.save workspace.storage storageKey record.write).1.isOk⟩]

/-- What an operation tries to write that leads to another workspace and stores its history. -/
def writesTo (workspace after : Workspace σ) : List Write :=
  { after with storage := workspace.storage }.writes

/-- What running actions tries to write, the last first. -/
def writesOfActions (workspace : Workspace σ) : List String → List Write
  | [] => []
  | action :: rest =>
    let (outcome, after) := workspace.act action
    after.writesOfActions rest ++ if outcome.changed then workspace.writesTo after else []

end Workspace

namespace Operation

variable {σ : Type} [Storage σ]

/-- The workspace after an operation. -/
def apply : Operation → Workspace σ → Workspace σ
  | .newScreen name id now, workspace => workspace.newScreen name id now
  | .deleteScreen id, workspace => (workspace.deleteScreen id).2
  | .selectScreen id, workspace => (workspace.select id).2
  | .saveScreen id source companion, workspace => (workspace.saveScreen id source companion).2
  | .act action, workspace => (workspace.act action).2
  | .setState state, workspace => workspace.setState state
  | .snapshot, workspace => workspace.snapshot.2
  | .undo, workspace => workspace.undo.2
  | .redo, workspace => workspace.redo.2
  | .render preview surface, workspace => (workspace.render preview surface).2.2
  | .interact surface index event, workspace => (workspace.interact surface index event).2

omit [Storage σ] in
/-- What comes from outside is as it should be: the identifier of a new screen is not one of the live
project, and a state document is one that can be read. -/
def Allowed : Operation → Workspace σ → Prop
  | .newScreen _ id _, workspace => id ∉ workspace.project.ids
  | .setState state, _ => state.WellFormed
  | _, _ => True

/-- The operation is one that records what it does, and it reports that it has done it. -/
def Records : Operation → Workspace σ → Prop
  | .newScreen _ _ _, _ => True
  | .deleteScreen id, workspace => (workspace.deleteScreen id).1 = true
  | .saveScreen id source companion, workspace =>
    (workspace.saveScreen id source companion).1 = true
  | .act action, workspace => (workspace.act action).1.changed = true
  | .setState _, _ => True
  | .snapshot, _ => True
  | _, _ => False

/-- The operation reports that it has not done what it was asked for. -/
def Fails : Operation → Workspace σ → Prop
  | .deleteScreen id, workspace => (workspace.deleteScreen id).1 = false
  | .selectScreen id, workspace => (workspace.select id).1 = false
  | .saveScreen id source companion, workspace =>
    (workspace.saveScreen id source companion).1 = false
  | .act action, workspace => (workspace.act action).1.changed = false
  | .undo, workspace => workspace.undo.1 = .nothingToUndo
  | .redo, workspace => workspace.redo.1 = .nothingToRedo
  | .interact surface index event, workspace =>
    ∃ error, (workspace.interact surface index event).1 = .error error
  | _, _ => False

/-- What an operation tries to write, the last first. -/
def writes : Operation → Workspace σ → List Write
  | .newScreen name id now, workspace => workspace.writesTo (workspace.newScreen name id now)
  | .deleteScreen id, workspace =>
    if (workspace.deleteScreen id).1 then workspace.writesTo (workspace.deleteScreen id).2 else []
  | .selectScreen _, _ => []
  | .saveScreen id source companion, workspace =>
    if (workspace.saveScreen id source companion).1 then
      workspace.writesTo (workspace.saveScreen id source companion).2
    else []
  | .act action, workspace => workspace.writesOfActions [action]
  | .setState state, workspace => workspace.writesTo (workspace.setState state)
  | .snapshot, workspace => workspace.writesTo workspace.snapshot.2
  | .undo, workspace =>
    match workspace.undo.1 with
    | .moved _ => workspace.writesTo workspace.undo.2
    | _ => []
  | .redo, workspace =>
    match workspace.redo.1 with
    | .moved _ => workspace.writesTo workspace.redo.2
    | _ => []
  | .render preview surface, workspace =>
    let rendering := preview.refresh workspace.activeSource workspace.state surface .empty
    (workspace.reportRendering preview.mode rendering.result).writesOfActions rendering.host.actions
  | .interact surface index event, workspace =>
    match surface.trigger index event .empty with
    | (.error _, _) => []
    | (.ok _, host) => workspace.writesOfActions host.actions

end Operation

namespace Workspace

variable {σ : Type} [Storage σ]

/-- What opening a workspace on a storage tries to write. -/
def writesOfOpening (storage : σ) (now : UInt64) : List Write :=
  match storedHistory? storage with
  | .ok (some _) => []
  | _ => (fresh storage now).writesTo (openOn storage now)

/-- The workspaces that opening one on a storage and working with it leads to, with what was tried to
be written on the way, the last first. Between operations the storage may start or cease to fail, as
long as it holds the same text. -/
inductive Run (storage : σ) : Workspace σ → List Write → Prop
  | opened (now : UInt64) : Run storage (openOn storage now) (writesOfOpening storage now)
  | operated {workspace : Workspace σ} {log : List Write} (run : Run storage workspace log)
      (operation : Operation) (allowed : operation.Allowed workspace) :
      Run storage (operation.apply workspace) (operation.writes workspace ++ log)
  | switched {workspace : Workspace σ} {log : List Write} (run : Run storage workspace log)
      (other : σ) (same : Storage.load other storageKey =
        Storage.load workspace.storage storageKey) :
      Run storage { workspace with storage := other } log

/-- The workspaces that are reached from a storage without a readable history, over any number of
restarts on what an earlier one has stored. -/
inductive Reachable : Workspace σ → Prop
  | started {storage : σ} {workspace : Workspace σ} {log : List Write}
      (unread : ∀ history, storedHistory? storage ≠ .ok (some history))
      (run : Run storage workspace log) : Reachable workspace
  | restarted {earlier : Workspace σ} (reachable : Reachable earlier) {storage : σ}
      (same : Storage.load storage storageKey = Storage.load earlier.storage storageKey)
      {workspace : Workspace σ} {log : List Write} (run : Run storage workspace log) :
      Reachable workspace

end Workspace

end ScreenStudio
