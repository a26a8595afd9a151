/- digest: The live project with its history, its storage and the operations on it. -/

import ScreenStudio.Action
import ScreenStudio.Export
import ScreenStudio.Record
import ScreenStudio.Storage.Basic
import ScreenStudio.Workspace.Status

/-!
A workspace holds a live project, state document and active screen, and a history of snapshots of
them. An operation that changes one of the three records a snapshot and stores the whole history; if
storing fails, the snapshot stays in the history all the same and the status says what went wrong.
Undo and redo make a recorded snapshot the live one. Selecting a screen is not recorded.

Opening a workspace takes the stored history. Where there is none, or what is stored is no history,
the workspace starts with one screen and records that.
-/

set_option autoImplicit false
set_option relaxedAutoImplicit false

namespace ScreenStudio

/-- Everything that is live, its history, where it is stored, and how the last operation went. -/
structure Workspace (σ : Type) where
  storage : σ
  project : Project
  state : Json
  active : Option String
  history : History
  status : Status

/-- Where undo or redo has led. -/
inductive HistoryMove
  | moved (cursor : Nat)
  | nothingToUndo
  | nothingToRedo
  deriving DecidableEq, Repr

namespace Workspace

/-- The key under which a workspace is stored. -/
def storageKey : String := "mini_ide_compose_v1"

variable {σ : Type}

def live (workspace : Workspace σ) : Snapshot :=
  ⟨workspace.project, workspace.state, workspace.active⟩

def restore (workspace : Workspace σ) (snapshot : Snapshot) : Workspace σ :=
  { workspace with
    project := snapshot.project, state := snapshot.state, active := snapshot.active }

def report (workspace : Workspace σ) (kind : StatusKind) (message : String) : Workspace σ :=
  { workspace with status := ⟨kind, message⟩ }

def historyOfText (text : String) : Except StorageError History :=
  match Record.read text with
  | .error problem => .error (.malformed storageKey (problem.message text))
  | .ok record =>
    match record.toHistory with
    | .error error => .error (.malformed storageKey error.message)
    | .ok history => .ok history

variable [Storage σ]

/-- The history that a storage holds, if it holds one. -/
def storedHistory? (storage : σ) : Except StorageError (Option History) :=
  match Storage.load storage storageKey with
  | .error error => .error error
  | .ok none => .ok none
  | .ok (some text) =>
    match historyOfText text with
    | .error error => .error error
    | .ok history => .ok (some history)

/-- Store the history. A history without a current entry is not stored. -/
def persist (workspace : Workspace σ) : Except StorageError Unit × Workspace σ :=
  match Record.ofHistory? workspace.history with
  | none => (.ok (), workspace)
  | some record =>
    let (result, storage) := Storage.save workspace.storage storageKey record.write
    (result, { workspace with storage := storage })

/-- Record what is live behind the current entry of the history. -/
def record (workspace : Workspace σ) : Workspace σ :=
  { workspace with history := workspace.history.push workspace.live }

/-- Record what is live and store the history. -/
def snapshot (workspace : Workspace σ) : Except StorageError Unit × Workspace σ :=
  match workspace.record.persist with
  | (.ok _, after) => (.ok (), after.report .ok "Snapshot saved")
  | (.error error, after) =>
    (.error error, after.report .error ("Failed to save state: " ++ error.message))

/-- Record and store what is live; the message is the status if that succeeds. -/
def commit (workspace : Workspace σ) (message : String) : Workspace σ :=
  match workspace.snapshot with
  | (.ok _, after) => after.report .ok message
  | (.error _, after) => after

/-- A workspace on a storage before anything is loaded. -/
def fresh (storage : σ) (now : UInt64) : Workspace σ where
  storage := storage
  project := Project.initial now
  state := initialState
  active := some Screen.initialId
  history := .empty
  status := ⟨.ok, "Ready"⟩

/-- The workspace that a storage holds, or a new one. -/
def openOn (storage : σ) (now : UInt64) : Workspace σ :=
  let workspace := fresh storage now
  match storedHistory? storage with
  | .ok (some history) =>
    let loaded := (history.current?.map workspace.restore).getD workspace
    { loaded with history := history }.report .ok "Project loaded from storage"
  | .ok none => workspace.commit "New project created"
  | .error error =>
    match workspace.snapshot with
    | (.ok _, after) => after.report .error ("Failed to load project: " ++ error.message)
    | (.error _, after) => after

/-- Make the current entry of another history position live and store the history. -/
def moveTo (workspace : Workspace σ) (history : History) (message : String) :
    HistoryMove × Workspace σ :=
  let moved := { workspace with history := history }
  let restored := (history.current?.map moved.restore).getD moved
  match restored.persist with
  | (.ok _, after) => (.moved history.cursor, after.report .ok message)
  | (.error error, after) =>
    (.moved history.cursor, after.report .warn
      (message ++ ", but the position was not saved: " ++ error.message))

def undo (workspace : Workspace σ) : HistoryMove × Workspace σ :=
  match workspace.history.undo? with
  | some history => workspace.moveTo history "Undo successful"
  | none => (.nothingToUndo, workspace.report .warn "Nothing to undo")

def redo (workspace : Workspace σ) : HistoryMove × Workspace σ :=
  match workspace.history.redo? with
  | some history => workspace.moveTo history "Redo successful"
  | none => (.nothingToRedo, workspace.report .warn "Nothing to redo")

omit [Storage σ] in
def currentScreen? (workspace : Workspace σ) : Option Screen :=
  workspace.active.bind workspace.project.screen?

omit [Storage σ] in
def reportUnknown (workspace : Workspace σ) (id : String) : Workspace σ :=
  workspace.report .warn ("Unknown screen `" ++ id ++ "`")

omit [Storage σ] in
/-- Make a screen the active one; tells whether it exists. -/
def select (workspace : Workspace σ) (id : String) : Bool × Workspace σ :=
  match workspace.project.screen? id with
  | none => (false, workspace.reportUnknown id)
  | some screen =>
    (true, { workspace with active := some id }.report .info ("Editing " ++ screen.name))

omit [Storage σ] in
/-- The name of a new screen: the given one without blanks around it, or one made of the number of
screens. -/
def nameOfNew (workspace : Workspace σ) (name : Option String) : String :=
  match (name.map Text.trim).filter (fun trimmed => !trimmed.isEmpty) with
  | some trimmed => trimmed
  | none =>
    "Screen" ++ String.ofList (Number.digitChars (workspace.project.screens.length + 1))

/-- Add a screen and make it the active one. -/
def newScreen (workspace : Workspace σ) (name : Option String) (id : String) (now : UInt64) :
    Workspace σ :=
  let chosen := workspace.nameOfNew name
  { workspace with
    project := workspace.project.add (Screen.new id chosen now), active := some id }.commit
      ("Created screen " ++ chosen)

omit [Storage σ] in
/-- The active screen after a screen was deleted: another one than the deleted stays active, and the
first of the remaining ones takes the place of the deleted. -/
def activeWithout (workspace : Workspace σ) (id : String) : Option String :=
  if workspace.active = some id then
    ((workspace.project.remove id).screens.head?).map Screen.id
  else workspace.active

/-- Delete a screen and its companion text; tells whether it existed. -/
def deleteScreen (workspace : Workspace σ) (id : String) : Bool × Workspace σ :=
  match workspace.project.screen? id with
  | none => (false, workspace.reportUnknown id)
  | some screen =>
    (true, { workspace with
      project := workspace.project.remove id, active := workspace.activeWithout id }.commit
        ("Deleted screen " ++ screen.name))

omit [Storage σ] in
/-- The project with the source of a screen and, where one is given, its companion text replaced. -/
def projectWith (workspace : Workspace σ) (id source : String) (companion : Option String) :
    Project :=
  match companion with
  | some content => (workspace.project.setSource id source).setCompanion id content
  | none => workspace.project.setSource id source

/-- Replace the source of a screen and, where one is given, its companion text; tells whether the
screen exists. -/
def saveScreen (workspace : Workspace σ) (id source : String) (companion : Option String) :
    Bool × Workspace σ :=
  match workspace.project.screen? id with
  | none => (false, workspace.reportUnknown id)
  | some screen =>
    (true, { workspace with project := workspace.projectWith id source companion }.commit
      ("Saved " ++ screen.name))

omit [Storage σ] in
def reportOutcome (workspace : Workspace σ) (outcome : ActionOutcome) : Workspace σ :=
  match outcome.errors with
  | error :: _ => workspace.report .error ("Action error: " ++ error.message)
  | [] =>
    if outcome.changed then workspace.report .ok "State updated"
    else workspace.report .info "Nothing to change"

/-- Run an action on the state document. A change is one entry of the history. -/
def act (workspace : Workspace σ) (action : String) : ActionOutcome × Workspace σ :=
  let outcome := Action.execute action workspace.state
  if outcome.changed then
    match { workspace with state := outcome.state }.snapshot with
    | (.ok _, after) => (outcome, after.reportOutcome outcome)
    | (.error _, after) => (outcome, after)
  else (outcome, workspace.reportOutcome outcome)

def actAll (workspace : Workspace σ) : List String → List ActionOutcome × Workspace σ
  | [] => ([], workspace)
  | action :: rest =>
    let (outcome, after) := workspace.act action
    let (outcomes, last) := after.actAll rest
    (outcome :: outcomes, last)

def setState (workspace : Workspace σ) (state : Json) : Workspace σ :=
  { workspace with state := state }.commit "State updated"

omit [Storage σ] in
/-- The files of an export of what is live. -/
def bundle (workspace : Workspace σ) (exportedAt : UInt64) : List BundleFile :=
  Export.bundle workspace.project workspace.state exportedAt

end Workspace

end ScreenStudio
