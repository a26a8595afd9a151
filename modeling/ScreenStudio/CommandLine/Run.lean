/- digest: Running a command on the workspace in a directory. -/

import ScreenStudio.CommandLine.Arguments
import ScreenStudio.CommandLine.Programs
import ScreenStudio.CommandLine.Settings
import ScreenStudio.Storage.Files
import ScreenStudio.Workspace.Rendering

set_option autoImplicit false
set_option relaxedAutoImplicit false

namespace ScreenStudio.CommandLine

/-- The exit code of a run, what it prints, and its messages. -/
structure Answer where
  code : Nat
  output : String
  messages : String
  deriving DecidableEq, Repr

/-- What went wrong, and its cause where it has one. -/
structure Failure where
  message : String
  cause : Option String
  deriving DecidableEq, Repr

/-- A failure as the last message of a run. -/
def Failure.text (failure : Failure) : String :=
  match failure.cause with
  | none => "Error: " ++ failure.message ++ "\n"
  | some cause => "Error: " ++ failure.message ++ "\n\nCaused by:\n    " ++ cause ++ "\n"

def Failure.unreadable (path : String) (error : FileError) : Failure :=
  ⟨"Failed to read " ++ path, some error.message⟩

/-- The names of the commands, one a line. -/
def helpText : String :=
  "Commands:\n" ++ String.join (commands.map (fun rule => "  " ++ rule.name ++ "\n"))

/-- The answer to words that are no command. -/
def Refusal.answer : Refusal → Answer
  | .help => ⟨0, helpText, ""⟩
  | .usage reason => ⟨2, "", "error: " ++ reason ++ "\n\n" ++ helpText⟩

def line (text : String) : String := text ++ "\n"

/-- Check whether a file can be read as a program. -/
def check (file : String) (system : FileSystem) : Answer :=
  match system.read file with
  | .error error => ⟨1, "", (Failure.unreadable file error).text⟩
  | .ok source =>
    match Source.program source with
    | .ok statements =>
      ⟨0, line ("OK: " ++ String.ofList (Number.digitChars statements.length) ++ " statements"), ""⟩
    | .error error => ⟨1, "", line error.report ++ (Failure.mk error.message none).text⟩

/-- The settings file that is read if it is there and no other is named. -/
def settingsFile : String := "compose-ide.toml"

def readSettings (path : String) (system : FileSystem) : Except Failure Settings :=
  match system.read path with
  | .error error => .error (.unreadable path error)
  | .ok text =>
    match Settings.ofText? text with
    | some settings => .ok settings
    | none => .error ⟨"Invalid configuration in " ++ path, some "the text is no list of settings"⟩

def loadSettings (config : Option String) (system : FileSystem) : Except Failure Settings :=
  match config with
  | some path => readSettings path system
  | none =>
    if system.contains settingsFile then readSettings settingsFile system else .ok .default

/-- What a command prints, its messages, and whether the status follows. -/
structure Report where
  output : String
  messages : String
  withStatus : Bool

def Report.shown (output : String) : Report := ⟨output, "", false⟩

def Report.done (output : String) : Report := ⟨output, "", true⟩

/-- What a command leads to: a report, or messages and a failure; and the workspace after it. -/
abbrev Performed := Except (String × Failure) Report × Workspace FileStorage

def fails (message : String) (cause : Option String) (workspace : Workspace FileStorage) :
    Performed :=
  (.error ("", ⟨message, cause⟩), workspace)

/-- The list of the screens; a star marks the active one. -/
def screenList (workspace : Workspace FileStorage) : String :=
  String.join (workspace.project.screens.map (fun screen =>
    line ((if workspace.active = some screen.id then "* " else "  ") ++ screen.id ++ "  "
      ++ screen.name)))

/-- A number of at least three characters, with blanks before it. -/
def wideNumber (number : Nat) : String :=
  let digits := Number.digitChars number
  String.ofList (List.replicate (3 - digits.length) ' ' ++ digits)

/-- A line about an entry of the history. -/
def entryLine (cursor index : Nat) (entry : Snapshot) : String :=
  line ((if index = cursor then "> " else "  ") ++ wideNumber index ++ "  screens="
    ++ String.ofList (Number.digitChars entry.project.screens.length) ++ "  active="
    ++ entry.active.getD "-" ++ "  state=" ++ entry.state.compact)

/-- The list of the entries of a history; a mark shows the current one. -/
def historyList (history : History) : String :=
  String.join (history.entries.mapIdx (fun index entry => entryLine history.cursor index entry))

def surfaceId : String := "preview"

/-- What a renderer program answers. It takes some time to start. -/
def rendererAnswer (program : String) (run : ProgramRun) : RendererAnswer where
  outcome :=
    if run.ending = .exited 0 then .ok run.output
    else .error ("`" ++ program ++ "` exited with " ++ run.ending.text ++ ": "
      ++ Text.trim run.messages)
  delay := run.duration.map (· + 1)

/-- Run a renderer program on a state document: what it answers, and the files after it. -/
def runRenderer (programs : Programs) (program : String) (arguments : List String) (state : Json)
    (system : FileSystem) : RendererAnswer × FileSystem :=
  match programs program (arguments ++ [surfaceId]) state.compact system with
  | .ok run => (rendererAnswer program run, run.system)
  | .error error =>
    (⟨.error ("failed to start `" ++ program ++ "`: " ++ error.message), some 0⟩, system)

def withSystem (workspace : Workspace FileStorage) (system : FileSystem) :
    Workspace FileStorage :=
  { workspace with storage := { workspace.storage with system := system } }

/-- The preview that the settings ask for, and the workspace after its renderer has run. Only external
rendering runs it. -/
def previewOf (programs : Programs) (settings : Settings) (workspace : Workspace FileStorage) :
    Option (Preview × Workspace FileStorage) :=
  let preview : Preview := ⟨settings.mode, .standard, none, settings.timeLimit⟩
  match settings.rendererCommand.map Text.words, settings.mode with
  | none, _ => some (preview, workspace)
  | some [], _ => none
  | some (_ :: _), .builtin => some (preview, workspace)
  | some (program :: arguments), .external =>
    let (answer, system) := runRenderer programs program arguments workspace.state workspace.storage.system
    some ({ preview with renderer := some (fun _ _ => answer) }, withSystem workspace system)

def printTree (workspace : Workspace FileStorage) : Performed :=
  let (result, host) :=
    Evaluation.screen workspace.activeSource .standard workspace.state .empty
  let logs := String.join (host.logs.map line)
  match result with
  | .ok root => (.ok ⟨line root.toJson.pretty, logs, false⟩, workspace)
  | .error error => (.error (logs, ⟨error.message, none⟩), workspace)

def shownIn (format : OutputFormat) (surface : Surface) : String :=
  match format with
  | .text => line surface.textContent
  | _ => line surface.html

def render (programs : Programs) (settings : Settings) (format : OutputFormat)
    (workspace : Workspace FileStorage) : Performed :=
  match format, previewOf programs settings workspace with
  | .json, _ => printTree workspace
  | _, none => fails "renderer_command must name a program" none workspace
  | _, some (preview, started) =>
    let (report, surface, after) := started.render preview (.blank surfaceId)
    (.ok ⟨shownIn format surface, String.join (report.logs.map line), true⟩, after)

/-- The messages about the errors of some actions. -/
def actionMessages (outcomes : List ActionOutcome) : String :=
  String.join ((outcomes.flatMap ActionOutcome.errors).map (fun error =>
    line ("Action error: " ++ error.message)))

def interactionMessages (result : Except InteractionError InteractionReport) : String :=
  match result with
  | .ok report => String.join (report.logs.map line) ++ actionMessages report.actions
  | .error error => line error.message

/-- Render the active screen, pass an event to an element, render again and print the text. -/
def click (index : Nat) (event : String) (workspace : Workspace FileStorage) : Performed :=
  let preview : Preview := ⟨.builtin, .standard, none, 0⟩
  let (_, surface, rendered) := workspace.render preview (.blank surfaceId)
  let (result, clicked) := rendered.interact surface index event
  let (_, shown, after) := clicked.render preview surface
  (.ok ⟨line shown.textContent, interactionMessages result, true⟩, after)

/-- The settings with some replaced by those of a command. -/
def Settings.override (settings : Settings) (mode : Option RenderMode)
    (renderer : Option String) (timeLimit : Option Nat) : Settings where
  storageDirectory := settings.storageDirectory
  mode := mode.getD settings.mode
  rendererCommand := renderer.orElse (fun _ => settings.rendererCommand)
  timeLimit := timeLimit.getD settings.timeLimit

/-- The contents of a file, if one is named. -/
def readOptional (path : Option String) (system : FileSystem) : Except Failure (Option String) :=
  match path with
  | none => .ok none
  | some path =>
    match system.read path with
    | .ok contents => .ok (some contents)
    | .error error => .error (.unreadable path error)

/-- Replace the source of the active screen by the contents of files. -/
def saveFiles (file : String) (companion : Option String) (workspace : Workspace FileStorage) :
    Performed :=
  let system := workspace.storage.system
  match workspace.active, system.read file, readOptional companion system with
  | none, _, _ => fails "No screen selected" none workspace
  | _, .error error, _ => (.error ("", .unreadable file error), workspace)
  | _, _, .error failure => (.error ("", failure), workspace)
  | some id, .ok source, .ok companion =>
    (.ok (.done ""), (workspace.saveScreen id source companion).2)

def exportInto (directory : String) (now : UInt64) (workspace : Workspace FileStorage) :
    Performed :=
  let files := workspace.bundle now
  match Export.writeBundle files directory workspace.storage.system with
  | (.ok _, system) =>
    (.ok (.shown (line ("Exported " ++ String.ofList (Number.digitChars files.length)
      ++ " files into " ++ directory))), withSystem workspace system)
  | (.error error, system) =>
    fails ("Failed to write bundle into " ++ directory) (some error.message)
      (withSystem workspace system)

/-- Print the source or the companion text of the active screen. -/
def showActive (companion : Bool) (workspace : Workspace FileStorage) : Performed :=
  match workspace.currentScreen? with
  | none => fails "No screen selected" none workspace
  | some screen =>
    let text :=
      if companion then (workspace.project.companion? screen.id).getD "" else screen.source
    (.ok (.shown (line text)), workspace)

/-- Perform a command. A new screen gets the given identifier, and what is new the given time. -/
def perform (programs : Programs) (settings : Settings) (id : String) (now : UInt64)
    (workspace : Workspace FileStorage) : Command → Performed
  | .screens => (.ok (.shown (screenList workspace)), workspace)
  | .new name => (.ok (.done (line id)), workspace.newScreen name id now)
  | .delete target => (.ok (.done ""), (workspace.deleteScreen target).2)
  | .showSource companion => showActive companion workspace
  | .save file companion => saveFiles file companion workspace
  | .render mode renderer timeLimit format =>
    render programs (settings.override mode renderer timeLimit) format workspace
  | .click index event => click index event workspace
  | .act action =>
    let (outcome, after) := workspace.act action
    (.ok ⟨"", actionMessages [outcome], true⟩, after)
  | .state none => (.ok (.shown (line workspace.state.pretty)), workspace)
  | .state (some text) =>
    match Json.read text with
    | .ok state => (.ok (.done ""), workspace.setState state)
    | .error problem =>
      fails "State must be a JSON document" (some (problem.message text)) workspace
  | .snapshot => (.ok (.done ""), workspace.snapshot.2)
  | .undo => (.ok (.done ""), workspace.undo.2)
  | .redo => (.ok (.done ""), workspace.redo.2)
  | .history => (.ok (.shown (historyList workspace.history)), workspace)
  | .exportTo directory => exportInto directory now workspace
  | .check file => (.ok (.shown (check file workspace.storage.system).output), workspace)

/-- The answer of a command, behind the messages from opening the workspace. -/
def answerOf (opening : String) (performed : Performed) : Answer :=
  match performed with
  | (.error (messages, failure), _) => ⟨1, "", opening ++ messages ++ failure.text⟩
  | (.ok report, workspace) =>
    if report.withStatus then
      ⟨if workspace.status.kind = .error then 1 else 0, report.output,
        opening ++ report.messages ++ line workspace.status.text⟩
    else ⟨0, report.output, opening ++ report.messages⟩

/-- Make the screen that is asked for the active one. -/
def selectScreen (screen : Option String) (workspace : Workspace FileStorage) :
    Except Failure (Workspace FileStorage) × Workspace FileStorage :=
  match screen with
  | none => (.ok workspace, workspace)
  | some id =>
    match workspace.select id with
    | (true, selected) => (.ok selected, selected)
    | (false, after) => (.error ⟨"Unknown screen `" ++ id ++ "`", none⟩, after)

/-- The message about a workspace that could not be opened as it was stored. -/
def openingMessage (workspace : Workspace FileStorage) : String :=
  if workspace.status.kind = .error then line workspace.status.text else ""

def Invocation.runWith (programs : Programs) (invocation : Invocation) (settings : Settings) (id : String)
    (now : UInt64) (system : FileSystem) : Answer × FileSystem :=
  let directory := invocation.storageDirectory.getD settings.storageDirectory
  let opened := Workspace.openOn (⟨directory, system⟩ : FileStorage) now
  let performed :=
    match selectScreen invocation.screen opened with
    | (.error failure, after) => (.error ("", failure), after)
    | (.ok selected, _) => perform programs settings id now selected invocation.command
  (answerOf (openingMessage opened) performed, performed.2.storage.system)

def Command.files : Command → List String
  | .save file companion => file :: companion.toList
  | .check file => [file]
  | _ => []

def Invocation.settingsPath (invocation : Invocation) : String :=
  invocation.config.getD settingsFile

/-- The files that a run reads behind its settings. -/
def Invocation.files (invocation : Invocation) (settings : Settings) : List String :=
  FileStorage.path (invocation.storageDirectory.getD settings.storageDirectory)
      Workspace.storageKey
    :: invocation.command.files

def Invocation.run (programs : Programs) (invocation : Invocation) (id : String) (now : UInt64)
    (system : FileSystem) : Answer × FileSystem :=
  match invocation.command, loadSettings invocation.config system with
  | .check file, _ => (check file system, system)
  | _, .error failure => (⟨1, "", failure.text⟩, system)
  | _, .ok settings => invocation.runWith programs settings id now system

def run (programs : Programs) (words : List String) (id : String) (now : UInt64) (system : FileSystem) :
    Answer × FileSystem :=
  match Invocation.ofWords words with
  | .error refusal => (refusal.answer, system)
  | .ok invocation => invocation.run programs id now system

end ScreenStudio.CommandLine
