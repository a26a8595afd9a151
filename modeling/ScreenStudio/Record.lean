/- digest: The stored form of a workspace. -/

import ScreenStudio.History
import ScreenStudio.Json.Shape

set_option autoImplicit false
set_option relaxedAutoImplicit false

namespace ScreenStudio

/-- What is stored of a workspace. -/
structure Record where
  project : Project
  state : Json
  active : Option String
  history : List Snapshot
  historyIndex : Nat

def Json.optionalText : Option String → Json
  | some value => .text value
  | none => .null

def Screen.toJson (screen : Screen) : Json :=
  .object [("id", .text screen.id), ("name", .text screen.name), ("compose", .text screen.source),
    ("createdAt", .integer screen.createdAt.toNat)]

def Project.toJson (project : Project) : Json :=
  .object [("screens", .array (project.screens.map Screen.toJson)),
    ("files", .object (project.files.map (fun entry => (entry.1, .text entry.2))))]

def Snapshot.toJson (snapshot : Snapshot) : Json :=
  .object [("project", snapshot.project.toJson), ("state", snapshot.state),
    ("activeScreenId", Json.optionalText snapshot.active)]

namespace Record

def toJson (record : Record) : Json :=
  .object [("project", record.project.toJson), ("state", record.state),
    ("activeScreenId", Json.optionalText record.active),
    ("history", .array (record.history.map Snapshot.toJson)),
    ("historyIndex", .integer record.historyIndex)]

def write (record : Record) : String := record.toJson.compact

/-- The record of a history, if it has a current entry. -/
def ofHistory? (history : History) : Option Record :=
  history.current?.map (fun current =>
    ⟨current.project, current.state, current.active, history.entries, history.cursor⟩)

def toHistory (record : Record) : Except HistoryError History :=
  if record.project.hasUniqueIds then History.ofParts record.history record.historyIndex
  else .error .duplicateScreens

end Record

namespace Json.Reader

def word : Reader UInt64 := (natural "u64").mapValue UInt64.ofNat

def screenFields : Shape [String, String, String, UInt64] :=
  .cons ⟨"id", text, none⟩ (.cons ⟨"name", text, none⟩ (.cons ⟨"compose", text, none⟩
    (.cons ⟨"createdAt", word, none⟩ .nil)))

def screen : Reader Screen :=
  screenFields.reader "Screen" 4 (fun (id, name, source, createdAt, ()) => ⟨id, name, source, createdAt⟩)

/-- The files of a project may be missing. -/
def projectFields : Shape [List Screen, List (String × String)] :=
  .cons ⟨"screens", list screen, none⟩ (.cons ⟨"files", dictionary text, some []⟩ .nil)

def project : Reader Project :=
  projectFields.reader "Project" 1 (fun (screens, files, ()) => ⟨screens, files⟩)

/-- An object without an active screen has none; an array must say so. -/
def snapshotFields : Shape [Project, Json, Option String] :=
  .cons ⟨"project", project, none⟩ (.cons ⟨"state", document, none⟩
    (.cons ⟨"activeScreenId", optionalText, some none⟩ .nil))

def snapshot : Reader Snapshot :=
  snapshotFields.reader "Snapshot" 3 (fun (project, state, active, ()) => ⟨project, state, active⟩)

def recordFields : Shape [Project, Json, Option String, List Snapshot, Nat] :=
  .cons ⟨"project", project, none⟩ (.cons ⟨"state", document, none⟩
    (.cons ⟨"activeScreenId", optionalText, some none⟩ (.cons ⟨"history", list snapshot, none⟩
      (.cons ⟨"historyIndex", natural "usize", none⟩ .nil))))

def record : Reader Record :=
  recordFields.reader "PersistedRecord" 5
    (fun (project, state, active, history, index, ()) => ⟨project, state, active, history, index⟩)

end Json.Reader

def Record.read (text : String) : Except Json.Problem Record := Json.readWhole Json.Reader.record text

def Record.read? (text : String) : Option Record := (read text).toOption

def Project.read (text : String) : Except Json.Problem Project := Json.readWhole Json.Reader.project text

end ScreenStudio
