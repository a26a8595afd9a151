/- digest: The files of an export. -/

import ScreenStudio.Json.Writer
import ScreenStudio.Project
import ScreenStudio.Storage.FileSystem

set_option autoImplicit false
set_option relaxedAutoImplicit false

namespace ScreenStudio

/-- A file of an export: its path with slashes, and its contents. -/
structure BundleFile where
  path : String
  contents : String
  deriving DecidableEq

namespace Export

/-- The directory that holds all files of an export. -/
def root : String := "compose-web-project"

/-- The manifest: the time of the export, and the screens by identifier and name. -/
def manifest (project : Project) (exportedAt : UInt64) : Json :=
  .object [("exportedAt", .integer exportedAt.toNat),
    ("screens", .array (project.screens.map (fun screen =>
      .object [("id", .text screen.id), ("name", .text screen.name)])))]

/-- A character of a screen's name in a file name. -/
def fileChar (c : Char) : Char := if c = '/' || c = '\\' || c = '\x00' then '_' else c

def fileName (name : String) : String := String.ofList (name.toList.map fileChar)

/-- The path of a file of a screen. -/
def screenPath (name ending : String) : String := root ++ "/screens/" ++ fileName name ++ ending

/-- The companion text of a screen, if it is not empty. -/
def filledCompanion? (project : Project) (id : String) : Option String :=
  (project.companion? id).filter (fun content => !content.isEmpty)

def screenFiles (project : Project) (screen : Screen) : List BundleFile :=
  ⟨screenPath screen.name ".dsl.js", screen.source⟩ ::
    (filledCompanion? project screen.id).toList.map (fun content =>
      ⟨screenPath screen.name ".kt", content⟩)

def bundle (project : Project) (state : Json) (exportedAt : UInt64) : List BundleFile :=
  ⟨root ++ "/project.json", (manifest project exportedAt).pretty⟩ ::
    ⟨root ++ "/state.json", state.pretty⟩ :: project.screens.flatMap (screenFiles project)

/-- The directory of a file of an export. -/
def parentPath (path : String) : String :=
  String.intercalate "/" (FileSystem.parts path).dropLast

/-- Write a file of an export below a directory. -/
def writeFile (directory : String) (file : BundleFile) (system : FileSystem) : FileSystem.Step :=
  let path := FileSystem.join directory file.path
  (FileSystem.createDirectories (parentPath path) system).andThen
    (FileSystem.write path file.contents)

/-- Write the files of an export below a directory, up to the first that cannot be written. -/
def writeBundle : List BundleFile → String → FileSystem → FileSystem.Step
  | [], _, system => (.ok (), system)
  | file :: rest, directory, system =>
    (writeFile directory file system).andThen (writeBundle rest directory)

end Export

end ScreenStudio
