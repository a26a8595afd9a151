/- digest: A storage that keeps every text in a file of its own. -/

import ScreenStudio.Storage.Basic
import ScreenStudio.Storage.FileSystem

set_option autoImplicit false
set_option relaxedAutoImplicit false

namespace ScreenStudio

/-- A storage in the files below a base directory. -/
structure FileStorage where
  base : String
  system : FileSystem

namespace FileStorage

/-- The file that holds the text under a key. -/
def path (base key : String) : String := FileSystem.join base (key ++ ".json")

def temporaryPath (base key : String) : String := FileSystem.join base (key ++ ".json.tmp")

def saveSteps (base key value : String) : List (FileSystem → FileSystem.Step) :=
  [FileSystem.createDirectories base,
    FileSystem.write (temporaryPath base key) value,
    FileSystem.rename (temporaryPath base key) (path base key)]

/-- Run operations up to the first that fails. -/
def runSteps : List (FileSystem → FileSystem.Step) → FileSystem → FileSystem.Step
  | [], system => (.ok (), system)
  | step :: rest, system => (step system).andThen (runSteps rest)

def load (storage : FileStorage) (key : String) : Except StorageError (Option String) :=
  match storage.system.read (path storage.base key) with
  | .ok text => .ok (some text)
  | .error .missing => .ok none
  | .error .refused => .error (.read key FileError.refused.message)

/-- Run the operations of a save; the first that fails is what the save reports. -/
def perform (storage : FileStorage) (key : String) (steps : List (FileSystem → FileSystem.Step)) :
    Except StorageError Unit × FileStorage :=
  let (result, system) := runSteps steps storage.system
  (result.mapError (fun error => .write key error.message), { storage with system := system })

def save (storage : FileStorage) (key value : String) : Except StorageError Unit × FileStorage :=
  storage.perform key (saveSteps storage.base key value)

instance : Storage FileStorage where
  load := load
  save := save

end FileStorage

end ScreenStudio
