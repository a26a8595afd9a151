/- digest: The program: its files, its clock and its streams. -/

import ScreenStudio.CommandLine.Run
import Std.Time.DateTime.Timestamp

set_option autoImplicit false
set_option relaxedAutoImplicit false

namespace ScreenStudio.CommandLine

/-- A file system with the file at a path, if it can be read. -/
def takeFile (system : FileSystem) (path : String) : IO FileSystem := do
  let step := fun (place : List String) (name : String) =>
    if name = ".." then place.dropLast else place ++ [name]
  let place := (FileSystem.names path).foldl step (system.start path)
  try
    let contents ← IO.FS.readFile path
    return { system with tree := system.tree.put place (.file contents) }
  catch _ => return system

def takeFiles (words : List String) (system : FileSystem) : IO FileSystem :=
  match Invocation.ofWords words with
  | .error _ => return system
  | .ok invocation => do
    let configured ← takeFile system invocation.settingsPath
    let settings := (loadSettings invocation.config configured).toOption.getD .default
    (invocation.files settings).foldlM takeFile configured

def writeChanged (before : FileSystem) (file : List String × String) : IO Unit := do
  let unchanged :=
    match before.tree.find? file.1 with
    | some (.file contents) => contents == file.2
    | _ => false
  unless unchanged do
    let path := "/" ++ String.intercalate "/" file.1
    IO.FS.createDirAll ("/" ++ String.intercalate "/" file.1.dropLast)
    IO.FS.writeFile (path ++ ".new") file.2
    IO.FS.rename (path ++ ".new") path

/-- The milliseconds since the start of the epoch. -/
def clock : IO Nat := do
  return (← Std.Time.Timestamp.now).toMillisecondsSinceUnixEpoch.val.toNat

/-- No other program can be started from here. -/
def noPrograms : Programs := fun _ _ _ _ => .error .missing

end ScreenStudio.CommandLine

open ScreenStudio ScreenStudio.CommandLine in
/-- Run the command line that the program was started with. -/
def main (words : List String) : IO UInt32 := do
  let current := FileSystem.names (← IO.currentDir).toString
  let before ← takeFiles words (FileSystem.blank current)
  let now ← clock
  let id := Screen.idOf (now * 2 ^ 80 + (← IO.rand 0 (2 ^ 80 - 1)))
  let (answer, after) := run noPrograms words id (UInt64.ofNat now) before
  after.tree.files.forM (writeChanged before)
  IO.print answer.output
  IO.eprint answer.messages
  return UInt32.ofNat answer.code
