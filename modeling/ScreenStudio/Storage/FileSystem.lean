/- digest: Trees of files and directories, and the operations that paths select. -/

import ScreenStudio.Dictionary
import ScreenStudio.Text.Blank

/-!
A file system is a tree of directories and files with a current directory. A path is a text: names
with slashes between them, from the root if it starts with a slash and from the current directory
otherwise. Empty names and single dots say nothing, two dots lead one level up. Every name but the
last has to be an existing directory. An operation that fails leaves what it had done so far.
-/

set_option autoImplicit false
set_option relaxedAutoImplicit false

namespace ScreenStudio

/-- A file with its contents, or a directory with its entries in ascending order. -/
inductive FileTree
  | file (contents : String)
  | directory (entries : List (String × FileTree))

namespace FileTree

/-- The part of a tree at a place. -/
def find? : List String → FileTree → Option FileTree
  | [], tree => some tree
  | _ :: _, .file _ => none
  | name :: path, .directory entries =>
    match Dictionary.get? name entries with
    | some inner => find? path inner
    | none => none

/-- The tree with another part at a place. Directories on the way to it are made; below a file there
is no place. -/
def put : FileTree → List String → FileTree → FileTree
  | _, [], part => part
  | .file contents, _ :: _, _ => .file contents
  | .directory entries, name :: path, part =>
    let inner := (Dictionary.get? name entries).getD (.directory [])
    .directory (Dictionary.insert name (put inner path part) entries)

/-- The tree without what is at a place. -/
def remove : List String → FileTree → FileTree
  | [], tree => tree
  | _ :: _, .file contents => .file contents
  | [name], .directory entries => .directory (Dictionary.erase name entries)
  | name :: path, .directory entries =>
    match Dictionary.get? name entries with
    | some inner => .directory (Dictionary.insert name (remove path inner) entries)
    | none => .directory entries

mutual

/-- The files of a tree with their places. -/
def files : FileTree → List (List String × String)
  | .file contents => [([], contents)]
  | .directory entries => entriesFiles entries

/-- The files of some entries with their places. -/
def entriesFiles : List (String × FileTree) → List (List String × String)
  | [] => []
  | (name, tree) :: rest =>
    tree.files.map (fun file => (name :: file.1, file.2)) ++ entriesFiles rest

end

end FileTree

/-- Why an operation on files fails: there is nothing at the path, or something is in the way. -/
inductive FileError
  | missing
  | refused
  deriving DecidableEq, Repr

def FileError.message : FileError → String
  | .missing => "nothing is stored at this path"
  | .refused => "the file system refuses this path"

/-- A tree of files and the place of the current directory. -/
structure FileSystem where
  tree : FileTree
  current : List String

/-- Where an operation on files leads: whether it succeeded, and the files after it. -/
abbrev FileSystem.Step := Except FileError Unit × FileSystem

namespace FileSystem

/-- The current directory at a place, and nothing else. -/
def blank (current : List String) : FileSystem :=
  ⟨.put (.directory []) current (.directory []), current⟩

def Step.andThen (first : Step) (next : FileSystem → Step) : Step :=
  match first with
  | (.ok _, system) => next system
  | (.error error, system) => (.error error, system)

def parts (path : String) : List String := Text.split (· == '/') path

def names (path : String) : List String :=
  (parts path).filter (fun part => !part.isEmpty && part != ".")

def meansDirectory (path : String) : Bool :=
  match (parts path).getLast? with
  | some part => part.isEmpty || part == "."
  | none => true

/-- The path does not end in a name. -/
def endsInDot (path : String) : Bool :=
  ((parts path).filter (fun part => !part.isEmpty)).getLast? == some "."

def unusable (path : String) : Bool :=
  path.toList.contains '\x00' || decide (4096 ≤ path.utf8ByteSize)

def start (system : FileSystem) (path : String) : List String :=
  if path.toList.head? = some '/' then [] else system.current

def advance (tree : FileTree) (place : List String) (name : String) :
    Except FileError (List String) :=
  match tree.find? place with
  | none => .error .missing
  | some (.file _) => .error .refused
  | some (.directory _) =>
    if name = ".." then .ok place.dropLast
    else if 255 < name.utf8ByteSize then .error .refused
    else .ok (place ++ [name])

/-- The place that a path means. All but its last name exist. -/
def resolve (system : FileSystem) (path : String) : Except FileError (List String) :=
  if path.isEmpty then .error .missing
  else if unusable path then .error .refused
  else (names path).foldlM (advance system.tree) (system.start path)

def read (system : FileSystem) (path : String) : Except FileError String := do
  let place ← system.resolve path
  match system.tree.find? place with
  | none => .error .missing
  | some (.directory _) => .error .refused
  | some (.file contents) => if meansDirectory path then .error .refused else .ok contents

def contains (system : FileSystem) (path : String) : Bool :=
  match system.resolve path with
  | .ok place =>
    match system.tree.find? place with
    | none => false
    | some (.file _) => !meansDirectory path
    | some (.directory _) => true
  | .error _ => false

/-- Put a file at a place unless a directory is there. -/
def placeFile (location : List String) (contents : String) (system : FileSystem) : Step :=
  match system.tree.find? location with
  | some (.directory _) => (.error .refused, system)
  | _ => (.ok (), { system with tree := system.tree.put location (.file contents) })

/-- Write a file, in place of one that is there. -/
def write (path contents : String) (system : FileSystem) : Step :=
  match system.resolve path with
  | .error error => (.error error, system)
  | .ok location =>
    if meansDirectory path then (.error .refused, system)
    else placeFile location contents system

/-- Make sure that there is a directory at a place. -/
def createDirectory (location : List String) (system : FileSystem) : Step :=
  match system.tree.find? location with
  | some (.directory _) => (.ok (), system)
  | some (.file _) => (.error .refused, system)
  | none => (.ok (), { system with tree := system.tree.put location (.directory []) })

/-- Make sure that there are directories along some names. -/
def createAlong : List String → List String → FileSystem → Step
  | _, [], system => (.ok (), system)
  | location, name :: rest, system =>
    match advance system.tree location name with
    | .error error => (.error error, system)
    | .ok next => (createDirectory next system).andThen (createAlong next rest)

/-- The place that a path means is a directory. -/
def requireDirectory (path : String) (system : FileSystem) : Step :=
  match system.resolve path with
  | .error error => (.error error, system)
  | .ok location =>
    match system.tree.find? location with
    | some (.directory _) => (.ok (), system)
    | some (.file _) => (.error .refused, system)
    | none => (.error .missing, system)

/-- Make sure that there is a directory at a path, with all directories above it. A single dot at the
end makes nothing by itself. -/
def createDirectories (path : String) (system : FileSystem) : Step :=
  if path.isEmpty then (.ok (), system)
  else if unusable path then (.error .refused, system)
  else if endsInDot path then
    (createAlong (system.start path) (names path).dropLast system).andThen (requireDirectory path)
  else createAlong (system.start path) (names path) system

/-- Move what is at one place to another, in place of a file that is there. Directories stay. -/
def move (origin location : List String) (system : FileSystem) : Step :=
  match system.tree.find? origin, system.tree.find? location with
  | none, _ => (.error .missing, system)
  | some (.directory _), _ => (.error .refused, system)
  | some (.file _), some (.directory _) => (.error .refused, system)
  | some (.file contents), _ =>
    (.ok (), { system with tree := (system.tree.remove origin).put location (.file contents) })

def rename (source target : String) (system : FileSystem) : Step :=
  match system.resolve source, system.resolve target with
  | .ok origin, .ok location => move origin location system
  | .error error, _ => (.error error, system)
  | _, .error error => (.error error, system)

def join (base path : String) : String :=
  if path.toList.head? = some '/' || base.isEmpty then path
  else if base.toList.getLast? = some '/' then base ++ path
  else base ++ "/" ++ path

end FileSystem

end ScreenStudio
