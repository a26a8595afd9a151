/- digest: Screens and the project that holds them. -/

import ScreenStudio.Dictionary
import ScreenStudio.Json.Basic

set_option autoImplicit false
set_option relaxedAutoImplicit false

namespace ScreenStudio

/-- A screen with its source and the time of its creation in milliseconds. -/
structure Screen where
  id : String
  name : String
  source : String
  createdAt : UInt64
  deriving DecidableEq

/-- Screens and auxiliary texts by key. -/
structure Project where
  screens : List Screen
  files : List (String × String)
  deriving DecidableEq

/-- Where the companion text of a screen is kept. -/
def companionKey (id : String) : String := id ++ "_kotlin"

namespace Screen

/-- The identifier of the screen that a new project has. -/
def initialId : String := "s_initial"

/-- The name of the screen that a new project has. -/
def initialName : String := "MainScreen"

/-- The source of the screen that a new project has. -/
def initialSource : String :=
  "// Welcome to the Compose Mini IDE!\n" ++
  "// Use the render() function to define your UI.\n" ++
  "render(() => Column(add => \x7b\n" ++
  "  add(Text(() => 'Hello, ' + (state.name || 'World') + '!'))\n" ++
  "\n" ++
  "  // Buttons can execute actions to modify the state\n" ++
  "  add(Button(\n" ++
  "    () => execute('counter = (counter || 0) + 1'),\n" ++
  "    () => 'Clicks: ' + (state.counter || 0)\n" ++
  "  ))\n" ++
  "\x7d))\n"

def initial (createdAt : UInt64) : Screen := ⟨initialId, initialName, initialSource, createdAt⟩

/-- A name inside single quotes: backslashes and quotes get a backslash. -/
def quotedName (name : String) : String :=
  String.ofList (name.toList.flatMap (fun c =>
    if c = '\\' then ['\\', '\\'] else if c = '\'' then ['\\', '\''] else [c]))

def template (name : String) : String :=
  "// New Screen: " ++ name ++ "\nrender(() => Column(add => \x7b\n  add(Text(() => 'This is " ++
    quotedName name ++ "'))\n\x7d))\n"

/-- The digits of identifiers: figures and small letters without `i`, `l`, `o` and `u`. -/
def idDigits : List Char := "0123456789abcdefghjkmnpqrstvwxyz".toList

/-- The last `count` digits of a number to base 32, behind some others. -/
def idChars : Nat → Nat → List Char → List Char
  | 0, _, behind => behind
  | count + 1, number, behind =>
    idChars count (number / 32) (idDigits.getD (number % 32) '0' :: behind)

/-- The identifier made of a number below `2 ^ 130`. -/
def idOf (number : Nat) : String := "s_" ++ String.ofList (idChars 26 number [])

def new (id name : String) (createdAt : UInt64) : Screen := ⟨id, name, template name, createdAt⟩

end Screen

namespace Project

def initial (createdAt : UInt64) : Project := ⟨[Screen.initial createdAt], []⟩

def screen? (project : Project) (id : String) : Option Screen :=
  project.screens.find? (fun screen => screen.id == id)

def companion? (project : Project) (id : String) : Option String :=
  Dictionary.get? (companionKey id) project.files

/-- The project with a companion text for a screen. -/
def setCompanion (project : Project) (id content : String) : Project :=
  { project with files := Dictionary.insert (companionKey id) content project.files }

/-- The screens after the source of the first one with an identifier was replaced. -/
def replaceSource (id source : String) : List Screen → List Screen
  | [] => []
  | screen :: rest =>
    if screen.id = id then { screen with source := source } :: rest
    else screen :: replaceSource id source rest

/-- The project with the source of a screen replaced. -/
def setSource (project : Project) (id source : String) : Project :=
  { project with screens := replaceSource id source project.screens }

/-- The project with a screen behind the others. -/
def add (project : Project) (screen : Screen) : Project :=
  { project with screens := project.screens ++ [screen] }

/-- The project without the first screen with an identifier and without its companion text. -/
def remove (project : Project) (id : String) : Project where
  screens := project.screens.eraseP (fun screen => screen.id == id)
  files := Dictionary.erase (companionKey id) project.files

def hasUniqueIds (project : Project) : Bool := decide (project.screens.map Screen.id).Nodup

end Project

/-- The state document that a workspace starts with. -/
def initialState : Json := .object [("counter", .integer 0), ("name", .text "Compose")]

end ScreenStudio
