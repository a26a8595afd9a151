/- digest: The settings of the command line. -/

import ScreenStudio.CommandLine.SettingsFile
import ScreenStudio.Surface.Preview

set_option autoImplicit false
set_option relaxedAutoImplicit false

namespace ScreenStudio.CommandLine

/-- The settings. The time limit counts milliseconds. -/
structure Settings where
  storageDirectory : String
  mode : RenderMode
  rendererCommand : Option String
  timeLimit : Nat
  deriving DecidableEq, Repr

def Settings.default : Settings where
  storageDirectory := ".compose-ide"
  mode := .builtin
  rendererCommand := none
  timeLimit := 5000

/-- The header of the group that names the mode. -/
def Given.opensMode (given : Given) : Bool :=
  given.path == ["render_mode"] && given.value.isNone

def Given.namesMode (given : Given) : Bool :=
  given.path.head? == some "render_mode" && !given.opensMode

namespace Settings

/-- The settings with the mode of exactly this name. -/
def withMode? (settings : Settings) (name : String) : Option Settings :=
  ([RenderMode.builtin, RenderMode.external].find? (fun mode => mode.name == name)).map
    (fun mode => { settings with mode := mode })

/-- The settings after one more place of a file. -/
def set? (settings : Settings) (given : Given) : Option Settings :=
  match given.path, given.value with
  | ["storage_dir"], some (.text path) => some { settings with storageDirectory := path }
  | ["renderer_command"], some (.text command) =>
    some { settings with rendererCommand := some command }
  | ["renderer_timeout_ms"], some (.number limit) =>
    if 0 ≤ limit then some { settings with timeLimit := limit.toNat } else none
  | ["render_mode"], none => some settings
  | ["render_mode"], some (.text name) => settings.withMode? name
  | ["render_mode"], some (.group [([name], .group [])]) => settings.withMode? name
  | ["render_mode", name], none => settings.withMode? name
  | ["render_mode", name], some (.group []) => settings.withMode? name
  | _, _ => none

/-- No place is named twice, the mode is named at most once, and a header for its group goes with a
name that stands under a header. -/
def areConsistent (file : List Given) : Bool :=
  let modes := file.filter Given.namesMode
  decide (file.map Given.path).Nodup && decide (modes.length ≤ 1)
    && (!file.any Given.opensMode || modes.any (fun given => !given.dotted))

def ofText? (text : String) : Option Settings := do
  let file ← SettingsFile.ofText? text
  if areConsistent file then file.foldlM set? Settings.default else none

end Settings

end ScreenStudio.CommandLine
