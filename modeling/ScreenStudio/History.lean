/- digest: A linear log of snapshots with a cursor. -/

import ScreenStudio.Number.Notation
import ScreenStudio.Project

set_option autoImplicit false
set_option relaxedAutoImplicit false

namespace ScreenStudio

/-- Everything a user can change. -/
structure Snapshot where
  project : Project
  state : Json
  active : Option String

/-- Snapshots in order and the place of the current one. -/
structure History where
  entries : List Snapshot
  cursor : Nat

/-- Why a history is not accepted. -/
inductive HistoryError
  | duplicateScreens
  | empty
  | cursorOutOfRange (cursor length : Nat)
  | duplicateScreensAt (entry : Nat)
  deriving DecidableEq, Repr

def HistoryError.message : HistoryError → String
  | .duplicateScreens => "project has duplicate screen ids"
  | .empty => "history is empty"
  | .cursorOutOfRange cursor length =>
    "history index " ++ String.ofList (Number.digitChars cursor) ++ " is out of range for "
      ++ String.ofList (Number.digitChars length) ++ " entries"
  | .duplicateScreensAt entry =>
    "history entry " ++ String.ofList (Number.digitChars entry) ++ " has duplicate screen ids"

namespace History

def empty : History := ⟨[], 0⟩

def ofParts (entries : List Snapshot) (cursor : Nat) : Except HistoryError History :=
  if entries.isEmpty then .error .empty
  else if entries.length ≤ cursor then .error (.cursorOutOfRange cursor entries.length)
  else
    match entries.findIdx? (fun entry => !entry.project.hasUniqueIds) with
    | some entry => .error (.duplicateScreensAt entry)
    | none => .ok ⟨entries, cursor⟩

/-- Record a snapshot behind the current one and drop what was there. -/
def push (history : History) (snapshot : Snapshot) : History where
  entries := history.entries.take (history.cursor + 1) ++ [snapshot]
  cursor := (history.entries.take (history.cursor + 1)).length

/-- There is a snapshot before the current one. -/
def canUndo (history : History) : Bool := decide (0 < history.cursor)

/-- There is a snapshot behind the current one. -/
def canRedo (history : History) : Bool := decide (history.cursor + 1 < history.entries.length)

def current? (history : History) : Option Snapshot := history.entries[history.cursor]?

def undo? (history : History) : Option History :=
  if history.canUndo then some { history with cursor := history.cursor - 1 } else none

def redo? (history : History) : Option History :=
  if history.canRedo then some { history with cursor := history.cursor + 1 } else none

end History

end ScreenStudio
