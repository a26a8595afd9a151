/- digest: What a run of a program leaves behind. -/

import ScreenStudio.Number.Notation
import ScreenStudio.Storage.FileSystem

set_option autoImplicit false
set_option relaxedAutoImplicit false

namespace ScreenStudio.CommandLine

/-- How a program ends: with a status, or killed by a signal. -/
inductive Ending
  | exited (status : Nat)
  | killed (signal : Nat)
  deriving DecidableEq, Repr

def signalNames : List (Nat × String) :=
  [(1, "HUP"), (2, "INT"), (3, "QUIT"), (4, "ILL"), (5, "TRAP"), (6, "ABRT"), (7, "BUS"), (8, "FPE"),
    (9, "KILL"), (10, "USR1"), (11, "SEGV"), (12, "USR2"), (13, "PIPE"), (14, "ALRM"), (15, "TERM"),
    (16, "STKFLT"), (19, "STOP"), (24, "XCPU"), (25, "XFSZ"), (26, "VTALRM"), (27, "PROF"),
    (29, "IO"), (30, "PWR"), (31, "SYS")]

def Ending.text : Ending → String
  | .exited status => "exit status: " ++ String.ofList (Number.digitChars status)
  | .killed signal =>
    let name :=
      match signalNames.find? (fun entry => entry.1 == signal) with
      | some entry => " (SIG" ++ entry.2 ++ ")"
      | none => ""
    "signal: " ++ String.ofList (Number.digitChars signal) ++ name

/-- What a program has printed, how it ended and after how many milliseconds, and the files behind it. A run
without a duration does not end. -/
structure ProgramRun where
  output : String
  messages : String
  ending : Ending
  duration : Option Nat
  system : FileSystem

/-- The programs of the system: a name is started with some words and a text to read, or it cannot be. -/
abbrev Programs := (name : String) → (words : List String) → (input : String) → FileSystem →
  Except FileError ProgramRun

end ScreenStudio.CommandLine
