/- digest: The words of a command line and what they ask for. -/

import ScreenStudio.Surface.Preview

set_option autoImplicit false
set_option relaxedAutoImplicit false

namespace ScreenStudio.CommandLine

/-- How a rendered screen is printed. -/
inductive OutputFormat
  | html
  | text
  | json
  deriving DecidableEq, Repr

def OutputFormat.ofText? (text : String) : Option OutputFormat :=
  match text with
  | "html" => some .html
  | "text" => some .text
  | "json" => some .json
  | _ => none

/-- What a command line can ask for. -/
inductive Command
  | screens
  | new (name : Option String)
  | delete (id : String)
  | showSource (companion : Bool)
  | save (file : String) (companion : Option String)
  | render (mode : Option RenderMode) (renderer : Option String) (timeLimit : Option Nat)
    (format : OutputFormat)
  | click (index : Nat) (event : String)
  | act (action : String)
  | state (replacement : Option String)
  | snapshot
  | undo
  | redo
  | history
  | exportTo (directory : String)
  | check (file : String)
  deriving DecidableEq, Repr

/-- A command with the options that belong to every command. -/
structure Invocation where
  config : Option String
  storageDirectory : Option String
  screen : Option String
  command : Command
  deriving DecidableEq, Repr

/-- Why the words are no command. -/
inductive Refusal
  | help
  | usage (reason : String)
  deriving DecidableEq, Repr

/-- A word that satisfies this can be the value of an option or an operand. -/
abbrev Accepts := String → Bool

def anyText : Accepts := fun _ => true

def somePath : Accepts := fun word => !word.isEmpty

/-- The number that some decimal digits stand for, if it fits a word of 64 bits. -/
def digitsWord? (digits : List Char) : Option Nat :=
  if digits.isEmpty || !digits.all Number.isDigit then none
  else
    let value := Number.digitsValue digits
    if value < 2 ^ 64 then some value else none

/-- The number that a word stands for; a plus may stand before it. -/
def natural? (word : String) : Option Nat :=
  match word.toList with
  | '+' :: digits => digitsWord? digits
  | digits => digitsWord? digits

/-- An option; one without `accepts` takes no value. -/
structure OptionRule where
  name : String
  accepts : Option Accepts

abbrev Lookup := String → Option String

/-- A command, the options and operands that it takes, and what they ask for together. -/
structure CommandRule where
  name : String
  options : List OptionRule
  operands : List Accepts
  decode : Lookup → List String → Option Command

def commonOptions : List OptionRule :=
  [⟨"config", some somePath⟩, ⟨"storage-dir", some somePath⟩, ⟨"screen", some anyText⟩]

def plainCommand (name : String) (command : Command) : CommandRule :=
  ⟨name, [], [], fun _ _ => some command⟩

/-- A command with one operand that has to be there. -/
def operandCommand (name : String) (accepts : Accepts) (command : String → Command) :
    CommandRule :=
  ⟨name, [], [accepts], fun _ operands => operands.head?.map command⟩

def renderOptions : List OptionRule :=
  [⟨"mode", some (fun word => (RenderMode.ofText? word).isSome)⟩,
    ⟨"renderer", some anyText⟩,
    ⟨"timeout-ms", some (fun word => (natural? word).isSome)⟩,
    ⟨"format", some (fun word => (OutputFormat.ofText? word).isSome)⟩]

def commands : List CommandRule :=
  [plainCommand "screens" .screens,
    ⟨"new", [], [anyText], fun _ operands => some (.new operands.head?)⟩,
    operandCommand "delete" anyText .delete,
    ⟨"show", [⟨"companion", none⟩], [],
      fun value _ => some (.showSource (value "companion").isSome)⟩,
    ⟨"save", [⟨"companion", some somePath⟩], [somePath],
      fun value operands => operands.head?.map (fun file => .save file (value "companion"))⟩,
    ⟨"render", renderOptions, [], fun value _ =>
      some (.render ((value "mode").bind RenderMode.ofText?) (value "renderer")
        ((value "timeout-ms").bind natural?)
        (((value "format").bind OutputFormat.ofText?).getD .html))⟩,
    ⟨"click", [⟨"event", some anyText⟩], [fun word => (natural? word).isSome],
      fun value operands => (operands.head?.bind natural?).map (fun index =>
        .click index ((value "event").getD "click"))⟩,
    operandCommand "act" anyText .act,
    ⟨"state", [⟨"set", some anyText⟩], [], fun value _ => some (.state (value "set"))⟩,
    plainCommand "snapshot" .snapshot,
    plainCommand "undo" .undo,
    plainCommand "redo" .redo,
    plainCommand "history" .history,
    operandCommand "export" somePath .exportTo,
    operandCommand "check" somePath .check]

/-- The request for help, perhaps about a command. -/
def helpRule : CommandRule where
  name := "help"
  options := []
  operands := [fun word => word == "help" || commands.any (fun rule => rule.name == word)]
  decode := fun _ _ => none

/-- What the words so far have given: the options before the command, the command, and the options
and operands behind it. An option that still lacks its value is pending. Where all words are taken as
operands the scan is verbatim. -/
structure Scan where
  before : List (String × String)
  command : Option CommandRule
  behind : List (String × String)
  operands : List String
  pending : Option (String × Accepts)
  verbatim : Bool

namespace Scan

def start : Scan := ⟨[], none, [], [], none, false⟩

/-- Take an option with its value; a flag has an empty one. -/
def addOption (scan : Scan) (name value : String) : Except Refusal Scan :=
  let given := if scan.command.isSome then scan.behind else scan.before
  if given.any (fun entry => entry.1 == name) then
    .error (.usage ("option `--" ++ name ++ "` is given twice"))
  else if scan.command.isSome then
    .ok { scan with behind := scan.behind ++ [(name, value)], pending := none }
  else .ok { scan with before := scan.before ++ [(name, value)], pending := none }

/-- Take a value of an option if it fits. -/
def addValue (scan : Scan) (name : String) (accepts : Accepts) (value : String) :
    Except Refusal Scan :=
  if accepts value then scan.addOption name value
  else .error (.usage ("`" ++ value ++ "` is no value of option `--" ++ name ++ "`"))

/-- Take a word that is the command or one of its operands. -/
def addOperand (scan : Scan) (word : String) : Except Refusal Scan :=
  match scan.command with
  | none =>
    if word = helpRule.name then .ok { scan with command := some helpRule, verbatim := true }
    else
      match commands.find? (fun rule => rule.name == word) with
      | some rule => .ok { scan with command := some rule }
      | none => .error (.usage ("unknown command `" ++ word ++ "`"))
  | some rule =>
    match rule.operands[scan.operands.length]? with
    | none => .error (.usage ("unexpected argument `" ++ word ++ "`"))
    | some accepts =>
      if accepts word then .ok { scan with operands := scan.operands ++ [word] }
      else .error (.usage ("`" ++ word ++ "` is no argument of `" ++ rule.name ++ "`"))

def options (scan : Scan) : List OptionRule :=
  match scan.command with
  | none => commonOptions
  | some rule => rule.options ++ commonOptions

/-- Take an option, given by its name and the value behind an equals sign. -/
def readOption (scan : Scan) (name : String) (attached : Option String) : Except Refusal Scan :=
  if name = "help" && attached.isNone then .error .help
  else
    match scan.options.find? (fun rule => rule.name == name) with
    | none => .error (.usage ("unexpected option `--" ++ name ++ "`"))
    | some rule =>
      match rule.accepts, attached with
      | none, none => scan.addOption name ""
      | none, some _ => .error (.usage ("option `--" ++ name ++ "` takes no value"))
      | some accepts, some value => scan.addValue name accepts value
      | some accepts, none => .ok { scan with pending := some (name, accepts) }

def attachedValue? (cs : List Char) : Option String :=
  match cs.dropWhile (· != '=') with
  | [] => none
  | _ :: value => some (String.ofList value)

def step (scan : Scan) (word : String) : Except Refusal Scan :=
  match scan.pending, scan.verbatim, word.toList with
  | some (name, accepts), _, cs =>
    if cs.head? = some '-' && word != "-" then
      .error (.usage ("option `--" ++ name ++ "` lacks its value"))
    else scan.addValue name accepts word
  | none, true, _ => scan.addOperand word
  | none, false, ['-'] => scan.addOperand word
  | none, false, ['-', '-'] =>
    if scan.command.isSome then .ok { scan with verbatim := true }
    else .error (.usage "a command has to come first")
  | none, false, '-' :: '-' :: rest =>
    scan.readOption (String.ofList (rest.takeWhile (· != '='))) (attachedValue? rest)
  | none, false, '-' :: 'h' :: _ => .error .help
  | none, false, '-' :: _ => .error (.usage ("unexpected option `" ++ word ++ "`"))
  | none, false, _ => scan.addOperand word

/-- The value of an option; behind the command wins. -/
def value (scan : Scan) : Lookup := fun name =>
  match Dictionary.get? name scan.behind with
  | some value => some value
  | none => Dictionary.get? name scan.before

def finish (scan : Scan) : Except Refusal Invocation :=
  match scan.pending, scan.command with
  | some (name, _), _ => .error (.usage ("option `--" ++ name ++ "` lacks its value"))
  | none, none => .error (.usage "a command is missing")
  | none, some rule =>
    if rule.name = helpRule.name then .error .help
    else
      match rule.decode scan.value scan.operands with
      | none => .error (.usage ("command `" ++ rule.name ++ "` lacks an argument"))
      | some command =>
        .ok ⟨scan.value "config", scan.value "storage-dir", scan.value "screen", command⟩

end Scan

def Invocation.ofWords (words : List String) : Except Refusal Invocation :=
  match words.foldlM Scan.step Scan.start with
  | .error refusal => .error refusal
  | .ok scan => scan.finish

end ScreenStudio.CommandLine
