/- digest: The syntax of the settings file. -/

import ScreenStudio.Number.Reading

/-!
A settings file is a list of entries and headers, one a line. An entry is a key, an equals sign and a
value: a text, a number, or a group of entries in braces. Keys with dots between them lead into
groups, and so does a header for the entries behind it. A sharp starts a comment. Texts stand in
single quotes, where nothing is escaped, or in double quotes, where a backslash escapes; three quotes
enclose a text of several lines. Numbers may have a sign, underscores between digits and the marks of
the bases 16, 8 and 2. An empty array says as much as an empty group. No setting takes another value,
so none is read.
-/

set_option autoImplicit false
set_option relaxedAutoImplicit false

namespace ScreenStudio.CommandLine

inductive SettingValue
  | text (value : String)
  | number (value : Int)
  | group (entries : List (List String × SettingValue))

/-- A place that a settings file names and the value there; a header has none. The flag tells that the
entry leads into groups by dots of its own. -/
structure Given where
  path : List String
  value : Option SettingValue
  dotted : Bool

namespace SettingsFile

/-- A reader takes a beginning of the text and gives what it means and the rest. -/
abbrev Reader (α : Type) := List Char → Option (α × List Char)

def isGap (c : Char) : Bool := c == ' ' || c == '\t'

/-- A character that a comment or a text may hold as it is. -/
def isPlain (c : Char) : Bool := c == '\t' || (decide (0x20 ≤ c.toNat) && c.toNat != 0x7F)

def isKeyChar (c : Char) : Bool := c.isAlphanum || c == '_' || c == '-'

def lineEnd? : List Char → Option (List Char)
  | '\n' :: rest => some rest
  | '\r' :: '\n' :: rest => some rest
  | _ => none

def hexDigit? (c : Char) : Option Nat :=
  if '0' ≤ c && c ≤ '9' then some (c.toNat - '0'.toNat)
  else if 'a' ≤ c && c ≤ 'f' then some (c.toNat - 'a'.toNat + 10)
  else if 'A' ≤ c && c ≤ 'F' then some (c.toNat - 'A'.toNat + 10)
  else none

/-- A character given by a number of hexadecimal digits. -/
def codePoint? (count : Nat) (cs : List Char) : Option (Char × List Char) := do
  let digits ← (cs.take count).mapM hexDigit?
  if digits.length < count then none
  else
    let code := digits.foldl (fun value digit => 16 * value + digit) 0
    if code.isValidChar then some (Char.ofNat code, cs.drop count) else none

/-- What a backslash and the characters behind it stand for. -/
def escape? : List Char → Option (Char × List Char)
  | 'b' :: rest => some ('\x08', rest)
  | 't' :: rest => some ('\t', rest)
  | 'n' :: rest => some ('\n', rest)
  | 'f' :: rest => some ('\x0c', rest)
  | 'r' :: rest => some ('\r', rest)
  | '"' :: rest => some ('"', rest)
  | '\\' :: rest => some ('\\', rest)
  | 'u' :: rest => codePoint? 4 rest
  | 'U' :: rest => codePoint? 8 rest
  | _ => none

/-- A text on one line up to `quote`, in at most `fuel` characters. -/
def lineText? (quote : Char) : Nat → Reader (List Char)
  | 0, _ => none
  | _, [] => none
  | fuel + 1, c :: rest =>
    if c = quote then some ([], rest)
    else if c = '\\' && quote = '"' then do
      let (escaped, behind) ← escape? rest
      let (more, after) ← lineText? quote fuel behind
      return (escaped :: more, after)
    else if isPlain c then do
      let (more, after) ← lineText? quote fuel rest
      return (c :: more, after)
    else none

/-- The blanks and ends of lines behind a backslash that ends a line. -/
def skipFold : List Char → List Char
  | [] => []
  | '\n' :: rest => skipFold rest
  | '\r' :: '\n' :: rest => skipFold rest
  | c :: rest => if isGap c then skipFold rest else c :: rest

/-- The characters behind a backslash end the line. -/
def foldsLine (cs : List Char) : Bool := (lineEnd? (cs.dropWhile isGap)).isSome

/-- A text of several lines up to three of `quote`, in at most `fuel` characters. One or two quotes
may stand before the closing three. -/
def longText? (quote : Char) : Nat → Reader (List Char)
  | 0, _ => none
  | _, [] => none
  | fuel + 1, c :: rest =>
    if c = quote then
      let run := min 5 ((c :: rest).takeWhile (· == quote)).length
      if 3 ≤ run then some (List.replicate (run - 3) quote, (c :: rest).drop run)
      else do
        let (more, after) ← longText? quote fuel rest
        return (c :: more, after)
    else if c = '\\' && quote = '"' then
      if foldsLine rest then longText? quote fuel (skipFold rest)
      else do
        let (escaped, behind) ← escape? rest
        let (more, after) ← longText? quote fuel behind
        return (escaped :: more, after)
    else
      match lineEnd? (c :: rest) with
      | some behind => do
        let (more, after) ← longText? quote fuel behind
        return ('\n' :: more, after)
      | none =>
        if isPlain c then do
          let (more, after) ← longText? quote fuel rest
          return (c :: more, after)
        else none

def text? : Reader (List Char)
  | '"' :: '"' :: '"' :: rest => longText? '"' (rest.length + 1) ((lineEnd? rest).getD rest)
  | '\'' :: '\'' :: '\'' :: rest => longText? '\'' (rest.length + 1) ((lineEnd? rest).getD rest)
  | '"' :: rest => lineText? '"' (rest.length + 1) rest
  | '\'' :: rest => lineText? '\'' (rest.length + 1) rest
  | _ => none

def key? (cs : List Char) : Option (String × List Char) :=
  match cs with
  | '"' :: rest => (lineText? '"' (rest.length + 1) rest).map (fun read =>
      (String.ofList read.1, read.2))
  | '\'' :: rest => (lineText? '\'' (rest.length + 1) rest).map (fun read =>
      (String.ofList read.1, read.2))
  | _ =>
    let word := cs.takeWhile isKeyChar
    if word.isEmpty then none else some (String.ofList word, cs.dropWhile isKeyChar)

/-- The digits of a number with single underscores between them. -/
def digits? (isDigit : Char → Bool) : List Char → Option (List Char)
  | [] => none
  | [c] => if isDigit c then some [c] else none
  | c :: '_' :: rest => if isDigit c then (digits? isDigit rest).map (c :: ·) else none
  | c :: rest => if isDigit c then (digits? isDigit rest).map (c :: ·) else none

def valueOf? (base : Nat) (cs : List Char) : Option Nat := do
  let digits ← digits? (fun c => (hexDigit? c).any (fun value => decide (value < base))) cs
  return digits.foldl (fun value c => base * value + (hexDigit? c).getD 0) 0

/-- The value of a decimal number without leading zeros. -/
def decimal? (cs : List Char) : Option Nat :=
  if cs.head? = some '0' && 1 < cs.length then none else valueOf? 10 cs

def numberOf? : List Char → Option Int
  | '0' :: 'x' :: rest => (valueOf? 16 rest).map Int.ofNat
  | '0' :: 'o' :: rest => (valueOf? 8 rest).map Int.ofNat
  | '0' :: 'b' :: rest => (valueOf? 2 rest).map Int.ofNat
  | '+' :: rest => (decimal? rest).map Int.ofNat
  | '-' :: rest => (decimal? rest).map (fun value => -Int.ofNat value)
  | cs => (decimal? cs).map Int.ofNat

/-- A number of 64 bits with a sign. -/
def number? (cs : List Char) : Option (Int × List Char) := do
  let isPart := fun (c : Char) => c.isAlphanum || c == '_' || c == '+' || c == '-'
  let value ← numberOf? (cs.takeWhile isPart)
  if -2 ^ 63 ≤ value && value < 2 ^ 63 then some (value, cs.dropWhile isPart) else none

def scalar? (cs : List Char) : Option (SettingValue × List Char) :=
  match cs.head? with
  | some '"' => (text? cs).map (fun read => (.text (String.ofList read.1), read.2))
  | some '\'' => (text? cs).map (fun read => (.text (String.ofList read.1), read.2))
  | _ => (number? cs).map (fun read => (.number read.1, read.2))

/-- Drop the rest of a line: blanks, a comment and the end of the line or of the text. -/
def restOfLine? (cs : List Char) : Option (List Char) :=
  match cs.dropWhile isGap with
  | [] => some []
  | '#' :: comment =>
    match comment.dropWhile isPlain with
    | [] => some []
    | behind => lineEnd? behind
  | behind => lineEnd? behind

/-- Drop blanks, ends of lines and comments, in at most `fuel` lines. -/
def skipLines : Nat → List Char → List Char
  | 0, cs => cs
  | fuel + 1, cs =>
    match restOfLine? cs with
    | some rest => if rest.isEmpty then [] else skipLines fuel rest
    | none => cs.dropWhile isGap

/-- Keys with dots between them, at most `fuel`; blanks may stand around each. -/
def keyPath? : Nat → Reader (List String)
  | 0, _ => none
  | fuel + 1, cs => do
    let (key, behind) ← key? (cs.dropWhile isGap)
    match behind.dropWhile isGap with
    | '.' :: rest =>
      let (more, after) ← keyPath? fuel rest
      return (key :: more, after)
    | after => return ([key], after)

mutual

/-- The value of an entry, with at most `fuel` steps of nesting and sequence. -/
def value? : Nat → Reader SettingValue
  | 0, _ => none
  | _, '[' :: rest =>
    match skipLines (rest.length + 1) rest with
    | ']' :: after => some (.group [], after)
    | _ => none
  | fuel + 1, '\x7b' :: rest =>
    match rest.dropWhile isGap with
    | '\x7d' :: after => some (.group [], after)
    | body => (entries? fuel body).map (fun read => (.group read.1, read.2))
  | _, cs => scalar? cs

/-- An entry: keys, an equals sign and a value. -/
def entry? : Nat → Reader (List String × SettingValue)
  | 0, _ => none
  | fuel + 1, cs => do
    match ← keyPath? (cs.length + 1) cs with
    | (path, '=' :: rest) =>
      let (value, after) ← value? fuel (rest.dropWhile isGap)
      return ((path, value), after)
    | _ => none

/-- Entries with commas between them, up to the closing brace. -/
def entries? : Nat → Reader (List (List String × SettingValue))
  | 0, _ => none
  | fuel + 1, cs => do
    let (entry, behind) ← entry? fuel cs
    match behind.dropWhile isGap with
    | ',' :: rest =>
      let (more, after) ← entries? fuel rest
      return (entry :: more, after)
    | '\x7d' :: after => return ([entry], after)
    | _ => none

end

/-- What stands at the start of a line that is not blank, under a header: another header or an
entry. -/
def given? (header : List String) (cs : List Char) : Option (Given × List Char) :=
  match cs with
  | '[' :: rest => do
    match ← keyPath? (rest.length + 1) rest with
    | (path, ']' :: after) => return (⟨path, none, false⟩, after)
    | _ => none
  | _ => do
    let ((path, value), after) ← entry? (2 * cs.length + 2) cs
    return (⟨header ++ path, some value, decide (1 < path.length)⟩, after)

/-- The header for what stands behind a place. -/
def headerBehind (header : List String) (given : Given) : List String :=
  if given.value.isNone then given.path else header

/-- What a text gives under a header, in at most `fuel` lines. -/
def givenFrom? : Nat → List String → List Char → Option (List Given)
  | 0, _, _ => none
  | _ + 1, _, [] => some []
  | fuel + 1, header, cs =>
    match restOfLine? cs with
    | some rest => givenFrom? fuel header rest
    | none => do
      let (given, behind) ← given? header (cs.dropWhile isGap)
      let rest ← restOfLine? behind
      let more ← givenFrom? fuel (headerBehind header given) rest
      return given :: more

/-- What a text gives; a byte order mark may stand before it. -/
def ofText? (text : String) : Option (List Given) :=
  let cs :=
    match text.toList with
    | '\uFEFF' :: rest => rest
    | all => all
  givenFrom? (cs.length + 1) [] cs

end SettingsFile

end ScreenStudio.CommandLine
