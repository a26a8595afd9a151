/- digest: Readers of texts, numbers, lists and records, which say what they expect. -/

import ScreenStudio.Json.Reader
import ScreenStudio.Json.Writer

/-!
A record is read along its shape, the row of its fields. An object gives the fields by name: other members
are passed over, and none may be given twice. An array gives them by position. A field that is missing may
have a value all the same.
-/

set_option autoImplicit false
set_option relaxedAutoImplicit false

namespace ScreenStudio.Json

section Expectations

def invalidType (found expected : String) : String :=
  "invalid type: " ++ found ++ ", expected " ++ expected

/-- A character between quotes in a message. Past the first 160 characters all are shown as they are. -/
def shownChar (c : Char) : List Char :=
  match c with
  | '"' => ['\\', '"']
  | '\\' => ['\\', '\\']
  | '\n' => ['\\', 'n']
  | '\r' => ['\\', 'r']
  | '\t' => ['\\', 't']
  | '\x00' => ['\\', '0']
  | _ =>
    if c.toNat < 0x20 ∨ 0x7F ≤ c.toNat ∧ c.toNat < 0xA0 then
      ['\\', 'u', '\x7b'] ++ Nat.toDigits 16 c.toNat ++ ['\x7d']
    else [c]

def shownText (text : String) : String :=
  "string \"" ++ String.ofList (text.toList.flatMap shownChar) ++ "\""

def shownNumber (value : Json) : String :=
  match value with
  | .double _ => "floating point `" ++ value.compact ++ "`"
  | _ => "integer `" ++ value.compact ++ "`"

/-- The problem with a value that is something else than is expected; it is shown as it is read. -/
def wrong (expected : String) (read : Read String) : Problem :=
  match read with
  | .error problem => problem
  | .ok (found, after) => .behind (invalidType found expected) after

/-- What is wrong with a text that begins with something else than is expected. -/
def mismatch (expected : String) (body : List Char) : Problem :=
  match body with
  | [] => endOfValue
  | 'n' :: rest => wrong expected (literal "null" ['u', 'l', 'l'] rest)
  | 't' :: rest => wrong expected (literal "boolean `true`" ['r', 'u', 'e'] rest)
  | 'f' :: rest => wrong expected (literal "boolean `false`" ['a', 'l', 's', 'e'] rest)
  | '"' :: rest => wrong expected ((quotedText rest).mapValue shownText)
  | '[' :: _ => .behind (invalidType "sequence" expected) body
  | '{' :: _ => .behind (invalidType "map" expected) body
  | c :: _ =>
    if startsNumber c then wrong expected ((number body).mapValue shownNumber) else valueNeeded body

end Expectations

namespace Reader

variable {α β : Type}

/-- A reader that begins with something else than white space. -/
def behindSpace (read : Reader α) : Reader α
  | 0, _, _ => .error endOfValue
  | fuel + 1, room, cs =>
    match skipSpace cs with
    | [] => .error endOfValue
    | body => read fuel room body

def mapValue (change : α → β) (read : Reader α) : Reader β :=
  fun fuel room cs => (read fuel room cs).mapValue change

section Scalars

def textOf (body : List Char) : Read String :=
  match body with
  | '"' :: rest => quotedText rest
  | _ => .error (mismatch "a string" body)

def text : Reader String := .behindSpace (fun _ _ body => textOf body)

def optionalText : Reader (Option String) := .behindSpace (fun _ _ body =>
  match body with
  | 'n' :: rest => literal none ['u', 'l', 'l'] rest
  | _ => (textOf body).mapValue some)

/-- A number that is no less than zero; `expected` is the name of its type. -/
def natural (expected : String) : Reader Nat := .behindSpace (fun _ _ body =>
  if body.head?.any startsNumber then
    (number body).andThen (fun value rest =>
      match value with
      | .integer whole =>
        if 0 ≤ whole then .ok (whole.toNat, rest)
        else .error (.behind ("invalid value: " ++ shownNumber value ++ ", expected " ++ expected) rest)
      | _ => .error (.behind (invalidType (shownNumber value) expected) rest))
  else .error (mismatch expected body))

end Scalars

section Containers

/-- Go into a container if there is room for it. -/
def enter (room : Nat) (body : List Char) (inside : Nat → Read α) : Read α :=
  if room = 0 then .error (tooDeep body) else inside (room - 1)

def list (item : Reader α) : Reader (List α) := .behindSpace (fun fuel room body =>
  match body with
  | '[' :: rest => enter room body (fun room => itemsOf (item fuel room) fuel rest)
  | _ => .error (mismatch "a sequence" body))

def dictionary (value : Reader α) : Reader (List (String × α)) := .behindSpace (fun fuel room body =>
  match body with
  | '{' :: rest => enter room body (fun room => entriesOf (value fuel room) fuel rest)
  | _ => .error (mismatch "a map" body))

end Containers

end Reader

/-- A field of a record: its name, how it is read, and the value it has if it is missing. -/
structure Field (α : Type) where
  name : String
  read : Reader α
  absent? : Option α

/-- The fields of a record, with the types of their values. -/
inductive Shape : List Type → Type 1
  | nil : Shape []
  | cons {α : Type} {types : List Type} (field : Field α) (rest : Shape types) : Shape (α :: types)

/-- The values of some fields, as far as they are given. -/
@[reducible] def Slots : List Type → Type
  | [] => Unit
  | α :: types => Option α × Slots types

@[reducible] def Values : List Type → Type
  | [] => Unit
  | α :: types => α × Values types

def Slots.blank : (types : List Type) → Slots types
  | [] => ()
  | _ :: types => (none, blank types)

namespace Shape

variable {types : List Type}

/-- How a member of an object is read into the slots; a field that is given already is not read again. -/
def member? (name : String) : {types : List Type} → Shape types → Slots types → Option (Reader (Slots types))
  | _, .nil, _ => some (fun fuel _ => skipValue fuel)
  | _, .cons field rest, (slot, others) =>
    if field.name = name then
      if slot.isSome then none else some (field.read.mapValue (fun value => (some value, others)))
    else (rest.member? name others).map (Reader.mapValue (fun others => (slot, others)))

/-- Where an object is left whose member is given twice. -/
def closing (rest : List Char) : List Char :=
  match skipSpace rest with
  | '}' :: after => after
  | other => other

/-- Read a member of an object into the slots. -/
def entry (shape : Shape types) (fuel room : Nat) (slots : Slots types) (key : List Char) :
    Read (Slots types) :=
  (quotedText key).andThen (fun name rest =>
    match shape.member? name slots with
    | none => .error (.behind ("duplicate field `" ++ name ++ "`") (closing rest))
    | some read => (colon rest).andThen (fun _ => read fuel room))

/-- Behind a field, the next one may follow; behind the last one the array must end. -/
def following : {types : List Type} → Shape types → List Char → Except Problem Next
  | _, .nil, rest => lastItem rest
  | _, .cons _ _, rest => nextItem rest

/-- Read the items of an array into the slots in their order, and count them. -/
def elements (fuel room : Nat) : {types : List Type} → Shape types → Next → Read (Nat × Slots types)
  | types, _, .done after => .ok ((0, Slots.blank types), after)
  | _, .nil, .more rest => .error (trailingCharacters rest)
  | _, .cons field others, .more body =>
    (field.read fuel room body).andThen (fun value rest =>
      match others.following rest with
      | .error problem => .error problem
      | .ok next =>
        (others.elements fuel room next).mapValue (fun found => (found.1 + 1, (some value, found.2))))

/-- The values of the fields, or the name of the first one that is missing and has no value then. -/
def complete : {types : List Type} → Shape types → Slots types → Except String (Values types)
  | _, .nil, _ => .ok ()
  | _, .cons field rest, (slot, others) =>
    match slot.or field.absent? with
    | none => .error field.name
    | some value => (rest.complete others).map (value, ·)

/-- The record of some values, at the end of its text. -/
def finish {α : Type} (shape : Shape types) (make : Values types → α) (slots : Slots types)
    (after : List Char) : Read α :=
  match shape.complete slots with
  | .ok values => .ok (make values, after)
  | .error name => .error (.behind ("missing field `" ++ name ++ "`") after)

/-- What is wrong with an array of too few items. -/
def tooShort (count : Nat) (name : String) (size : Nat) (after : List Char) : Problem :=
  .behind ("invalid length " ++ String.ofList (Number.digitChars count) ++ ", expected struct " ++ name
    ++ " with " ++ String.ofList (Number.digitChars size) ++ " elements") after

/-- Read a record; an array of its fields must have `least` of them. -/
def reader {α : Type} (name : String) (least : Nat) (shape : Shape types) (make : Values types → α) :
    Reader α := .behindSpace (fun fuel room body =>
  match body with
  | '[' :: rest =>
    Reader.enter room body (fun room =>
      match firstItem rest with
      | .error problem => .error problem
      | .ok next =>
        (shape.elements fuel room next).andThen (fun found after =>
          if found.1 < least then .error (tooShort found.1 name types.length after)
          else shape.finish make found.2 after))
  | '{' :: rest =>
    Reader.enter room body (fun room =>
      (container firstEntry nextEntry (shape.entry fuel room) fuel (Slots.blank types) rest).andThen
        (shape.finish make))
  | _ => .error (mismatch ("struct " ++ name) body))

end Shape

end ScreenStudio.Json
