/- digest: Grammar rules over tokens that remember the furthest place they looked at. -/

import ScreenStudio.Source.Lexeme

set_option autoImplicit false
set_option relaxedAutoImplicit false

namespace ScreenStudio.Source

/-- The tokens ahead, and the offset at which the token behind ends. -/
structure Cursor where
  ahead : List Lexeme
  behind : Nat

/-- A place between tokens: before one of them, or behind the last. -/
inductive Place
  | before (lexeme : Lexeme)
  | atEnd

def Place.isBefore : Place → Place → Bool
  | .before a, .before b => decide (a.span.start < b.span.start)
  | .before _, .atEnd => true
  | .atEnd, _ => false

/-- Something that a rule looks for. -/
inductive Expectation
  | symbol (symbol : Symbol)
  | keyword (keyword : Keyword)
  | name
  | constant
  deriving DecidableEq, Repr

/-- The furthest place looked at, and what was looked for there. -/
structure Frontier where
  place : Place
  expected : List Expectation

/-- The further of two frontiers; at one place they join. -/
def Frontier.further (a b : Frontier) : Frontier :=
  if a.place.isBefore b.place then b
  else if b.place.isBefore a.place then a
  else ⟨a.place, a.expected ++ b.expected⟩

def Cursor.place (cursor : Cursor) : Place :=
  match cursor.ahead with
  | [] => .atEnd
  | lexeme :: _ => .before lexeme

/-- The offset at which the next token starts. -/
def Cursor.start (cursor : Cursor) : Nat :=
  match cursor.ahead with
  | [] => cursor.behind
  | lexeme :: _ => lexeme.span.start

/-- What a rule makes of the tokens ahead. -/
structure Reading (α : Type) where
  outcome : Option (α × Cursor)
  furthest : Frontier

def Rule (α : Type) := Cursor → Reading α

namespace Rule

variable {α β : Type}

def succeed (value : α) : Rule α := fun cursor => ⟨some (value, cursor), cursor.place, []⟩

/-- Read nothing and fail for lack of something. -/
def miss (expected : List Expectation) : Rule α := fun cursor => ⟨none, cursor.place, expected⟩

def fail : Rule α := miss []

/-- Read one rule and then another that may depend on it. -/
def andThen (rule : Rule α) (next : α → Rule β) : Rule β := fun cursor =>
  let first := rule cursor
  match first.outcome with
  | none => ⟨none, first.furthest⟩
  | some (value, after) =>
    let second := next value after
    ⟨second.outcome, first.furthest.further second.furthest⟩

instance : Monad Rule where
  pure := succeed
  bind := andThen

/-- Try a rule, and where it fails another. -/
def orElse (rule other : Rule α) : Rule α := fun cursor =>
  let first := rule cursor
  match first.outcome with
  | some _ => first
  | none =>
    let second := other cursor
    ⟨second.outcome, first.furthest.further second.furthest⟩

def choice : List (Rule α) → Rule α
  | [] => fail
  | rule :: rules => rule.orElse (choice rules)

def token (expected : List Expectation) (accept : Token → Option α) : Rule α := fun cursor =>
  match cursor.ahead with
  | [] => miss expected cursor
  | lexeme :: rest =>
    match accept lexeme.token with
    | none => miss expected cursor
    | some value => succeed value ⟨rest, lexeme.span.stop⟩

def symbol (expected : Symbol) : Rule Unit :=
  token [.symbol expected] (fun
    | .symbol found => if found = expected then some () else none
    | _ => none)

def keyword (expected : Keyword) : Rule Unit :=
  token [.keyword expected] (fun
    | .keyword found => if found = expected then some () else none
    | _ => none)

def name : Rule String :=
  token [.name] (fun
    | .name word => some word
    | _ => none)

def optional (rule : Rule α) : Rule (Option α) :=
  (rule.andThen fun value => succeed (some value)).orElse (succeed none)

/-- Read a rule in a row, at most once for each of some tokens. -/
def upTo (rule : Rule α) : List Lexeme → Rule (List α)
  | [] => succeed []
  | _ :: spare => fun cursor =>
    let first := rule cursor
    match first.outcome with
    | none => ⟨some ([], cursor), first.furthest⟩
    | some (value, after) =>
      let more := upTo rule spare after
      ⟨more.outcome.map (fun result => (value :: result.1, result.2)),
        first.furthest.further more.furthest⟩

/-- Read a rule as often as possible. Each time must take a token. -/
def many (rule : Rule α) : Rule (List α) := fun cursor => upTo rule cursor.ahead cursor

/-- Read rules with commas between them and an optional comma behind the last. -/
def separated (rule : Rule α) : Rule (List α) := do
  match ← optional rule with
  | none => return []
  | some first =>
    let others ← many (do symbol .comma; rule)
    let _ ← optional (symbol .comma)
    return first :: others

def between (opening : Symbol) (rule : Rule α) (closing : Symbol) : Rule α := do
  symbol opening
  let value ← rule
  symbol closing
  return value

/-- Read a rule and tell which bytes it covers, from its first token to its last. -/
def located (rule : Rule α) : Rule (α × Span) := fun cursor =>
  let reading := rule cursor
  ⟨reading.outcome.map (fun result => ((result.1, ⟨cursor.start, result.2.behind⟩), result.2)),
    reading.furthest⟩

end Rule

end ScreenStudio.Source
