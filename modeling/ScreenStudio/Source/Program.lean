/- digest: Reading a source text as a program or as a single expression. -/

import ScreenStudio.Source.Diagnostic
import ScreenStudio.Source.Grammar

set_option autoImplicit false
set_option relaxedAutoImplicit false

namespace ScreenStudio.Source

/-- Why a source text is not what it should be. The failure that counts comes first. -/
inductive SyntaxError
  | unexpected (source : String) (failure : Unexpected) (others : List Unexpected)
  | notOneExpression (source : String)
  deriving DecidableEq

def SyntaxError.message : SyntaxError → String
  | .unexpected _ failure _ => failure.message
  | .notOneExpression source =>
    "expected a single expression, found `" ++ Text.trim source ++ "`"

def SyntaxError.span : SyntaxError → Span
  | .unexpected _ failure _ => failure.span
  | .notOneExpression source => ⟨0, byteLength source.toList⟩

/-- The diagnostic shown under the message. A text that is well formed but no single expression has
none. -/
def SyntaxError.report : SyntaxError → String
  | .unexpected source failure others => diagnostic source (failure :: others)
  | .notOneExpression _ => ""

def Expectation.shown : Expectation → String
  | .symbol mark => String.ofList mark.spelling
  | .keyword word => word.spelling
  | .name => "name"
  | .constant => "constant"

/-- The failure at the furthest place among the tokens of a text of `length` bytes. -/
def Frontier.unexpected (length : Nat) (frontier : Frontier) : Unexpected :=
  let expected := frontier.expected.map Expectation.shown
  match frontier.place with
  | .atEnd => ⟨none, ⟨length, length⟩, expected⟩
  | .before lexeme => ⟨some lexeme.token.shown, lexeme.span, expected⟩

def programOfLexemes (length : Nat) (lexemes : List Lexeme) : Except Unexpected (List Statement) :=
  let reading := (Nested.ofLevels (lexemes.length + 1)).statements ⟨lexemes, 0⟩
  match reading.outcome with
  | some (statements, ⟨[], _⟩) => .ok statements
  | _ => .error (reading.furthest.unexpected length)

def program (source : String) : Except SyntaxError (List Statement) :=
  match lexemes source with
  | .error failure => .error (.unexpected source failure (failures source).tail)
  | .ok lexemes =>
    (programOfLexemes (byteLength source.toList)
      (lexemes.filter (fun lexeme => !lexeme.token.isComment))).mapError
        (fun failure => .unexpected source failure [])

/-- Read a text as one expression and nothing else. -/
def expression (source : String) : Except SyntaxError Expression := do
  match ← program source with
  | [.expression _ value] => return value
  | _ => throw (.notOneExpression source)

end ScreenStudio.Source
