/- digest: Which tokens make up which expressions and statements, without a way to find them. -/

import Mathlib.Data.List.Chain
import ScreenStudio.Proofs.Source.Reading

/-!
A derivation says how the tokens of a phrase are made up of the tokens of its parts. Where the grammar
tries one thing before another, a derivation asks for what the first must not find: an expression without
a semicolon behind it is not followed by what could go on with it, and the body of an arrow function that
is an expression does not start with two braces. How a phrase starts, as far as that matters to what
stands before it, is its lead; its tail tells whether it ends with the body of an arrow function that is an
expression, which takes all that could go on with the phrase.

The places that expressions carry are left open, but for those of names and statements: an exact
derivation asks that these are the places of their tokens.
-/

set_option autoImplicit false
set_option relaxedAutoImplicit false

namespace ScreenStudio.Source

open Nested (Suffix applySuffix applyPrefix)

/-- The tokens of some lexemes. -/
def tokensOf (lexemes : List Lexeme) : List Token := lexemes.map Lexeme.token

@[simp] theorem tokensOf_nil : tokensOf [] = [] := rfl

@[simp] theorem tokensOf_cons (lexeme : Lexeme) (rest : List Lexeme) :
    tokensOf (lexeme :: rest) = lexeme.token :: tokensOf rest := rfl

@[simp] theorem tokensOf_append (first second : List Lexeme) :
    tokensOf (first ++ second) = tokensOf first ++ tokensOf second := List.map_append

/-- Where the last of some lexemes ends, or `behind` if there is none. -/
def stopOf (behind : Nat) : List Lexeme → Nat
  | [] => behind
  | lexeme :: rest => stopOf lexeme.span.stop rest

theorem stopOf_append (behind : Nat) (first second : List Lexeme) :
    stopOf behind (first ++ second) = stopOf (stopOf behind first) second := by
  induction first generalizing behind with
  | nil => rfl
  | cons lexeme rest ih => exact ih lexeme.span.stop

/-- From the start of the first lexeme to the end of the last. -/
def extentOf : List Lexeme → Span
  | [] => nowhere
  | lexeme :: rest => ⟨lexeme.span.start, stopOf lexeme.span.stop rest⟩

/-- How a phrase starts: with what could go on with an expression that stands before it, with two braces
that could be an empty block, with a keyword, or with none of these. -/
inductive Lead
  | joining
  | braces
  | keyword
  | free
  deriving DecidableEq

/-- How a phrase ends: loose if it ends with the body of an arrow function that is an expression. -/
inductive Tail
  | firm
  | loose
  deriving DecidableEq

/-- How a statement ends: with a block, with an expression, or with a keyword that an expression could
follow. -/
inductive Ending
  | closed
  | value
  | bare
  deriving DecidableEq

/-- With no semicolon in between, a statement with the ending and one with the lead stay apart. -/
def Ending.Parts (lead : Lead) : Ending → Prop
  | .closed => True
  | .value => lead ≠ .joining
  | .bare => lead = .keyword

/-- A phrase with its lead and its lexemes. -/
structure Item (α : Type) where
  lead : Lead
  value : α
  lexemes : List Lexeme

/-- How items, commas between them and perhaps one behind the last make a row of lexemes. -/
inductive Listing {α : Type} : List (Item α) → (trailing : Bool) → List Lexeme → Prop
  | empty : Listing [] false []
  | row (first : Item α) (others : List (Lexeme × Item α)) (trailing : Option Lexeme)
    (commas : ∀ other ∈ others, other.1.token = .symbol .comma)
    (last : ∀ lexeme ∈ trailing, lexeme.token = .symbol .comma) :
    Listing (first :: others.map Prod.snd) trailing.isSome
      (first.lexemes ++ (others.flatMap (fun other => other.1 :: other.2.lexemes) ++ trailing.toList))

/-- An entry of an object: a key, a colon and a value. -/
structure Field where
  key : Lexeme
  colon : Lexeme
  name : String
  item : Item Expression

namespace Field

def entry (field : Field) : Item (String × Expression) :=
  ⟨.free, (field.name, field.item.value), field.key :: field.colon :: field.item.lexemes⟩

structure Fits (field : Field) : Prop where
  key : Nested.key.accepts? field.key.token = some field.name
  colon : field.colon.token = .symbol .colon

end Field

/-- The parameters of an arrow function: a name, or names in brackets. -/
inductive Parameters : Lead → List String → List Lexeme → Prop
  | single (lexeme : Lexeme) (word : String) (is : lexeme.token = .name word) :
    Parameters .free [word] [lexeme]
  | listed (opening closing : Lexeme) (items : List (Item String)) (trailing : Bool)
    (inner : List Lexeme) (opens : opening.token = .symbol .roundOpen)
    (closes : closing.token = .symbol .roundClose) (listing : Listing items trailing inner)
    (each : ∀ item ∈ items, ∃ lexeme : Lexeme, item.lexemes = [lexeme] ∧
      lexeme.token = .name item.value) :
    Parameters .joining (items.map Item.value) (opening :: (inner ++ [closing]))

/-- A suffix with its place and its lexemes. -/
structure Trailer where
  suffix : Suffix × Span
  lexemes : List Lexeme

/-- A prefix operator with its place and its lexeme. -/
structure Sign where
  operator : UnaryOperator × Span
  lexeme : Lexeme

/-- An operator between two operands with the operand behind it. -/
structure Link where
  sign : Lexeme
  operator : BinaryOperator
  item : Item Operand
  tail : Tail

/-- The tail of a row of operands. -/
def tailOfLinks (tail : Tail) : List Link → Tail
  | [] => tail
  | link :: rest => tailOfLinks link.tail rest

/-- All operands but the last are firm. -/
def FirmBefore (tail : Tail) : List Link → Prop
  | [] => True
  | link :: rest => tail = .firm ∧ FirmBefore link.tail rest

/-- A statement with the semicolons behind it. -/
structure Sentence where
  ending : Ending
  item : Item Statement
  semicolons : List Lexeme

namespace Sentence

def lexemes (sentence : Sentence) : List Lexeme := sentence.item.lexemes ++ sentence.semicolons

/-- A semicolon stands between the statements, or they stay apart without one. -/
def Apart (before after : Sentence) : Prop :=
  before.semicolons ≠ [] ∨ before.ending.Parts after.item.lead

end Sentence

/-- All of the lexemes are semicolons. -/
def AreSemicolons (lexemes : List Lexeme) : Prop :=
  ∀ lexeme ∈ lexemes, lexeme.token = .symbol .semicolon

/-- What tokens can make up. -/
inductive Phrase
  | atom (lead : Lead) (tail : Tail) (value : Expression)
  | suffix (value : Suffix)
  | chain (lead : Lead) (tail : Tail) (value : Expression)
  | operand (lead : Lead) (tail : Tail) (value : Operand)
  | operation (lead : Lead) (tail : Tail) (value : Expression)
  | expression (lead : Lead) (value : Expression)
  | body (tail : Tail) (value : Body)
  | block (statements : List Statement)
  | otherwise (alternative : Option (List Statement))
  | statement (ending : Ending) (lead : Lead) (value : Statement)
  | statements (values : List Statement)

/-- The lead of an operand with some prefix operators. -/
def leadOfSigns (lead : Lead) : List Sign → Lead
  | [] => lead
  | sign :: _ => if sign.operator.1 = .negate then .joining else .free

/-- The tokens of the lexemes make up the phrase. -/
inductive Derives (exact : Prop) : Phrase → List Lexeme → Prop
  | literal (lexeme : Lexeme) (span : Span) (value : Literal)
    (is : Nested.literal.accepts? lexeme.token = some value) :
    Derives exact (.atom .free .firm (.literal span value)) [lexeme]
  | name (lexeme : Lexeme) (span : Span) (word : String) (is : lexeme.token = .name word)
    (place : exact → span = lexeme.span) :
    Derives exact (.atom .free .firm (.name span word)) [lexeme]
  | array (opening closing : Lexeme) (span : Span) (items : List (Item Expression)) (trailing : Bool)
    (inner : List Lexeme) (opens : opening.token = .symbol .squareOpen)
    (closes : closing.token = .symbol .squareClose) (listing : Listing items trailing inner)
    (each : ∀ item ∈ items, Derives exact (.expression item.lead item.value) item.lexemes) :
    Derives exact
      (.atom (if items.length = 1 ∧ trailing = false then .joining else .free) .firm
        (.array span (items.map Item.value)))
      (opening :: (inner ++ [closing]))
  | object (opening closing : Lexeme) (span : Span) (fields : List Field) (trailing : Bool)
    (inner : List Lexeme) (opens : opening.token = .symbol .curlyOpen)
    (closes : closing.token = .symbol .curlyClose)
    (listing : Listing (fields.map Field.entry) trailing inner) (fits : ∀ field ∈ fields, field.Fits)
    (each : ∀ field ∈ fields,
      Derives exact (.expression field.item.lead field.item.value) field.item.lexemes) :
    Derives exact
      (.atom (if fields = [] then .braces else .free) .firm
        (.object span (fields.map (fun field => (field.name, field.item.value)))))
      (opening :: (inner ++ [closing]))
  | arrow (span : Span) {lead : Lead} {tail : Tail} {names : List String} {value : Body}
    {parameters inner : List Lexeme} (sign : Lexeme) (is : sign.token = .symbol .arrow)
    (listed : Parameters lead names parameters) (body : Derives exact (.body tail value) inner) :
    Derives exact (.atom lead tail (.arrow span names value)) (parameters ++ sign :: inner)
  | brackets (opening closing : Lexeme) {lead : Lead} {value : Expression} {inner : List Lexeme}
    (opens : opening.token = .symbol .roundOpen) (closes : closing.token = .symbol .roundClose)
    (within : Derives exact (.expression lead value) inner) :
    Derives exact (.atom .joining .firm value) (opening :: (inner ++ [closing]))
  | call (opening closing : Lexeme) (items : List (Item Expression)) (trailing : Bool)
    (inner : List Lexeme) (opens : opening.token = .symbol .roundOpen)
    (closes : closing.token = .symbol .roundClose) (listing : Listing items trailing inner)
    (each : ∀ item ∈ items, Derives exact (.expression item.lead item.value) item.lexemes) :
    Derives exact (.suffix (.call (items.map Item.value))) (opening :: (inner ++ [closing]))
  | member (dot property : Lexeme) (word : String) (is : dot.token = .symbol .dot)
    (named : property.token = .name word) :
    Derives exact (.suffix (.member word)) [dot, property]
  | index (opening closing : Lexeme) {lead : Lead} {value : Expression} {inner : List Lexeme}
    (opens : opening.token = .symbol .squareOpen) (closes : closing.token = .symbol .squareClose)
    (within : Derives exact (.expression lead value) inner) :
    Derives exact (.suffix (.index value)) (opening :: (inner ++ [closing]))
  | chain {lead : Lead} {tail : Tail} {target : Expression} {first : List Lexeme}
    (trailers : List Trailer) (atom : Derives exact (.atom lead tail target) first)
    (firm : tail = .loose → trailers = [])
    (each : ∀ trailer ∈ trailers, Derives exact (.suffix trailer.suffix.1) trailer.lexemes) :
    Derives exact (.chain lead tail ((trailers.map Trailer.suffix).foldl applySuffix target))
      (first ++ trailers.flatMap Trailer.lexemes)
  | operand (extent : Span) {lead : Lead} {tail : Tail} {value : Expression} {inner : List Lexeme}
    (signs : List Sign)
    (are : ∀ sign ∈ signs, Nested.prefixOperator.accepts? sign.lexeme.token = some sign.operator.1)
    (chain : Derives exact (.chain lead tail value) inner) :
    Derives exact
      (.operand (leadOfSigns lead signs) tail
        ((signs.map Sign.operator).foldr applyPrefix ⟨value, extent⟩))
      (signs.map Sign.lexeme ++ inner)
  | operation {lead : Lead} {tail : Tail} {first : Operand} {inner : List Lexeme}
    (links : List Link)
    (are : ∀ link ∈ links, Nested.infixOperator.accepts? link.sign.token = some link.operator)
    (head : Derives exact (.operand lead tail first) inner) (firm : FirmBefore tail links)
    (each : ∀ link ∈ links,
      Derives exact (.operand link.item.lead link.tail link.item.value) link.item.lexemes) :
    Derives exact
      (.operation lead (tailOfLinks tail links) (OperatorTree.ofSequence first
        (links.map (fun link => (link.operator, link.item.value)))).toOperand.expression)
      (inner ++ links.flatMap (fun link => link.sign :: link.item.lexemes))
  | plain {lead : Lead} {tail : Tail} {value : Expression} {inner : List Lexeme}
    (operation : Derives exact (.operation lead tail value) inner) :
    Derives exact (.expression lead value) inner
  | conditional (span : Span) (question colon : Lexeme) {lead first second : Lead}
    {condition consequent alternative : Expression} {one two three : List Lexeme}
    (asks : question.token = .symbol .question) (parts : colon.token = .symbol .colon)
    (head : Derives exact (.operation lead .firm condition) one)
    (yes : Derives exact (.expression first consequent) two)
    (no : Derives exact (.expression second alternative) three) :
    Derives exact (.expression lead (.conditional span condition consequent alternative))
      (one ++ question :: (two ++ colon :: three))
  | bodyBlock {statements : List Statement} {inner : List Lexeme}
    (within : Derives exact (.block statements) inner) :
    Derives exact (.body .firm (.block statements)) inner
  | bodyExpression {lead : Lead} {value : Expression} {inner : List Lexeme}
    (noBlock : lead ≠ .braces) (within : Derives exact (.expression lead value) inner) :
    Derives exact (.body .loose (.expression value)) inner
  | block (opening closing : Lexeme) {statements : List Statement} {inner : List Lexeme}
    (opens : opening.token = .symbol .curlyOpen) (closes : closing.token = .symbol .curlyClose)
    (within : Derives exact (.statements statements) inner) :
    Derives exact (.block statements) (opening :: (inner ++ [closing]))
  | nothing : Derives exact (.otherwise none) []
  | otherwise (sign : Lexeme) {statements : List Statement} {inner : List Lexeme}
    (is : sign.token = .keyword .elseBranch) (within : Derives exact (.block statements) inner) :
    Derives exact (.otherwise (some statements)) (sign :: inner)
  | otherwiseBranch (sign : Lexeme) {lead : Lead} {branch : Statement} {inner : List Lexeme}
    (is : sign.token = .keyword .elseBranch)
    (within : Derives exact (.statement .closed lead branch) inner) :
    Derives exact (.otherwise (some [branch])) (sign :: inner)
  | binding (span : Span) (sign name assign : Lexeme) (word : String) {lead : Lead}
    {value : Expression} {inner : List Lexeme}
    (is : sign.token = .keyword .letBinding ∨ sign.token = .keyword .constBinding)
    (named : name.token = .name word) (assigns : assign.token = .symbol .assign)
    (within : Derives exact (.expression lead value) inner)
    (place : exact → span = extentOf (sign :: name :: assign :: inner)) :
    Derives exact (.statement .value .keyword (.binding span word value))
      (sign :: name :: assign :: inner)
  | expression (span : Span) {lead : Lead} {value : Expression} {inner : List Lexeme}
    (within : Derives exact (.expression lead value) inner) (place : exact → span = extentOf inner) :
    Derives exact (.statement .value lead (.expression span value)) inner
  | branch (span : Span) (sign opening closing : Lexeme) {lead : Lead} {condition : Expression}
    {consequent : List Statement} {alternative : Option (List Statement)}
    {one two three : List Lexeme} (is : sign.token = .keyword .ifBranch)
    (opens : opening.token = .symbol .roundOpen) (closes : closing.token = .symbol .roundClose)
    (head : Derives exact (.expression lead condition) one)
    (yes : Derives exact (.block consequent) two) (no : Derives exact (.otherwise alternative) three)
    (place : exact → span = extentOf (sign :: opening :: (one ++ closing :: (two ++ three)))) :
    Derives exact (.statement .closed .keyword (.branch span condition consequent alternative))
      (sign :: opening :: (one ++ closing :: (two ++ three)))
  | result (span : Span) (sign : Lexeme) (is : sign.token = .keyword .returnValue)
    (place : exact → span = extentOf [sign]) :
    Derives exact (.statement .bare .keyword (.result span none)) [sign]
  | resultValue (span : Span) (sign : Lexeme) {lead : Lead} {value : Expression} {inner : List Lexeme}
    (is : sign.token = .keyword .returnValue) (within : Derives exact (.expression lead value) inner)
    (place : exact → span = extentOf (sign :: inner)) :
    Derives exact (.statement .value .keyword (.result span (some value))) (sign :: inner)
  | statements (leading : List Lexeme) (sentences : List Sentence) (are : AreSemicolons leading)
    (ends : ∀ sentence ∈ sentences, AreSemicolons sentence.semicolons)
    (apart : sentences.IsChain Sentence.Apart)
    (each : ∀ sentence ∈ sentences,
      Derives exact (.statement sentence.ending sentence.item.lead sentence.item.value)
        sentence.item.lexemes) :
    Derives exact (.statements (sentences.map (fun sentence => sentence.item.value)))
      (leading ++ sentences.flatMap Sentence.lexemes)

end ScreenStudio.Source
