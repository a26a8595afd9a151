/- digest: The grammar of statements and expressions. -/

import ScreenStudio.Source.Operators
import ScreenStudio.Source.Rule

/-!
The rules of one level of nesting are written with the rules of the level below it: what stands in
brackets, in an arrow's body or in the branches of a conditional is read one level down. Every step
down takes at least one token, so as many levels as there are tokens suffice.

A statement binds a name, branches, returns or is an expression; semicolons may stand before, between
and behind statements. An expression is a sequence of operands and operators with an optional pair of
branches. An operand is a chain of calls, members and indices behind an atom, under any number of
prefix operators. An arrow is tried before all other atoms and its block body before an expression,
so that a brace behind an arrow opens a block wherever it can.
-/

set_option autoImplicit false
set_option relaxedAutoImplicit false

namespace ScreenStudio.Source

/-- What the escapes of a quoted text stand for. A backslash before another character is dropped. -/
def unescape : List Char → List Char
  | '\\' :: c :: rest =>
    let plain :=
      match c with
      | 'n' => '\n'
      | 't' => '\t'
      | 'r' => '\r'
      | '0' => '\x00'
      | other => other
    plain :: unescape rest
  | c :: rest => c :: unescape rest
  | [] => []

/-- The text of a token with its escapes resolved. -/
def unescapeText (raw : String) : String := String.ofList (unescape raw.toList)

/-- The rules of the next level of nesting. -/
structure Nested where
  expression : Rule Expression
  statements : Rule (List Statement)
  branch : Rule Statement

namespace Nested

open Rule (symbol keyword name token many optional separated between located)

def block (inner : Nested) : Rule (List Statement) :=
  between .curlyOpen inner.statements .curlyClose

def literal : Rule Literal :=
  token [.constant] (fun
    | .number value => some (.number value)
    | .text raw => some (.text (unescapeText raw))
    | .keyword .trueValue => some (.bool true)
    | .keyword .falseValue => some (.bool false)
    | .keyword .nullValue => some .null
    | _ => none)

def parameters : Rule (List String) :=
  Rule.orElse (do let parameter ← name; return [parameter])
    (between .roundOpen (separated name) .roundClose)

def body (inner : Nested) : Rule Body :=
  Rule.orElse (do let statements ← inner.block; return .block statements)
    (do let value ← inner.expression; return .expression value)

/-- The key of an object entry: a name or a text. -/
def key : Rule String :=
  token [.name, .constant] (fun
    | .name word => some word
    | .text raw => some (unescapeText raw)
    | _ => none)

def entry (inner : Nested) : Rule (String × Expression) := do
  let name ← key
  symbol .colon
  let value ← inner.expression
  return (name, value)

def arrow (inner : Nested) : Rule (Span → Expression) := do
  let names ← parameters
  symbol .arrow
  let body ← inner.body
  return fun span => .arrow span names body

/-- An atom that is not in brackets, up to its span. -/
def bareAtom (inner : Nested) : Rule (Span → Expression) :=
  Rule.choice [
    inner.arrow,
    do let value ← literal; return fun span => .literal span value,
    do
      let items ← between .squareOpen (separated inner.expression) .squareClose
      return fun span => .array span items,
    do
      let entries ← between .curlyOpen (separated inner.entry) .curlyClose
      return fun span => .object span entries,
    do let word ← name; return fun span => .name span word]

/-- An atom. An expression in brackets keeps its own span. -/
def atom (inner : Nested) : Rule Expression :=
  Rule.orElse
    (do let (build, span) ← located inner.bareAtom; return build span)
    (between .roundOpen inner.expression .roundClose)

/-- What can follow an atom: a call, a member or an index. -/
inductive Suffix
  | call (arguments : List Expression)
  | member (property : String)
  | index (key : Expression)

def suffix (inner : Nested) : Rule Suffix :=
  Rule.choice [
    do
      let arguments ← between .roundOpen (separated inner.expression) .roundClose
      return .call arguments,
    do symbol .dot; let property ← name; return .member property,
    do let key ← between .squareOpen inner.expression .squareClose; return .index key]

/-- An expression with a suffix; its span runs from the start of the target. -/
def applySuffix (target : Expression) (suffix : Suffix × Span) : Expression :=
  let span : Span := ⟨target.span.start, suffix.2.stop⟩
  match suffix.1 with
  | .call arguments => .call span target arguments
  | .member property => .member span target property
  | .index key => .index span target key

def chain (inner : Nested) : Rule Expression := do
  let target ← inner.atom
  let suffixes ← many (located inner.suffix)
  return suffixes.foldl applySuffix target

def prefixOperator : Rule UnaryOperator :=
  token [.symbol .not, .symbol .minus] (fun
    | .symbol .not => some .not
    | .symbol .minus => some .negate
    | _ => none)

/-- Put a prefix operator that starts at `start` before an operand. -/
def applyPrefix (operator : UnaryOperator × Span) (operand : Operand) : Operand :=
  let extent : Span := ⟨operator.2.start, operand.extent.stop⟩
  ⟨.unary extent operator.1 operand.expression, extent⟩

def operand (inner : Nested) : Rule Operand := do
  let operators ← many (located prefixOperator)
  let (expression, extent) ← located inner.chain
  return operators.foldr applyPrefix ⟨expression, extent⟩

/-- The symbols that can stand between two operands. -/
def infixSymbols : List Symbol :=
  [.or, .and, .strictEqual, .looseEqual, .strictNotEqual, .looseNotEqual, .less, .lessOrEqual,
    .greater, .greaterOrEqual, .plus, .minus, .asterisk, .slash, .percent]

/-- An operator between two operands. The loose and the strict equalities mean the same. -/
def infixOperator : Rule BinaryOperator :=
  token (infixSymbols.map .symbol) (fun
    | .symbol .or => some .or
    | .symbol .and => some .and
    | .symbol .strictEqual => some .equal
    | .symbol .looseEqual => some .equal
    | .symbol .strictNotEqual => some .notEqual
    | .symbol .looseNotEqual => some .notEqual
    | .symbol .less => some .less
    | .symbol .lessOrEqual => some .lessOrEqual
    | .symbol .greater => some .greater
    | .symbol .greaterOrEqual => some .greaterOrEqual
    | .symbol .plus => some .add
    | .symbol .minus => some .subtract
    | .symbol .asterisk => some .multiply
    | .symbol .slash => some .divide
    | .symbol .percent => some .remainder
    | _ => none)

def operation (inner : Nested) : Rule Expression := do
  let first ← inner.operand
  let others ← many (do
    let operator ← infixOperator
    let operand ← inner.operand
    return (operator, operand))
  return (OperatorTree.ofSequence first others).toOperand.expression

def branches (inner : Nested) : Rule (Expression × Expression) := do
  symbol .question
  let consequent ← inner.expression
  symbol .colon
  let alternative ← inner.expression
  return (consequent, alternative)

def expressionRule (inner : Nested) : Rule Expression := do
  let ((condition, branches), span) ← located (do
    let condition ← inner.operation
    let branches ← optional inner.branches
    return (condition, branches))
  match branches with
  | none => return condition
  | some (consequent, alternative) =>
    return .conditional span condition consequent alternative

/-- What follows a condition that does not hold: a block, or a branch taken as a block of its own. -/
def otherwise (inner : Nested) : Rule (List Statement) := do
  keyword .elseBranch
  Rule.orElse inner.block (do let statement ← inner.branch; return [statement])

def branchRule (inner : Nested) : Rule Statement := do
  let ((condition, consequent, alternative), span) ← located (do
    keyword .ifBranch
    let condition ← between .roundOpen inner.expression .roundClose
    let consequent ← inner.block
    let alternative ← optional inner.otherwise
    return (condition, consequent, alternative))
  return .branch span condition consequent alternative

def binding (inner : Nested) : Rule (Span → Statement) := do
  Rule.orElse (keyword .letBinding) (keyword .constBinding)
  let name ← name
  symbol .assign
  let value ← inner.expressionRule
  return fun span => .binding span name value

def result (inner : Nested) : Rule (Span → Statement) := do
  keyword .returnValue
  let value ← optional inner.expressionRule
  return fun span => .result span value

def expressionStatement (inner : Nested) : Rule (Span → Statement) := do
  let value ← inner.expressionRule
  return fun span => .expression span value

/-- Give a statement the span it was read from. -/
def locate (rule : Rule (Span → Statement)) : Rule Statement := do
  let (build, span) ← located rule
  return build span

def statement (inner : Nested) : Rule Statement :=
  Rule.choice [
    locate inner.binding, inner.branchRule, locate inner.result, locate inner.expressionStatement]

def semicolons : Rule (List Unit) := many (symbol .semicolon)

def statementsRule (inner : Nested) : Rule (List Statement) := do
  let _ ← semicolons
  many (do
    let statement ← inner.statement
    let _ ← semicolons
    return statement)

/-- The rules that allow `levels` levels of nesting. -/
def ofLevels : Nat → Nested
  | 0 => ⟨Rule.fail, Rule.fail, Rule.fail⟩
  | levels + 1 =>
    let inner := ofLevels levels
    ⟨inner.expressionRule, inner.statementsRule, inner.branchRule⟩

end Nested

end ScreenStudio.Source
