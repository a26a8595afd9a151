/- digest: Statements and expressions of the screen language. -/

import ScreenStudio.Source.Position

set_option autoImplicit false
set_option relaxedAutoImplicit false

namespace ScreenStudio.Source

inductive Literal
  | number (value : Float)
  | text (value : String)
  | bool (value : Bool)
  | null
  deriving DecidableEq

/-- An operator before its operand. -/
inductive UnaryOperator
  | not
  | negate
  deriving DecidableEq, Repr

/-- An operator between two operands. -/
inductive BinaryOperator
  | or
  | and
  | equal
  | notEqual
  | less
  | lessOrEqual
  | greater
  | greaterOrEqual
  | add
  | subtract
  | multiply
  | divide
  | remainder
  deriving DecidableEq, Repr

def BinaryOperator.level : BinaryOperator → Nat
  | .or => 1
  | .and => 2
  | .equal => 3
  | .notEqual => 3
  | .less => 4
  | .lessOrEqual => 4
  | .greater => 4
  | .greaterOrEqual => 4
  | .add => 5
  | .subtract => 5
  | .multiply => 6
  | .divide => 6
  | .remainder => 6

def BinaryOperator.spelling : BinaryOperator → String
  | .or => "||"
  | .and => "&&"
  | .equal => "==="
  | .notEqual => "!=="
  | .less => "<"
  | .lessOrEqual => "<="
  | .greater => ">"
  | .greaterOrEqual => ">="
  | .add => "+"
  | .subtract => "-"
  | .multiply => "*"
  | .divide => "/"
  | .remainder => "%"

def UnaryOperator.spelling : UnaryOperator → String
  | .not => "!"
  | .negate => "-"

mutual

inductive Expression
  | literal (span : Span) (value : Literal)
  | array (span : Span) (items : List Expression)
  | object (span : Span) (entries : List (String × Expression))
  | name (span : Span) (name : String)
  | member (span : Span) (target : Expression) (property : String)
  | index (span : Span) (target : Expression) (key : Expression)
  | call (span : Span) (callee : Expression) (arguments : List Expression)
  | arrow (span : Span) (parameters : List String) (body : Body)
  | unary (span : Span) (operator : UnaryOperator) (operand : Expression)
  | binary (span : Span) (operator : BinaryOperator) (left : Expression) (right : Expression)
  | conditional (span : Span) (condition : Expression) (consequent : Expression)
      (alternative : Expression)

/-- The body of an arrow function. -/
inductive Body
  | expression (value : Expression)
  | block (statements : List Statement)

inductive Statement
  | binding (span : Span) (name : String) (value : Expression)
  | expression (span : Span) (value : Expression)
  | branch (span : Span) (condition : Expression) (consequent : List Statement)
      (alternative : Option (List Statement))
  | result (span : Span) (value : Option Expression)

end

instance : Inhabited Expression := ⟨.literal default .null⟩

def Expression.span : Expression → Span
  | .literal span _ => span
  | .array span _ => span
  | .object span _ => span
  | .name span _ => span
  | .member span _ _ => span
  | .index span _ _ => span
  | .call span _ _ => span
  | .arrow span _ _ => span
  | .unary span _ _ => span
  | .binary span _ _ _ => span
  | .conditional span _ _ _ => span

def Statement.span : Statement → Span
  | .binding span _ _ => span
  | .expression span _ => span
  | .branch span _ _ _ => span
  | .result span _ => span

end ScreenStudio.Source
