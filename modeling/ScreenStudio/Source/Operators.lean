/- digest: Sequences of operands and operators as trees. -/

import ScreenStudio.Source.Syntax

set_option autoImplicit false
set_option relaxedAutoImplicit false

namespace ScreenStudio.Source

/-- An expression and the bytes that its tokens cover, brackets included. -/
structure Operand where
  expression : Expression
  extent : Span

inductive OperatorTree
  | leaf (operand : Operand)
  | node (left : OperatorTree) (operator : BinaryOperator) (right : OperatorTree)

namespace OperatorTree

/-- The tree after one more operator and operand. -/
def push (operator : BinaryOperator) (operand : Operand) : OperatorTree → OperatorTree
  | .leaf first => .node (.leaf first) operator (.leaf operand)
  | .node left root right =>
    if root.level < operator.level then .node left root (push operator operand right)
    else .node (.node left root right) operator (.leaf operand)

def ofSequence (first : Operand) (others : List (BinaryOperator × Operand)) : OperatorTree :=
  others.foldl (fun tree item => tree.push item.1 item.2) (.leaf first)

/-- The expression that a tree stands for, with its extent. -/
def toOperand : OperatorTree → Operand
  | .leaf operand => operand
  | .node left operator right =>
    let a := left.toOperand
    let b := right.toOperand
    let extent : Span := ⟨a.extent.start, b.extent.stop⟩
    ⟨.binary extent operator a.expression b.expression, extent⟩

end OperatorTree

end ScreenStudio.Source
