/- digest: The blocks of a program, and the places where semicolons may stand in them. -/

import ScreenStudio.Source.Grammar

set_option autoImplicit false
set_option relaxedAutoImplicit false

namespace ScreenStudio.Source

/-- The alternative of a branch that ends at `stop` as a block, if it stands in braces. -/
def ownBlocks (stop : Nat) (alternative : List Statement) : List (List Statement) :=
  if alternative.map (fun statement => statement.span.stop) = [stop] then [] else [alternative]

mutual

/-- The blocks in an expression, in the order in which they open. -/
def Expression.blocks : Expression → List (List Statement)
  | .literal _ _ => []
  | .array _ items => Expression.listBlocks items
  | .object _ entries => Expression.entryBlocks entries
  | .name _ _ => []
  | .member _ target _ => target.blocks
  | .index _ target key => target.blocks ++ key.blocks
  | .call _ callee arguments => callee.blocks ++ Expression.listBlocks arguments
  | .arrow _ _ body => body.blocks
  | .unary _ _ operand => operand.blocks
  | .binary _ _ left right => left.blocks ++ right.blocks
  | .conditional _ condition consequent alternative =>
    condition.blocks ++ (consequent.blocks ++ alternative.blocks)

def Expression.listBlocks : List Expression → List (List Statement)
  | [] => []
  | item :: rest => item.blocks ++ Expression.listBlocks rest

def Expression.entryBlocks : List (String × Expression) → List (List Statement)
  | [] => []
  | (_, item) :: rest => item.blocks ++ Expression.entryBlocks rest

def Body.blocks : Body → List (List Statement)
  | .expression value => value.blocks
  | .block statements => statements :: Statement.listBlocks statements

def Statement.blocks : Statement → List (List Statement)
  | .binding _ _ value => value.blocks
  | .expression _ value => value.blocks
  | .branch _ condition consequent none =>
    condition.blocks ++ (consequent :: Statement.listBlocks consequent)
  | .branch span condition consequent (some alternative) =>
    condition.blocks ++ (consequent :: Statement.listBlocks consequent) ++
      (ownBlocks span.stop alternative ++ Statement.listBlocks alternative)
  | .result _ none => []
  | .result _ (some value) => value.blocks

def Statement.listBlocks : List Statement → List (List Statement)
  | [] => []
  | statement :: rest => statement.blocks ++ Statement.listBlocks rest

end

/-- Before the first statement of a block, and behind each of them. -/
def edges (block : List Statement) : List Nat :=
  (block.head?.map (fun statement => statement.span.start)).toList ++
    block.map (fun statement => statement.span.stop)

/-- The places for semicolons in a program: its start, and the edges in it and in its blocks. -/
def gaps (statements : List Statement) : List Nat :=
  0 :: (statements :: Statement.listBlocks statements).flatMap edges

theorem Expression.listBlocks_eq (items : List Expression) :
    Expression.listBlocks items = items.flatMap Expression.blocks := by
  induction items with
  | nil => rfl
  | cons item rest ih => rw [Expression.listBlocks, ih, List.flatMap_cons]

theorem Expression.entryBlocks_eq (entries : List (String × Expression)) :
    Expression.entryBlocks entries = entries.flatMap (fun entry => entry.2.blocks) := by
  induction entries with
  | nil => rfl
  | cons entry rest ih => rw [Expression.entryBlocks, ih, List.flatMap_cons]

theorem Statement.listBlocks_eq (statements : List Statement) :
    Statement.listBlocks statements = statements.flatMap Statement.blocks := by
  induction statements with
  | nil => rfl
  | cons statement rest ih => rw [Statement.listBlocks, ih, List.flatMap_cons]

namespace Nested

def Suffix.blocks : Suffix → List (List Statement)
  | .call arguments => Expression.listBlocks arguments
  | .member _ => []
  | .index key => key.blocks

theorem blocks_applySuffix (target : Expression) (suffix : Suffix × Span) :
    (applySuffix target suffix).blocks = target.blocks ++ suffix.1.blocks := by
  obtain ⟨suffix, span⟩ := suffix
  cases suffix with
  | member property => exact (List.append_nil _).symm
  | _ => rfl

theorem blocks_applySuffixes (target : Expression) (suffixes : List (Suffix × Span)) :
    (suffixes.foldl applySuffix target).blocks =
      target.blocks ++ suffixes.flatMap (fun suffix => suffix.1.blocks) := by
  induction suffixes generalizing target with
  | nil => exact (List.append_nil _).symm
  | cons suffix rest ih =>
    rw [List.foldl_cons, ih, blocks_applySuffix, List.flatMap_cons, List.append_assoc]

theorem blocks_applyPrefixes (operand : Operand) (operators : List (UnaryOperator × Span)) :
    (operators.foldr applyPrefix operand).expression.blocks = operand.expression.blocks := by
  induction operators with
  | nil => rfl
  | cons operator rest ih =>
    rw [List.foldr_cons, applyPrefix]
    dsimp only
    rw [Expression.blocks, ih]

end Nested

namespace OperatorTree

theorem blocks_push (operator : BinaryOperator) (operand : Operand) (tree : OperatorTree) :
    (tree.push operator operand).toOperand.expression.blocks =
      tree.toOperand.expression.blocks ++ operand.expression.blocks := by
  have node : ∀ (left right : OperatorTree) (root : BinaryOperator),
      (OperatorTree.node left root right).toOperand.expression.blocks =
        left.toOperand.expression.blocks ++ right.toOperand.expression.blocks := by
    intro left right root
    rw [toOperand]
    dsimp only
    rw [Expression.blocks]
  induction tree with
  | leaf first => exact node _ _ _
  | node left root right _ ih =>
    unfold push
    split
    · rw [node, ih, node, List.append_assoc]
    · exact node _ _ _

theorem blocks_ofSequence (first : Operand) (others : List (BinaryOperator × Operand)) :
    (ofSequence first others).toOperand.expression.blocks =
      first.expression.blocks ++ others.flatMap (fun link => link.2.expression.blocks) := by
  have onto : ∀ tree : OperatorTree,
      (others.foldl (fun tree item => tree.push item.1 item.2) tree).toOperand.expression.blocks =
        tree.toOperand.expression.blocks ++ others.flatMap (fun link => link.2.expression.blocks) := by
    induction others with
    | nil => exact fun tree => (List.append_nil _).symm
    | cons link rest ih =>
      intro tree
      rw [List.foldl_cons, ih, blocks_push, List.flatMap_cons, List.append_assoc]
  exact onto (.leaf first)

end OperatorTree

end ScreenStudio.Source
