/- digest: A row of operands is read as the one tree in which operators of higher levels bind tighter. -/

import ScreenStudio.Proofs.Source.Accepted

/-!
Read from left to right, a tree gives back its operands and operators. Of all trees that give the same row
there is one in which no operator binds tighter than those below it and operators of one level group to the
left. Pushing one more operator and operand into such a tree makes such a tree, and a tree of this kind is
what is pushed together from its row. So the tree that a row of operands is read as needs no mention of how
it is found.

A row in front of a question mark is a condition. What follows the colon may be another row with a question
mark behind it, and so conditionals nest to the right.
-/

set_option autoImplicit false
set_option relaxedAutoImplicit false

namespace ScreenStudio.Source

namespace OperatorTree

/-- The first operand of a tree, and the operators behind it with their operands, from left to right. -/
def inOrder : OperatorTree → Operand × List (BinaryOperator × Operand)
  | .leaf operand => (operand, [])
  | .node left operator right =>
    (left.inOrder.1, left.inOrder.2 ++ (operator, right.inOrder.1) :: right.inOrder.2)

/-- The operator at the top of a tree of more than one operand. -/
def root? : OperatorTree → Option BinaryOperator
  | .leaf _ => none
  | .node _ operator _ => some operator

/-- At every node the left branch has an operator of the same or a higher level at its top, if it has one,
and the right branch one of a higher level. -/
def Grouped : OperatorTree → Prop
  | .leaf _ => True
  | .node left operator right =>
    (∀ inner ∈ left.root?, operator.level ≤ inner.level) ∧
      (∀ inner ∈ right.root?, operator.level < inner.level) ∧ left.Grouped ∧ right.Grouped

/-- The expression that a tree stands for, without places. -/
def expression : OperatorTree → Expression
  | .leaf operand => operand.expression
  | .node left operator right => .binary nowhere operator left.expression right.expression

theorem bare_toOperand (tree : OperatorTree) : tree.toOperand.expression.bare = tree.expression.bare := by
  induction tree with
  | leaf operand => rfl
  | node left operator right ihLeft ihRight =>
    rw [toOperand, expression]
    dsimp only
    rw [Expression.bare, Expression.bare, ihLeft, ihRight]

section Pushing

variable {tree left right : OperatorTree} {root operator : BinaryOperator} {operand : Operand}

theorem push_node_of_lt (lower : root.level < operator.level) :
    (node left root right).push operator operand = node left root (right.push operator operand) :=
  if_pos lower

theorem push_node_of_le (higher : operator.level ≤ root.level) :
    (node left root right).push operator operand = node (node left root right) operator (leaf operand) :=
  if_neg (Nat.not_lt.mpr higher)

theorem inOrder_push (tree : OperatorTree) (operator : BinaryOperator) (operand : Operand) :
    (tree.push operator operand).inOrder = (tree.inOrder.1, tree.inOrder.2 ++ [(operator, operand)]) := by
  induction tree with
  | leaf first => rfl
  | node left root right _ ih =>
    by_cases lower : root.level < operator.level
    · rw [push_node_of_lt lower, inOrder, ih, inOrder]
      simp
    · rw [push_node_of_le (Nat.not_lt.mp lower), inOrder]
      rfl

theorem root?_push (tree : OperatorTree) (operator : BinaryOperator) (operand : Operand) :
    (tree.push operator operand).root? = some operator ∨
      (tree.push operator operand).root? = tree.root? := by
  cases tree with
  | leaf first => exact .inl rfl
  | node left root right =>
    by_cases lower : root.level < operator.level
    · rw [push_node_of_lt lower]
      exact .inr rfl
    · rw [push_node_of_le (Nat.not_lt.mp lower)]
      exact .inl rfl

theorem Grouped.push (grouped : tree.Grouped) (operator : BinaryOperator) (operand : Operand) :
    (tree.push operator operand).Grouped := by
  induction tree with
  | leaf first =>
    exact ⟨fun _ none => (by cases none), fun _ none => (by cases none), trivial, trivial⟩
  | node left root right _ ih =>
    obtain ⟨leftLevel, rightLevel, leftGrouped, rightGrouped⟩ := grouped
    by_cases lower : root.level < operator.level
    · rw [push_node_of_lt lower]
      refine ⟨leftLevel, ?_, leftGrouped, ih rightGrouped⟩
      intro inner top
      rcases root?_push right operator operand with new | old
      · rw [new] at top
        exact Option.some.inj top ▸ lower
      · exact rightLevel inner (old ▸ top)
    · have higher := Nat.not_lt.mp lower
      rw [push_node_of_le higher]
      refine ⟨?_, fun _ none => (by cases none), ⟨leftLevel, rightLevel, leftGrouped, rightGrouped⟩,
        trivial⟩
      intro inner top
      exact Option.some.inj top ▸ higher

theorem foldl_push_node {others : List (BinaryOperator × Operand)}
    (tighter : ∀ other ∈ others, root.level < other.1.level) (right : OperatorTree) :
    others.foldl (fun tree item => tree.push item.1 item.2) (node left root right) =
      node left root (others.foldl (fun tree item => tree.push item.1 item.2) right) := by
  induction others generalizing right with
  | nil => rfl
  | cons item rest ih =>
    obtain ⟨lower, behind⟩ := List.forall_mem_cons.mp tighter
    rw [List.foldl_cons, push_node_of_lt lower, ih behind, List.foldl_cons]

end Pushing

section Rows

variable {tree : OperatorTree}

theorem inOrder_ofSequence (first : Operand) (others : List (BinaryOperator × Operand)) :
    (ofSequence first others).inOrder = (first, others) := by
  have onto : ∀ (others : List (BinaryOperator × Operand)) (tree : OperatorTree),
      (others.foldl (fun tree item => tree.push item.1 item.2) tree).inOrder =
        (tree.inOrder.1, tree.inOrder.2 ++ others) := by
    intro others
    induction others with
    | nil => intro tree; simp
    | cons item rest ih =>
      intro tree
      rw [List.foldl_cons, ih, inOrder_push]
      simp
  exact onto others (.leaf first)

theorem grouped_ofSequence (first : Operand) (others : List (BinaryOperator × Operand)) :
    (ofSequence first others).Grouped := by
  have onto : ∀ (others : List (BinaryOperator × Operand)) (tree : OperatorTree), tree.Grouped →
      (others.foldl (fun tree item => tree.push item.1 item.2) tree).Grouped := by
    intro others
    induction others with
    | nil => exact fun _ grouped => grouped
    | cons item rest ih => exact fun tree grouped => ih _ (grouped.push item.1 item.2)
  exact onto others (.leaf first) trivial

/-- In a tree whose operators are grouped none of them binds less tightly than the one at the top. -/
theorem Grouped.level_le (grouped : tree.Grouped) {bound : Nat}
    (top : ∀ root ∈ tree.root?, bound ≤ root.level) :
    ∀ item ∈ tree.inOrder.2, bound ≤ item.1.level := by
  induction tree with
  | leaf operand => exact List.forall_mem_nil _
  | node left root right ihLeft ihRight =>
    obtain ⟨leftLevel, rightLevel, leftGrouped, rightGrouped⟩ := grouped
    have own : bound ≤ root.level := top root rfl
    have before := ihLeft leftGrouped fun inner is => Nat.le_trans own (leftLevel inner is)
    have behind := ihRight rightGrouped fun inner is =>
      Nat.le_trans own (Nat.le_of_lt (rightLevel inner is))
    intro item member
    rcases List.mem_append.mp member with inside | inside
    · exact before item inside
    · rcases List.mem_cons.mp inside with rfl | later
      · exact own
      · exact behind item later

theorem Grouped.ofSequence_inOrder (grouped : tree.Grouped) :
    ofSequence tree.inOrder.1 tree.inOrder.2 = tree := by
  induction tree with
  | leaf operand => rfl
  | node left root right ihLeft ihRight =>
    obtain ⟨leftLevel, rightLevel, leftGrouped, rightGrouped⟩ := grouped
    have above : left.push root right.inOrder.1 = node left root (leaf right.inOrder.1) := by
      cases left with
      | leaf first => rfl
      | node inner top other => exact push_node_of_le (leftLevel top rfl)
    have tighter : ∀ item ∈ right.inOrder.2, root.level < item.1.level :=
      rightGrouped.level_le fun inner is => rightLevel inner is
    have inside := ihRight rightGrouped
    rw [ofSequence] at inside
    calc ofSequence left.inOrder.1 (left.inOrder.2 ++ (root, right.inOrder.1) :: right.inOrder.2)
        = right.inOrder.2.foldl (fun tree item => tree.push item.1 item.2)
            ((ofSequence left.inOrder.1 left.inOrder.2).push root right.inOrder.1) := by
          rw [ofSequence, List.foldl_append, List.foldl_cons]
          rfl
      _ = right.inOrder.2.foldl (fun tree item => tree.push item.1 item.2)
            (node left root (leaf right.inOrder.1)) := by rw [ihLeft leftGrouped, above]
      _ = node left root right := by rw [foldl_push_node tighter, inside]

theorem existsUnique_grouped (row : Operand × List (BinaryOperator × Operand)) :
    ∃! tree : OperatorTree, tree.inOrder = row ∧ tree.Grouped := by
  refine ⟨ofSequence row.1 row.2, ⟨inOrder_ofSequence _ _, grouped_ofSequence _ _⟩, ?_⟩
  rintro tree ⟨rfl, grouped⟩
  exact grouped.ofSequence_inOrder.symm

end Rows

end OperatorTree

/-- The symbols that can stand between two operands, level by level from the one that binds least. -/
def infixLevels : List (List Symbol) :=
  [[.or], [.and], [.looseEqual, .looseNotEqual, .strictEqual, .strictNotEqual],
    [.less, .lessOrEqual, .greater, .greaterOrEqual], [.plus, .minus], [.asterisk, .slash, .percent]]

/-- The level of a symbol, counted from one. -/
def Symbol.infixLevel? (mark : Symbol) : Option Nat :=
  (infixLevels.findIdx? (·.contains mark)).map (· + 1)

/-- An operand: a chain of calls, members and indices behind an atom, under some prefix operators. The
lead tells how the tokens of the chain start. -/
structure SignedChain where
  signs : List Sign
  lead : Lead
  chain : Expression
  inner : List Lexeme

namespace SignedChain

/-- The prefix operators around the chain, the first of them outermost. -/
def operand (signed : SignedChain) : Operand :=
  ⟨signed.signs.foldr (fun sign value => .unary nowhere sign.operator.1 value) signed.chain, nowhere⟩

def lexemes (signed : SignedChain) : List Lexeme := signed.signs.map Sign.lexeme ++ signed.inner

/-- The lexemes are those of the prefix operators and of the chain. The chain does not end with the body of
an arrow function that is an expression, since that would take all that follows. -/
structure Fits (signed : SignedChain) : Prop where
  signs : ∀ sign ∈ signed.signs,
    Nested.prefixOperator.accepts? sign.lexeme.token = some sign.operator.1
  chain : Derives False (.chain signed.lead .firm signed.chain) signed.inner

end SignedChain

/-- An operator between two operands, with the operand behind it. -/
structure Joint where
  sign : Lexeme
  operator : BinaryOperator
  operand : SignedChain

/-- Operands with operators between them. -/
structure Row where
  first : SignedChain
  others : List Joint

namespace Row

def operands (row : Row) : Operand × List (BinaryOperator × Operand) :=
  (row.first.operand, row.others.map (fun joint => (joint.operator, joint.operand.operand)))

def lexemes (row : Row) : List Lexeme :=
  row.first.lexemes ++ row.others.flatMap (fun joint => joint.sign :: joint.operand.lexemes)

structure Fits (row : Row) : Prop where
  first : row.first.Fits
  operators : ∀ joint ∈ row.others,
    Nested.infixOperator.accepts? joint.sign.token = some joint.operator
  operands : ∀ joint ∈ row.others, joint.operand.Fits

/-- The tree has the operands and operators of the row from left to right and groups them by level. -/
structure IsTree (row : Row) (tree : OperatorTree) : Prop where
  inOrder : tree.inOrder = row.operands
  grouped : tree.Grouped

end Row

/-- A condition with a question mark, what follows if it holds, and a colon. -/
structure Rung where
  condition : Row
  question : Lexeme
  lead : Lead
  consequent : Expression
  inner : List Lexeme
  colon : Lexeme

namespace Rung

def lexemes (rung : Rung) : List Lexeme :=
  rung.condition.lexemes ++ rung.question :: (rung.inner ++ [rung.colon])

structure Fits (rung : Rung) : Prop where
  condition : rung.condition.Fits
  question : rung.question.token = .symbol .question
  consequent : Derives False (.expression rung.lead rung.consequent) rung.inner
  colon : rung.colon.token = .symbol .colon

end Rung

/-- Conditionals one in the alternative of the other, with a last alternative. -/
def ladder (tree : Row → OperatorTree) (rungs : List Rung) (last : Expression) : Expression :=
  rungs.foldr
    (fun rung rest => .conditional nowhere (tree rung.condition).expression rung.consequent rest) last

section Derivations

variable {row : Row} {tree : OperatorTree}

/-- The prefix operators with their places, around the chain. -/
private def SignedChain.placed (signed : SignedChain) : Operand :=
  (signed.signs.map Sign.operator).foldr Nested.applyPrefix ⟨signed.chain, nowhere⟩

private theorem SignedChain.placed_same (signed : SignedChain) : signed.placed.Same signed.operand := by
  obtain ⟨signs, lead, chain, inner⟩ := signed
  induction signs with
  | nil => rfl
  | cons sign rest ih =>
    have inside : ((rest.map Sign.operator).foldr Nested.applyPrefix ⟨chain, nowhere⟩).expression.bare =
        (rest.foldr (fun sign value => .unary nowhere sign.operator.1 value) chain).bare := ih
    show (Expression.unary _ sign.operator.1
      ((rest.map Sign.operator).foldr Nested.applyPrefix ⟨chain, nowhere⟩).expression).bare =
      (Expression.unary nowhere sign.operator.1
        (rest.foldr (fun sign value => .unary nowhere sign.operator.1 value) chain)).bare
    rw [Expression.bare, Expression.bare, inside]

private def Joint.link (joint : Joint) : Link :=
  ⟨joint.sign, joint.operator,
    ⟨leadOfSigns joint.operand.lead joint.operand.signs, joint.operand.placed, joint.operand.lexemes⟩, .firm⟩

private theorem firm_links (joints : List Joint) :
    FirmBefore .firm (joints.map Joint.link) ∧ tailOfLinks .firm (joints.map Joint.link) = .firm := by
  induction joints with
  | nil => exact ⟨trivial, rfl⟩
  | cons joint rest ih => exact ⟨⟨rfl, ih.1⟩, ih.2⟩

theorem derives_row (fits : row.Fits) (is : row.IsTree tree) :
    ∃ lead value, Derives False (.operation lead .firm value) row.lexemes ∧
      value.bare = tree.expression.bare := by
  have firm := firm_links row.others
  have derived : Derives False (.operation _ (tailOfLinks .firm (row.others.map Joint.link)) _)
      (row.first.lexemes ++ (row.others.map Joint.link).flatMap
        (fun link => link.sign :: link.item.lexemes)) :=
    .operation (row.others.map Joint.link) (List.forall_mem_map.mpr fits.operators)
      (.operand nowhere row.first.signs fits.first.signs fits.first.chain) firm.1
      (List.forall_mem_map.mpr fun joint member =>
        .operand nowhere joint.operand.signs (fits.operands joint member).signs
          (fits.operands joint member).chain)
  rw [List.flatMap_map, firm.2] at derived
  refine ⟨_, _, derived, ?_⟩
  have alike : ((row.others.map Joint.link).map (fun link => (link.operator, link.item.value))).map
      OperatorTree.bareLink = row.operands.2.map OperatorTree.bareLink := by
    rw [List.map_map, List.map_map, Row.operands, List.map_map]
    exact List.map_congr_left fun joint _ => Prod.ext rfl joint.operand.placed_same
  have same := (OperatorTree.same_ofSequence row.first.placed_same alike).toOperand
  have pushed : OperatorTree.ofSequence row.first.operand row.operands.2 = tree := by
    have own := is.grouped.ofSequence_inOrder
    rw [is.inOrder] at own
    exact own
  rw [pushed] at same
  exact same.trans tree.bare_toOperand

theorem derives_ladder {trees : Row → OperatorTree} (are : ∀ row, Row.IsTree row (trees row))
    {rungs : List Rung} (fits : ∀ rung ∈ rungs, rung.Fits) {lead : Lead} {last : Expression}
    {inner : List Lexeme} (behind : Derives False (.expression lead last) inner) :
    ∃ lead value, Derives False (.expression lead value) (rungs.flatMap Rung.lexemes ++ inner) ∧
      value.bare = (ladder trees rungs last).bare := by
  induction rungs with
  | nil => exact ⟨lead, last, behind, rfl⟩
  | cons rung rest ih =>
    obtain ⟨own, others⟩ := List.forall_mem_cons.mp fits
    obtain ⟨_, alternative, no, sameNo⟩ := ih others
    obtain ⟨first, condition, head, sameHead⟩ := derives_row own.condition (are rung.condition)
    have derived := Derives.conditional nowhere rung.question rung.colon own.question own.colon head
      own.consequent no
    have shape : (rung :: rest).flatMap Rung.lexemes ++ inner =
        rung.condition.lexemes ++ rung.question ::
          (rung.inner ++ rung.colon :: (rest.flatMap Rung.lexemes ++ inner)) := by
      rw [List.flatMap_cons, Rung.lexemes]
      simp only [List.append_assoc, List.cons_append, List.nil_append]
    rw [shape]
    refine ⟨first, _, derived, ?_⟩
    rw [ladder, List.foldr_cons, Expression.bare, Expression.bare, sameHead, sameNo]
    rfl

end Derivations

/-- Operators group by their levels. There is exactly one tree that has the operands and operators of a row
from left to right, each operand with its own prefix operators, and in which the left branch of a node has
an operator of the same or a higher level at its top, if any, and the right branch one of a higher level. A
text whose tokens make up a row of any length is accepted and read as this tree. If question marks follow,
each with an expression, a colon and the next condition or a last expression, then each whole row is a
condition, and the conditionals nest to the right. The levels are those of the table, and no other symbol
stands between operands. -/
theorem operators_group_by_level {source : String} {all : List Lexeme} (cut : lexemes source = .ok all) :
    (∀ mark : Symbol, (Nested.infixOperator.accepts? (.symbol mark)).map BinaryOperator.level =
      mark.infixLevel?) ∧
    (∀ row : Row, ∃! tree, row.IsTree tree) ∧
    (∀ (row : Row) (tree : OperatorTree), row.Fits → row.IsTree tree →
      withoutComments all = row.lexemes →
      ∃ read, expression source = .ok read ∧ read.bare = tree.expression.bare) ∧
    (∀ (trees : Row → OperatorTree) (rungs : List Rung) (lead : Lead) (last : Expression)
        (inner : List Lexeme), (∀ row : Row, row.IsTree (trees row)) → (∀ rung ∈ rungs, rung.Fits) →
      Derives False (.expression lead last) inner →
      withoutComments all = rungs.flatMap Rung.lexemes ++ inner →
      ∃ read, expression source = .ok read ∧ read.bare = (ladder trees rungs last).bare) := by
  refine ⟨?_, ?_, ?_, ?_⟩
  · intro mark
    cases mark <;> rfl
  · intro row
    obtain ⟨tree, ⟨inOrder, grouped⟩, unique⟩ := OperatorTree.existsUnique_grouped row.operands
    exact ⟨tree, ⟨inOrder, grouped⟩, fun other is => unique other ⟨is.inOrder, is.grouped⟩⟩
  · intro row tree fits is tokens
    obtain ⟨lead, value, derived, same⟩ := derives_row fits is
    have whole := Derives.plain derived
    rw [← tokens] at whole
    obtain ⟨read, accepted, equal⟩ := expression_of_derives cut whole
    exact ⟨read, accepted, equal.trans same⟩
  · intro trees rungs lead last inner are fits behind tokens
    obtain ⟨_, value, derived, same⟩ := derives_ladder are fits behind
    rw [← tokens] at derived
    obtain ⟨read, accepted, equal⟩ := expression_of_derives cut derived
    exact ⟨read, accepted, equal.trans same⟩

/-- Prefix operators before a name. -/
private def signedName (signs : List Sign) (word : String) (span : Span) : SignedChain :=
  ⟨signs, .free, .name nowhere word, [⟨.name word, span⟩]⟩

private theorem signedName_fits {signs : List Sign} (word : String) (span : Span)
    (are : ∀ sign ∈ signs,
      Nested.prefixOperator.accepts? sign.lexeme.token = some sign.operator.1) :
    (signedName signs word span).Fits :=
  ⟨are, .chain [] (.name _ nowhere word rfl fun exact => exact.elim) (fun _ => rfl)
    (List.forall_mem_nil _)⟩

/-- In front of the question mark the product is the second operand of the sum, and each prefix operator
stays with its own operand. -/
theorem operators_group_before_question :
    ∃ read, expression "-a + b * !c ? d : e" = .ok read ∧
      read.bare = .conditional nowhere
        (.binary nowhere .add (.unary nowhere .negate (.name nowhere "a"))
          (.binary nowhere .multiply (.name nowhere "b") (.unary nowhere .not (.name nowhere "c"))))
        (.name nowhere "d") (.name nowhere "e") := by
  let minus : Sign := ⟨(.negate, nowhere), ⟨.symbol .minus, ⟨0, 1⟩⟩⟩
  let negation : Sign := ⟨(.not, nowhere), ⟨.symbol .not, ⟨9, 10⟩⟩⟩
  let row : Row :=
    ⟨signedName [minus] "a" ⟨1, 2⟩,
      [⟨⟨.symbol .plus, ⟨3, 4⟩⟩, .add, signedName [] "b" ⟨5, 6⟩⟩,
        ⟨⟨.symbol .asterisk, ⟨7, 8⟩⟩, .multiply, signedName [negation] "c" ⟨10, 11⟩⟩]⟩
  let rung : Rung :=
    ⟨row, ⟨.symbol .question, ⟨12, 13⟩⟩, .free, .name nowhere "d", [⟨.name "d", ⟨14, 15⟩⟩],
      ⟨.symbol .colon, ⟨16, 17⟩⟩⟩
  have named : ∀ (word : String) (span : Span),
      Derives False (.expression .free (.name nowhere word)) [⟨.name word, span⟩] := fun word span =>
    (signedName_fits word span (List.forall_mem_nil _)).chain.alone
  have rowFits : row.Fits := by
    refine ⟨signedName_fits _ _ (List.forall_mem_singleton.mpr rfl), ?_, ?_⟩
    · exact List.forall_mem_cons.mpr ⟨rfl, List.forall_mem_singleton.mpr rfl⟩
    · exact List.forall_mem_cons.mpr ⟨signedName_fits _ _ (List.forall_mem_nil _),
        List.forall_mem_singleton.mpr (signedName_fits _ _ (List.forall_mem_singleton.mpr rfl))⟩
  have cut : lexemes "-a + b * !c ? d : e" = .ok (rung.lexemes ++ [⟨.name "e", ⟨18, 19⟩⟩]) := rfl
  obtain ⟨_, _, _, conditionals⟩ := operators_group_by_level cut
  obtain ⟨read, accepted, same⟩ :=
    conditionals (fun row => OperatorTree.ofSequence row.operands.1 row.operands.2) [rung] .free
      (.name nowhere "e") [⟨.name "e", ⟨18, 19⟩⟩]
      (fun row => ⟨OperatorTree.inOrder_ofSequence _ _, OperatorTree.grouped_ofSequence _ _⟩)
      (List.forall_mem_singleton.mpr ⟨rowFits, rfl, named _ _, rfl⟩) (named _ _) rfl
  exact ⟨read, accepted, same⟩

end ScreenStudio.Source
