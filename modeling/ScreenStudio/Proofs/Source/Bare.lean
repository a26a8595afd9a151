/- digest: Statements and expressions without their places, and how trees of operators are built from them. -/

import ScreenStudio.Source.Grammar

set_option autoImplicit false
set_option relaxedAutoImplicit false

namespace ScreenStudio.Source

/-- The place that stands for all places. -/
def nowhere : Span := ⟨0, 0⟩

mutual

/-- The expression with all places forgotten. -/
def Expression.bare : Expression → Expression
  | .literal _ value => .literal nowhere value
  | .array _ items => .array nowhere (Expression.bareList items)
  | .object _ entries => .object nowhere (Expression.bareEntries entries)
  | .name _ name => .name nowhere name
  | .member _ target property => .member nowhere target.bare property
  | .index _ target key => .index nowhere target.bare key.bare
  | .call _ callee arguments => .call nowhere callee.bare (Expression.bareList arguments)
  | .arrow _ parameters body => .arrow nowhere parameters body.bare
  | .unary _ operator operand => .unary nowhere operator operand.bare
  | .binary _ operator left right => .binary nowhere operator left.bare right.bare
  | .conditional _ condition consequent alternative =>
    .conditional nowhere condition.bare consequent.bare alternative.bare

def Expression.bareList : List Expression → List Expression
  | [] => []
  | item :: rest => item.bare :: Expression.bareList rest

def Expression.bareEntries : List (String × Expression) → List (String × Expression)
  | [] => []
  | (key, item) :: rest => (key, item.bare) :: Expression.bareEntries rest

def Body.bare : Body → Body
  | .expression value => .expression value.bare
  | .block statements => .block (Statement.bareList statements)

def Statement.bare : Statement → Statement
  | .binding _ name value => .binding nowhere name value.bare
  | .expression _ value => .expression nowhere value.bare
  | .branch _ condition consequent none =>
    .branch nowhere condition.bare (Statement.bareList consequent) none
  | .branch _ condition consequent (some alternative) =>
    .branch nowhere condition.bare (Statement.bareList consequent)
      (some (Statement.bareList alternative))
  | .result _ none => .result nowhere none
  | .result _ (some value) => .result nowhere (some value.bare)

/-- The statements with all places forgotten. -/
def Statement.bareList : List Statement → List Statement
  | [] => []
  | statement :: rest => statement.bare :: Statement.bareList rest

end

theorem Expression.bareList_eq_map (items : List Expression) :
    Expression.bareList items = items.map Expression.bare := by
  induction items with
  | nil => rfl
  | cons item rest ih => rw [Expression.bareList, ih, List.map_cons]

theorem Expression.bareEntries_eq_map (entries : List (String × Expression)) :
    Expression.bareEntries entries = entries.map (fun entry => (entry.1, entry.2.bare)) := by
  induction entries with
  | nil => rfl
  | cons entry rest ih => rw [Expression.bareEntries, ih, List.map_cons]

theorem Statement.bareList_eq_map (statements : List Statement) :
    Statement.bareList statements = statements.map Statement.bare := by
  induction statements with
  | nil => rfl
  | cons statement rest ih => rw [Statement.bareList, ih, List.map_cons]

theorem Statement.bare_branch (span : Span) (condition : Expression) (consequent : List Statement)
    (alternative : Option (List Statement)) :
    (Statement.branch span condition consequent alternative).bare =
      .branch nowhere condition.bare (Statement.bareList consequent)
        (alternative.map Statement.bareList) := by
  cases alternative <;> rw [Statement.bare] <;> rfl

/-- Operands that are the same up to places. -/
def Operand.Same (one two : Operand) : Prop := one.expression.bare = two.expression.bare

namespace OperatorTree

/-- Trees that have the same shape and operators, with operands that are the same up to places. -/
inductive Same : OperatorTree → OperatorTree → Prop
  | leaf {one two : Operand} (same : one.Same two) : Same (.leaf one) (.leaf two)
  | node {left left' right right' : OperatorTree} (operator : BinaryOperator) (first : Same left left')
    (second : Same right right') : Same (.node left operator right) (.node left' operator right')

theorem Same.push {one two : OperatorTree} (same : Same one two) (operator : BinaryOperator)
    {operand other : Operand} (also : operand.Same other) :
    Same (one.push operator operand) (two.push operator other) := by
  induction same with
  | leaf same => exact .node _ (.leaf same) (.leaf also)
  | node root first second _ ih =>
    unfold OperatorTree.push
    split
    · exact .node _ first ih
    · exact .node _ (.node _ first second) (.leaf also)

theorem Same.toOperand {one two : OperatorTree} (same : Same one two) :
    one.toOperand.Same two.toOperand := by
  induction same with
  | leaf same => exact same
  | node root first second left right =>
    have both : ∀ (span other : Span) (a b a' b' : Expression), a.bare = a'.bare → b.bare = b'.bare →
        (Expression.binary span root a b).bare = (Expression.binary other root a' b').bare := by
      intro span other a b a' b' first second
      rw [Expression.bare, Expression.bare, first, second]
    exact both _ _ _ _ _ _ left right

/-- An operator with its operand, the operand without its places. -/
def bareLink (link : BinaryOperator × Operand) : BinaryOperator × Expression :=
  (link.1, link.2.expression.bare)

theorem same_ofSequence {first first' : Operand} (same : first.Same first')
    {others others' : List (BinaryOperator × Operand)}
    (also : others.map bareLink = others'.map bareLink) :
    Same (ofSequence first others) (ofSequence first' others') := by
  have onto : ∀ {tree tree' : OperatorTree}, Same tree tree' →
      Same (others.foldl (fun tree item => tree.push item.1 item.2) tree)
        (others'.foldl (fun tree item => tree.push item.1 item.2) tree') := by
    induction others generalizing others' with
    | nil =>
      cases List.map_eq_nil_iff.mp also.symm
      exact id
    | cons link rest ih =>
      cases others' with
      | nil => cases also
      | cons link' rest' =>
        obtain ⟨head, tail⟩ := List.cons.inj also
        obtain ⟨operator, operand⟩ := link
        obtain ⟨operator', operand'⟩ := link'
        obtain ⟨rfl, both⟩ := Prod.mk.inj head
        exact fun tree => ih tail (tree.push operator both)
  exact onto (.leaf same)

end OperatorTree

namespace Nested

/-- The suffix with all places forgotten. -/
def Suffix.bare : Suffix → Suffix
  | .call arguments => .call (Expression.bareList arguments)
  | .member property => .member property
  | .index key => .index key.bare

theorem bare_applySuffix {target target' : Expression} (same : target.bare = target'.bare)
    {suffix suffix' : Suffix × Span} (also : suffix.1.bare = suffix'.1.bare) :
    (applySuffix target suffix).bare = (applySuffix target' suffix').bare := by
  obtain ⟨suffix, span⟩ := suffix
  obtain ⟨suffix', span'⟩ := suffix'
  cases suffix <;> cases suffix' <;>
    simp_all [applySuffix, Expression.bare, Suffix.bare]

theorem bare_applySuffixes {target target' : Expression} (same : target.bare = target'.bare)
    {suffixes suffixes' : List (Suffix × Span)}
    (also : suffixes.map (fun suffix => suffix.1.bare) = suffixes'.map (fun suffix => suffix.1.bare)) :
    (suffixes.foldl applySuffix target).bare = (suffixes'.foldl applySuffix target').bare := by
  induction suffixes generalizing target target' suffixes' with
  | nil =>
    cases List.map_eq_nil_iff.mp also.symm
    exact same
  | cons suffix rest ih =>
    cases suffixes' with
    | nil => cases also
    | cons suffix' rest' =>
      obtain ⟨head, tail⟩ := List.cons.inj also
      exact ih (bare_applySuffix same head) tail

theorem same_applyPrefixes {operand operand' : Operand} (same : operand.Same operand')
    {operators operators' : List (UnaryOperator × Span)}
    (also : operators.map Prod.fst = operators'.map Prod.fst) :
    (operators.foldr applyPrefix operand).Same (operators'.foldr applyPrefix operand') := by
  induction operators generalizing operators' with
  | nil =>
    cases List.map_eq_nil_iff.mp also.symm
    exact same
  | cons operator rest ih =>
    cases operators' with
    | nil => cases also
    | cons other rest' =>
      obtain ⟨head, tail⟩ := List.cons.inj also
      have inner := ih tail
      unfold Operand.Same at inner ⊢
      rw [List.foldr_cons, List.foldr_cons, applyPrefix, applyPrefix]
      dsimp only
      rw [Expression.bare, Expression.bare, inner, head]

end Nested

end ScreenStudio.Source
