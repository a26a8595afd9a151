/- digest: Which tokens can start an expression or a statement, and where one that was read must end. -/

import ScreenStudio.Proofs.Source.Derivation

/-!
A look at the first token ahead tells most of what the rules miss. An expression ends where no suffix, no
operator and no branches follow. Which of them could follow depends on the tokens ahead alone; only for an
opening square bracket more than the first of them matters, since a row of several items is no index.
-/

set_option autoImplicit false
set_option relaxedAutoImplicit false

namespace ScreenStudio.Source

open Rule (Reads Misses Takes)

/-- The token can be the first of an atom. -/
def Token.beginsAtom : Token → Bool
  | .number _ => true
  | .text _ => true
  | .name _ => true
  | .keyword .trueValue => true
  | .keyword .falseValue => true
  | .keyword .nullValue => true
  | .symbol .roundOpen => true
  | .symbol .squareOpen => true
  | .symbol .curlyOpen => true
  | _ => false

/-- The token can be the first of an expression. -/
def Token.begins (token : Token) : Bool :=
  token.beginsAtom || token == .symbol .not || token == .symbol .minus

/-- The token can be the first of a statement that starts with a keyword. -/
def Token.commands : Token → Bool
  | .keyword .letBinding => true
  | .keyword .constBinding => true
  | .keyword .ifBranch => true
  | .keyword .returnValue => true
  | _ => false

/-- An expression can go on with the token. -/
def Token.continues : Token → Bool
  | .symbol mark =>
    Nested.infixSymbols.contains mark ||
      [Symbol.roundOpen, .dot, .squareOpen, .question, .arrow].contains mark
  | _ => false

/-- What holds of the first token ahead, if there is one. -/
def FirstToken (holds : Token → Prop) (ahead : List Token) : Prop :=
  ∀ found, ahead.head? = some found → holds found

theorem firstToken_cons {holds : Token → Prop} {found : Token} {ahead : List Token} :
    FirstToken holds (found :: ahead) ↔ holds found :=
  ⟨fun first => first found rfl, fun held _ is => Option.some.inj is ▸ held⟩

theorem FirstToken.head_ne {holds : Token → Prop} {ahead : List Token} (first : FirstToken holds ahead)
    {found : Token} (not : ¬ holds found) : ahead.head? ≠ some found :=
  fun is => not (first found is)

theorem FirstToken.weaken {holds also : Token → Prop} {ahead : List Token}
    (first : FirstToken holds ahead) (weaker : ∀ found, holds found → also found) :
    FirstToken also ahead := fun found is => weaker found (first found is)

section Tokens

theorem isToken_literal : Rule.IsToken Nested.literal := ⟨_, _, rfl⟩

theorem isToken_key : Rule.IsToken Nested.key := ⟨_, _, rfl⟩

theorem isToken_prefixOperator : Rule.IsToken Nested.prefixOperator := ⟨_, _, rfl⟩

theorem isToken_infixOperator : Rule.IsToken Nested.infixOperator := ⟨_, _, rfl⟩

theorem begins_of_literal {found : Token} {value : Literal}
    (is : Nested.literal.accepts? found = some value) :
    found.beginsAtom = true ∧ (∀ word, found ≠ .name word) ∧ ∀ mark, found ≠ .symbol mark := by
  cases found with
  | number value => exact ⟨rfl, fun _ is => (by cases is), fun _ is => (by cases is)⟩
  | text raw => exact ⟨rfl, fun _ is => (by cases is), fun _ is => (by cases is)⟩
  | keyword word =>
    refine ⟨?_, fun _ is => (by cases is), fun _ is => (by cases is)⟩
    cases word <;> first | rfl | cases is
  | comment content => cases is
  | name word => cases is
  | symbol mark => cases is

theorem literal_of_name (word : String) : Nested.literal.accepts? (.name word) = none := rfl

theorem prefix_cases {found : Token} {operator : UnaryOperator}
    (is : Nested.prefixOperator.accepts? found = some operator) :
    (found = .symbol .not ∧ operator = .not) ∨ (found = .symbol .minus ∧ operator = .negate) := by
  cases found with
  | symbol mark =>
    cases mark with
    | not => exact .inl ⟨rfl, (Option.some.inj is).symm⟩
    | minus => exact .inr ⟨rfl, (Option.some.inj is).symm⟩
    | _ => cases is
  | _ => cases is

theorem key_cases {found : Token} {name : String} (is : Nested.key.accepts? found = some name) :
    found = .name name ∨ ∃ raw, found = .text raw ∧ unescapeText raw = name := by
  cases found with
  | name word => exact .inl (congrArg Token.name (Option.some.inj is))
  | text raw => exact .inr ⟨raw, rfl, Option.some.inj is⟩
  | _ => cases is

theorem continues_of_operator {found : Token} {operator : BinaryOperator}
    (is : Nested.infixOperator.accepts? found = some operator) : found.continues = true := by
  cases found with
  | symbol mark => cases mark <;> first | rfl | cases is
  | _ => cases is

theorem infix_apart {found : Token} {operator : BinaryOperator}
    (is : Nested.infixOperator.accepts? found = some operator) :
    found ≠ .symbol .roundOpen ∧ found ≠ .symbol .dot ∧ found ≠ .symbol .squareOpen ∧
      found ≠ .symbol .arrow ∧ found ≠ .symbol .question := by
  refine ⟨?_, ?_, ?_, ?_, ?_⟩ <;> rintro rfl <;> cases is

theorem infix_of_begins {found : Token} (begins : found.begins = true)
    (noMinus : found ≠ .symbol .minus) : Nested.infixOperator.accepts? found = none := by
  cases found with
  | symbol mark => cases mark <;> first | exact absurd rfl noMinus | rfl | cases begins
  | _ => rfl

end Tokens

section Missing

variable {inner : Nested} {ahead : List Token}

theorem misses_parameters (noName : ∀ word, ahead.head? ≠ some (.name word))
    (noBracket : ahead.head? ≠ some (.symbol .roundOpen)) : Misses Nested.parameters ahead :=
  Rule.misses_orElse (Rule.misses_bind (Rule.misses_name noName)) (Rule.misses_between noBracket)

theorem misses_arrow (noName : ∀ word, ahead.head? ≠ some (.name word))
    (noBracket : ahead.head? ≠ some (.symbol .roundOpen)) : Misses inner.arrow ahead :=
  Rule.misses_bind (misses_parameters noName noBracket)

theorem misses_literal (refuses : FirstToken (fun found => Nested.literal.accepts? found = none) ahead) :
    Misses Nested.literal ahead := isToken_literal.misses refuses

theorem misses_atom (first : FirstToken (fun found => found.beginsAtom = false) ahead) :
    Misses inner.atom ahead := by
  have different : ∀ found : Token, found.beginsAtom = true → ahead.head? ≠ some found :=
    fun found begins => first.head_ne (fun none => nomatch none.symm.trans begins)
  have noName : ∀ word, ahead.head? ≠ some (.name word) := fun word => different _ rfl
  have noLiteral : FirstToken (fun found => Nested.literal.accepts? found = none) ahead := by
    refine first.weaken fun found none => ?_
    cases accepted : Nested.literal.accepts? found with
    | none => rfl
    | some value => exact absurd (begins_of_literal accepted).1 (fun is => nomatch none.symm.trans is)
  refine Rule.misses_orElse (Rule.misses_bind (Rule.misses_located ?_))
    (Rule.misses_between (different _ rfl))
  refine Rule.misses_orElse (misses_arrow noName (different _ rfl)) ?_
  refine Rule.misses_orElse (Rule.misses_bind (misses_literal noLiteral)) ?_
  refine Rule.misses_orElse (Rule.misses_bind (Rule.misses_between (different _ rfl))) ?_
  refine Rule.misses_orElse (Rule.misses_bind (Rule.misses_between (different _ rfl))) ?_
  exact Rule.misses_orElse (Rule.misses_bind (Rule.misses_name noName)) Rule.misses_fail

theorem misses_expression (first : FirstToken (fun found => found.begins = false) ahead) :
    Misses inner.expressionRule ahead := by
  have noAtom : FirstToken (fun found => found.beginsAtom = false) ahead := by
    refine first.weaken fun found none => ?_
    unfold Token.begins at none
    simp only [Bool.or_eq_false_iff] at none
    exact none.1.1
  have noSign : FirstToken (fun found => Nested.prefixOperator.accepts? found = none) ahead := by
    refine first.weaken fun found none => ?_
    cases accepted : Nested.prefixOperator.accepts? found with
    | none => rfl
    | some operator =>
      rcases prefix_cases accepted with ⟨rfl, _⟩ | ⟨rfl, _⟩ <;> cases none
  have nothing : Rule.ReadsEach (Rule.located Nested.prefixOperator) Prod.fst [] ahead :=
    Rule.misses_located (isToken_prefixOperator.misses noSign)
  have signs : Reads (Rule.many (Rule.located Nested.prefixOperator)) [] ahead (fun _ => True) :=
    (Rule.reads_many nothing).weaken fun _ _ => trivial
  have operand : Misses inner.operand ahead :=
    Rule.misses_bind_second signs fun _ _ =>
      Rule.misses_bind (Rule.misses_located (Rule.misses_bind (misses_atom noAtom)))
  exact Rule.misses_bind (Rule.misses_located (Rule.misses_bind (Rule.misses_bind operand)))

theorem misses_suffix (noRound : ahead.head? ≠ some (.symbol .roundOpen))
    (noDot : ahead.head? ≠ some (.symbol .dot)) (noSquare : ahead.head? ≠ some (.symbol .squareOpen)) :
    Misses inner.suffix ahead := by
  refine Rule.misses_orElse (Rule.misses_bind (Rule.misses_between noRound)) ?_
  refine Rule.misses_orElse (Rule.misses_bind (Rule.misses_symbol noDot)) ?_
  exact Rule.misses_orElse (Rule.misses_bind (Rule.misses_between noSquare)) Rule.misses_fail

theorem misses_block (noBrace : ahead.head? ≠ some (.symbol .curlyOpen)) : Misses inner.block ahead :=
  Rule.misses_between noBrace

theorem misses_branch (noIf : ahead.head? ≠ some (.keyword .ifBranch)) :
    Misses inner.branchRule ahead :=
  Rule.misses_bind (Rule.misses_located (Rule.misses_bind (Rule.misses_keyword noIf)))

theorem misses_binding (noLet : ahead.head? ≠ some (.keyword .letBinding))
    (noConst : ahead.head? ≠ some (.keyword .constBinding)) : Misses inner.binding ahead :=
  Rule.misses_bind (Rule.misses_orElse (Rule.misses_keyword noLet) (Rule.misses_keyword noConst))

theorem misses_result (noReturn : ahead.head? ≠ some (.keyword .returnValue)) :
    Misses inner.result ahead := Rule.misses_bind (Rule.misses_keyword noReturn)

theorem misses_statement
    (first : FirstToken (fun found => found.begins = false ∧ found.commands = false) ahead) :
    Misses inner.statement ahead := by
  have different : ∀ found : Token, found.commands = true → ahead.head? ≠ some found :=
    fun found commands => first.head_ne (fun none => nomatch none.2.symm.trans commands)
  have locate : ∀ {rule : Rule (Span → Statement)}, Misses rule ahead → Misses (Nested.locate rule) ahead :=
    fun misses => Rule.misses_bind (Rule.misses_located misses)
  refine Rule.misses_orElse (locate (misses_binding (different _ rfl) (different _ rfl))) ?_
  refine Rule.misses_orElse (misses_branch (different _ rfl)) ?_
  refine Rule.misses_orElse (locate (misses_result (different _ rfl))) ?_
  refine Rule.misses_orElse (locate (Rule.misses_bind ?_)) Rule.misses_fail
  exact misses_expression (first.weaken fun _ none => none.1)

end Missing

/-- An operator and the operand behind it. -/
def Nested.link (inner : Nested) : Rule (BinaryOperator × Operand) := do
  let operator ← infixOperator
  let operand ← inner.operand
  return (operator, operand)

/-- A chain ends here: neither a suffix follows nor the sign of an arrow function. -/
structure EndsChain (rest : List Token) : Prop where
  arrow : rest.head? ≠ some (.symbol .arrow)
  suffix : ∀ level, rest.length ≤ level → Misses (Nested.ofLevels level).suffix rest

/-- A row of operands ends here: no operator follows either. -/
structure EndsOperation (rest : List Token) : Prop extends EndsChain rest where
  sign : FirstToken (fun found => Nested.infixOperator.accepts? found = none) rest

/-- An expression ends here: no branches follow either. -/
structure EndsExpression (rest : List Token) : Prop extends EndsOperation rest where
  question : rest.head? ≠ some (.symbol .question)

theorem endsExpression_of_first {rest : List Token}
    (first : FirstToken (fun found => found.continues = false) rest) : EndsExpression rest := by
  have different : ∀ found : Token, found.continues = true → rest.head? ≠ some found :=
    fun found continues => first.head_ne (fun none => nomatch none.symm.trans continues)
  refine ⟨⟨⟨different _ rfl, fun level _ => ?_⟩, first.weaken fun found none => ?_⟩, different _ rfl⟩
  · exact misses_suffix (different _ rfl) (different _ rfl) (different _ rfl)
  · cases accepted : Nested.infixOperator.accepts? found with
    | none => rfl
    | some operator => exact nomatch none.symm.trans (continues_of_operator accepted)

theorem endsChain_of_operator {found : Token} {operator : BinaryOperator} {rest : List Token}
    (is : Nested.infixOperator.accepts? found = some operator) : EndsChain (found :: rest) := by
  obtain ⟨noRound, noDot, noSquare, noArrow, _⟩ := infix_apart is
  have different : ∀ other : Token, found ≠ other → (found :: rest).head? ≠ some other :=
    fun other distinct same => distinct (Option.some.inj same)
  exact ⟨different _ noArrow,
    fun _ _ => misses_suffix (different _ noRound) (different _ noDot) (different _ noSquare)⟩

theorem endsOperation_of_question (rest : List Token) :
    EndsOperation (.symbol .question :: rest) := by
  have different : ∀ other : Token, .symbol .question ≠ other →
      (Token.symbol .question :: rest).head? ≠ some other :=
    fun other distinct same => distinct (Option.some.inj same)
  refine ⟨⟨different _ (fun is => by cases is), fun _ _ => ?_⟩, firstToken_cons.mpr rfl⟩
  exact misses_suffix (different _ (fun is => by cases is)) (different _ (fun is => by cases is))
    (different _ (fun is => by cases is))

/-- What must follow a phrase: what ends phrases of its kind, or for a loose one what ends an expression. -/
def Tail.Ends (weak : List Token → Prop) (rest : List Token) : Tail → Prop
  | .firm => weak rest
  | .loose => weak rest ∧ EndsExpression rest

private theorem reads_inner {α : Type} {rule field : Nested → Rule α} {tokens rest : List Token}
    {good : α → Prop} {level : Nat}
    (is : ∀ level, field (Nested.ofLevels (level + 1)) = rule (Nested.ofLevels level))
    (reads : ∀ level, (tokens ++ rest).length ≤ level →
      Reads (rule (Nested.ofLevels level)) tokens rest good)
    (enough : (tokens ++ rest).length < level) :
    Reads (field (Nested.ofLevels level)) tokens rest good := by
  cases level with
  | zero => exact absurd enough (Nat.not_lt_zero _)
  | succ level =>
    rw [is]
    exact reads level (Nat.le_of_lt_succ enough)

section Levels

variable {tokens rest : List Token} {level : Nat}

theorem reads_nested {good : Expression → Prop}
    (reads : ∀ level, (tokens ++ rest).length ≤ level →
      Reads (Nested.ofLevels level).expressionRule tokens rest good)
    (enough : (tokens ++ rest).length < level) :
    Reads (Nested.ofLevels level).expression tokens rest good :=
  reads_inner (fun _ => rfl) reads enough

theorem reads_nested_statements {good : List Statement → Prop}
    (reads : ∀ level, (tokens ++ rest).length ≤ level →
      Reads (Nested.ofLevels level).statementsRule tokens rest good)
    (enough : (tokens ++ rest).length < level) :
    Reads (Nested.ofLevels level).statements tokens rest good :=
  reads_inner (fun _ => rfl) reads enough

theorem reads_nested_branch {good : Statement → Prop}
    (reads : ∀ level, (tokens ++ rest).length ≤ level →
      Reads (Nested.ofLevels level).branchRule tokens rest good)
    (enough : (tokens ++ rest).length < level) :
    Reads (Nested.ofLevels level).branch tokens rest good :=
  reads_inner (fun _ => rfl) reads enough

end Levels

theorem takes_nested {ahead : List Token} {level : Nat}
    (takes : ∀ level, ahead.length ≤ level → Takes (Nested.ofLevels level).expressionRule ahead)
    (enough : ahead.length < level) : Takes (Nested.ofLevels level).expression ahead := by
  cases level with
  | zero => exact absurd enough (Nat.not_lt_zero _)
  | succ level => exact takes level (Nat.le_of_lt_succ enough)

theorem misses_nested {ahead : List Token}
    (misses : ∀ level, Misses (Nested.ofLevels level).expressionRule ahead) (level : Nat) :
    Misses (Nested.ofLevels level).expression ahead := by
  cases level with
  | zero => exact Rule.misses_fail
  | succ level => exact misses level

end ScreenStudio.Source
