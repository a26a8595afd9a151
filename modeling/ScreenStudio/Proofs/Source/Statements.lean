/- digest: Every derivation of statements is found by the rules. -/

import ScreenStudio.Proofs.Source.Complete

set_option autoImplicit false
set_option relaxedAutoImplicit false

namespace ScreenStudio.Source

open Nested (Suffix applySuffix applyPrefix ofLevels)
open Rule (Reads Misses Takes ReadsEach ReadsListed joined listed behindComma)

/-- The token can neither start a statement nor go on with one. -/
structure Token.Stops (token : Token) : Prop where
  begins : token.begins = false
  commands : token.commands = false
  continues : token.continues = false
  semicolon : token ≠ .symbol .semicolon
  otherwise : token ≠ .keyword .elseBranch

/-- What must follow a statement with the ending. -/
def Ending.Follows (rest : List Token) : Ending → Prop
  | .closed => rest.head? ≠ some (.keyword .elseBranch)
  | .value => EndsExpression rest
  | .bare => FirstToken (fun found => found.begins = false) rest

abbrev CompleteBlock (statements : List Statement) (tokens : List Token) : Prop :=
  ∀ rest level, (tokens ++ rest).length ≤ level → Reads (ofLevels level).block tokens rest
    (fun read => Statement.bareList read = Statement.bareList statements)

/-- In front of what ends it the body of an arrow function is read, and in front of anything some body
is. -/
structure CompleteBody (tail : Tail) (value : Body) (tokens : List Token) : Prop where
  reads : ∀ rest level, tail.Ends (fun _ => True) rest → (tokens ++ rest).length < level →
    Reads (ofLevels level).body tokens rest (fun read => read.bare = value.bare)
  takes : ∀ rest level, (tokens ++ rest).length < level →
    Takes (ofLevels level).body (tokens ++ rest)

abbrev CompleteOtherwise (alternative : Option (List Statement)) (tokens : List Token) : Prop :=
  ∀ rest level, rest.head? ≠ some (.keyword .elseBranch) → (tokens ++ rest).length ≤ level →
    Reads (Rule.optional (ofLevels level).otherwise) tokens rest
      (fun read => read.map Statement.bareList = alternative.map Statement.bareList)

abbrev CompleteStatements (statements : List Statement) (tokens : List Token) : Prop :=
  ∀ rest level, FirstToken Token.Stops rest → (tokens ++ rest).length ≤ level →
    Reads (ofLevels level).statementsRule tokens rest
      (fun read => Statement.bareList read = Statement.bareList statements)

/-- In front of what can follow its ending the statement is read. With a keyword at its start it can be
told from an expression; otherwise it is one. -/
structure CompleteStatement (ending : Ending) (lead : Lead) (value : Statement) (tokens : List Token) :
    Prop where
  reads : ∀ rest level, ending.Follows rest → (tokens ++ rest).length ≤ level →
    Reads (ofLevels level).statement tokens rest (fun read => read.bare = value.bare)
  branch : ending = .closed → ∀ rest level, ending.Follows rest → (tokens ++ rest).length ≤ level →
    Reads (ofLevels level).branchRule tokens rest (fun read => read.bare = value.bare)
  commands : lead = .keyword → ∃ first more, tokens = first :: more ∧ first.commands = true
  starts : lead ≠ .keyword → Starts lead tokens
  expression : lead ≠ .keyword → ∀ rest level, (tokens ++ rest).length ≤ level →
    Takes (ofLevels level).expressionRule (tokens ++ rest)
  goesOn : lead = .joining → ∀ rest level, (tokens ++ rest).length ≤ level →
    GoesOn (ofLevels level) (tokens ++ rest)

section Statements

variable {lead : Lead} {statements : List Statement} {tokens : List Token}

theorem Token.Stops.expression {rest : List Token} (stops : FirstToken Token.Stops rest) :
    EndsExpression rest := endsExpression_of_first (stops.weaken fun _ stops => stops.continues)

theorem Ending.follows_of_stops {rest : List Token} (stops : FirstToken Token.Stops rest)
    (ending : Ending) : ending.Follows rest := by
  cases ending with
  | closed => exact stops.head_ne fun stops => stops.otherwise rfl
  | value => exact Token.Stops.expression stops
  | bare => exact stops.weaken fun _ stops => stops.begins

theorem Ending.follows_semicolon (rest : List Token) (ending : Ending) :
    ending.Follows (.symbol .semicolon :: rest) := by
  cases ending with
  | closed => exact fun is => by cases is
  | value => exact endsExpression_of_first (firstToken_cons.mpr rfl)
  | bare => exact firstToken_cons.mpr rfl

private theorem commands_apart {first : Token} (commands : first.commands = true) :
    first.begins = false ∧ first.continues = false ∧ first ≠ .keyword .elseBranch ∧
      first ≠ .symbol .semicolon ∧ first ≠ .symbol .curlyOpen := by
  have distinct : ∀ other : Token, other.commands = false → first ≠ other := by
    rintro other none rfl
    exact nomatch none.symm.trans commands
  refine ⟨?_, ?_, distinct _ rfl, distinct _ rfl, distinct _ rfl⟩
  all_goals
    cases first with
    | keyword word => cases word <;> first | rfl | cases commands
    | _ => cases commands

private theorem begins_apart {first : Token} (begins : first.begins = true) :
    first.commands = false ∧ first ≠ .keyword .elseBranch ∧ first ≠ .symbol .semicolon ∧
      first ≠ .symbol .arrow ∧ first ≠ .symbol .question := by
  have distinct : ∀ other : Token, other.begins = false → first ≠ other := by
    rintro other none rfl
    exact nomatch none.symm.trans begins
  refine ⟨?_, distinct _ rfl, distinct _ rfl, distinct _ rfl, distinct _ rfl⟩
  cases first with
  | keyword word => cases word <;> first | rfl | cases begins
  | _ => rfl

namespace CompleteStatement

variable {ending before : Ending} {value : Statement}

theorem first (complete : CompleteStatement ending lead value tokens) :
    ∃ first more, tokens = first :: more ∧ (first.begins = true ∨ first.commands = true) ∧
      first ≠ .keyword .elseBranch ∧ first ≠ .symbol .semicolon := by
  by_cases keyword : lead = .keyword
  · obtain ⟨first, more, is, commands⟩ := complete.commands keyword
    obtain ⟨_, _, noElse, noSemicolon, _⟩ := commands_apart commands
    exact ⟨first, more, is, .inr commands, noElse, noSemicolon⟩
  · obtain ⟨first, more, is, begins⟩ := (complete.starts keyword).begins
    obtain ⟨_, noElse, noSemicolon, _⟩ := begins_apart begins
    exact ⟨first, more, is, .inl begins, noElse, noSemicolon⟩

theorem follows (complete : CompleteStatement ending lead value tokens) (parts : before.Parts lead)
    (rest : List Token) : before.Follows (tokens ++ rest) := by
  obtain ⟨first, more, rfl, _, noElse, _⟩ := complete.first
  cases before with
  | closed => exact fun same => noElse (Option.some.inj same)
  | bare =>
    obtain ⟨_, _, is, commands⟩ := complete.commands parts
    obtain ⟨rfl, _⟩ := List.cons.inj is
    exact firstToken_cons.mpr (commands_apart commands).1
  | value =>
    by_cases keyword : lead = .keyword
    · obtain ⟨_, _, is, commands⟩ := complete.commands keyword
      obtain ⟨rfl, _⟩ := List.cons.inj is
      exact endsExpression_of_first (firstToken_cons.mpr (commands_apart commands).2.1)
    · have starts := complete.starts keyword
      obtain ⟨_, _, is, begins⟩ := starts.begins
      obtain ⟨rfl, _⟩ := List.cons.inj is
      obtain ⟨_, _, _, noArrow, noQuestion⟩ := begins_apart begins
      have noMinus := starts.noMinus parts
      refine ⟨⟨⟨fun same => noArrow (Option.some.inj same), fun level enough => ?_⟩, ?_⟩,
        fun same => noQuestion (Option.some.inj same)⟩
      · exact starts.apart parts rest level enough
      · exact firstToken_cons.mpr (infix_of_begins begins fun is => noMinus (congrArg some is))

end CompleteStatement

end Statements

section Rows

variable {lead : Lead} {ending : Ending} {tokens : List Token}

private theorem reads_locate {rule : Rule (Span → Statement)} {tokens rest : List Token}
    {good : Statement → Prop} (reads : Reads rule tokens rest (fun build => ∀ span, good (build span))) :
    Reads (Nested.locate rule) tokens rest good := by
  have both : Reads (Rule.located rule >>= fun pair => pure (pair.1 pair.2)) (tokens ++ []) rest good :=
    Rule.reads_bind (Rule.reads_located reads) fun value held =>
      (Rule.reads_pure (value.1 value.2)).weaken fun read is => is ▸ held value.2
  rwa [List.append_nil] at both

private theorem misses_locate {rule : Rule (Span → Statement)} {ahead : List Token}
    (misses : Misses rule ahead) : Misses (Nested.locate rule) ahead :=
  Rule.misses_bind (Rule.misses_located misses)

theorem complete_binding (span : Span) {sign : Token} (word : String) {value : Expression}
    (is : sign = .keyword .letBinding ∨ sign = .keyword .constBinding)
    (within : CompleteExpression lead value tokens) :
    CompleteStatement .value .keyword (.binding span word value)
      (sign :: .name word :: .symbol .assign :: tokens) := by
  refine ⟨fun rest level follows enough => ?_, fun is => (by cases is), fun _ => ?_,
    fun is => absurd rfl is, fun is => absurd rfl is, fun is => (by cases is)⟩
  · have keyword : Reads (Rule.orElse (Rule.keyword .letBinding) (Rule.keyword .constBinding)) [sign]
        (.name word :: .symbol .assign :: tokens ++ rest) (fun _ => True) := by
      rcases is with rfl | rfl
      · exact Rule.reads_orElse (Rule.reads_keyword .letBinding)
      · exact Rule.reads_orElse_second (Rule.misses_keyword fun same => by cases same)
          (Rule.reads_keyword .constBinding)
    have fits : (tokens ++ rest).length ≤ level := by
      simp only [List.cons_append, List.length_cons] at enough
      omega
    have binding : Reads (ofLevels level).binding
        ([sign] ++ ([.name word] ++ ([.symbol .assign] ++ tokens))) rest
        (fun build => ∀ place, (build place).bare = (Statement.binding span word value).bare) := by
      refine Rule.reads_bind keyword fun _ _ => Rule.reads_bind (Rule.reads_name word) fun name is => ?_
      refine Rule.reads_bind (Rule.reads_symbol .assign) fun _ _ => ?_
      refine Rule.reads_map (within.reads rest level follows fits) fun read same place => ?_
      unfold Expression.Same at same
      rw [Statement.bare, Statement.bare, is, same]
    exact Rule.reads_orElse (reads_locate binding)
  · refine ⟨sign, _, rfl, ?_⟩
    rcases is with rfl | rfl <;> rfl

private theorem reads_statement_of_result {tokens rest : List Token} {level : Nat}
    {good : Statement → Prop}
    (result : Reads (ofLevels level).result (.keyword .returnValue :: tokens) rest
      (fun build => ∀ place, good (build place))) :
    Reads (ofLevels level).statement (.keyword .returnValue :: tokens) rest good := by
  refine Rule.reads_orElse_second (misses_locate (misses_binding ?_ ?_)) ?_
  · exact fun same => by cases same
  · exact fun same => by cases same
  · refine Rule.reads_orElse_second (misses_branch fun same => by cases same) ?_
    exact Rule.reads_orElse (reads_locate result)

theorem complete_result (span : Span) :
    CompleteStatement .bare .keyword (.result span none) [.keyword .returnValue] := by
  refine ⟨fun rest level follows enough => ?_, fun is => (by cases is), fun _ => ⟨_, _, rfl, rfl⟩,
    fun is => absurd rfl is, fun is => absurd rfl is, fun is => (by cases is)⟩
  have result : Reads (ofLevels level).result ([.keyword .returnValue] ++ []) rest
      (fun build => ∀ place, (build place).bare = (Statement.result span none).bare) := by
    refine Rule.reads_bind (Rule.reads_keyword .returnValue) fun _ _ => ?_
    refine Rule.reads_map (Rule.reads_optional_none (misses_expression follows)) fun read none _ => ?_
    rw [none, Statement.bare, Statement.bare]
  exact reads_statement_of_result result

theorem complete_resultValue (span : Span) {value : Expression}
    (within : CompleteExpression lead value tokens) :
    CompleteStatement .value .keyword (.result span (some value)) (.keyword .returnValue :: tokens) := by
  refine ⟨fun rest level follows enough => ?_, fun is => (by cases is), fun _ => ⟨_, _, rfl, rfl⟩,
    fun is => absurd rfl is, fun is => absurd rfl is, fun is => (by cases is)⟩
  have result : Reads (ofLevels level).result ([.keyword .returnValue] ++ tokens) rest
      (fun build => ∀ place, (build place).bare = (Statement.result span (some value)).bare) := by
    refine Rule.reads_bind (Rule.reads_keyword .returnValue) fun _ _ => ?_
    have expression := within.reads rest level follows (Nat.le_of_succ_le enough)
    refine Rule.reads_map (Rule.reads_optional expression) ?_
    rintro _ ⟨read, rfl, same⟩ place
    unfold Expression.Same at same
    rw [Statement.bare, Statement.bare, same]
  exact reads_statement_of_result result

theorem complete_expressionStatement (span : Span) {value : Expression} (noKeyword : lead ≠ .keyword)
    (within : CompleteExpression lead value tokens) :
    CompleteStatement .value lead (.expression span value) tokens := by
  obtain ⟨first, more, is, begins⟩ := within.starts.begins
  refine ⟨fun rest level follows enough => ?_, fun is => (by cases is), fun is => absurd is noKeyword,
    fun _ => within.starts, fun _ => within.takes, within.goesOn⟩
  have distinct : ∀ other : Token, other.commands = true → (tokens ++ rest).head? ≠ some other := by
    intro other commands same
    rw [is] at same
    cases Option.some.inj same
    exact nomatch commands.symm.trans (begins_apart begins).1
  have expression : Reads (ofLevels level).expressionStatement tokens rest
      (fun build => ∀ place, (build place).bare = (Statement.expression span value).bare) := by
    refine Rule.reads_map (within.reads rest level follows enough) fun read same place => ?_
    unfold Expression.Same at same
    rw [Statement.bare, Statement.bare, same]
  refine Rule.reads_orElse_second (misses_locate (misses_binding (distinct _ rfl) (distinct _ rfl))) ?_
  refine Rule.reads_orElse_second (misses_branch (distinct _ rfl)) ?_
  refine Rule.reads_orElse_second (misses_locate (misses_result (distinct _ rfl))) ?_
  exact Rule.reads_orElse (reads_locate expression)

private theorem reads_branch (span : Span) {condition : Expression} {consequent : List Statement}
    {alternative : Option (List Statement)} {one two three : List Token}
    (head : CompleteExpression lead condition one) (yes : CompleteBlock consequent two)
    (no : CompleteOtherwise alternative three) (rest : List Token) (level : Nat)
    (follows : Ending.Follows rest .closed)
    (enough : (.keyword .ifBranch :: .symbol .roundOpen ::
      (one ++ .symbol .roundClose :: (two ++ three)) ++ rest : List Token).length ≤ level) :
    Reads (ofLevels level).branchRule
      (.keyword .ifBranch :: .symbol .roundOpen :: (one ++ .symbol .roundClose :: (two ++ three))) rest
      (fun read => read.bare = (Statement.branch span condition consequent alternative).bare) := by
  simp only [List.cons_append, List.length_cons, List.length_append] at enough
  have asked : Reads (ofLevels level).expression one (.symbol .roundClose :: (two ++ three ++ rest))
      condition.Same := by
    refine reads_nested (fun level => head.reads _ level ?_) ?_
    · exact endsExpression_of_first (firstToken_cons.mpr rfl)
    · simp only [List.length_cons, List.length_append]
      omega
  have inner : Reads (do
        Rule.keyword .ifBranch
        let condition ← Rule.between .roundOpen (ofLevels level).expression .roundClose
        let consequent ← (ofLevels level).block
        let alternative ← Rule.optional (ofLevels level).otherwise
        return (condition, consequent, alternative))
      ([.keyword .ifBranch] ++ ((.symbol .roundOpen :: (one ++ [.symbol .roundClose])) ++ (two ++ three)))
      rest (fun read => condition.Same read.1 ∧
        Statement.bareList read.2.1 = Statement.bareList consequent ∧
        read.2.2.map Statement.bareList = alternative.map Statement.bareList) := by
    refine Rule.reads_bind (Rule.reads_keyword .ifBranch) fun _ _ => ?_
    refine Rule.reads_bind (Rule.reads_between asked) fun read same => ?_
    refine Rule.reads_bind (yes (three ++ rest) level ?_) fun first also => ?_
    · simp only [List.length_append]
      omega
    refine Rule.reads_map (no rest level follows ?_) fun second last => ⟨same, also, last⟩
    rw [List.length_append]
    omega
  have whole : Reads (ofLevels level).branchRule
      ([.keyword .ifBranch] ++ ((.symbol .roundOpen :: (one ++ [.symbol .roundClose])) ++ (two ++ three))
        ++ []) rest
      (fun read => read.bare = (Statement.branch span condition consequent alternative).bare) := by
    refine Rule.reads_bind (Rule.reads_located inner) ?_
    rintro ⟨⟨asked, first, second⟩, place⟩ ⟨same, also, last⟩
    refine (Rule.reads_pure (Statement.branch place asked first second)).weaken fun read is => ?_
    unfold Expression.Same at same
    dsimp only at same also last
    rw [is, Statement.bare_branch, Statement.bare_branch, same, also, last]
  simpa only [List.append_nil, List.append_assoc, List.cons_append, List.nil_append] using whole

theorem complete_branch (span : Span) {condition : Expression} {consequent : List Statement}
    {alternative : Option (List Statement)} {one two three : List Token}
    (head : CompleteExpression lead condition one) (yes : CompleteBlock consequent two)
    (no : CompleteOtherwise alternative three) :
    CompleteStatement .closed .keyword (.branch span condition consequent alternative)
      (.keyword .ifBranch :: .symbol .roundOpen :: (one ++ .symbol .roundClose :: (two ++ three))) := by
  have branch := reads_branch span head yes no
  refine ⟨fun rest level follows enough => ?_, fun _ => branch, fun _ => ⟨_, _, rfl, rfl⟩,
    fun is => absurd rfl is, fun is => absurd rfl is, fun is => (by cases is)⟩
  refine Rule.reads_orElse_second (misses_locate (misses_binding ?_ ?_)) ?_
  · exact fun same => by cases same
  · exact fun same => by cases same
  · exact Rule.reads_orElse (branch rest level follows enough)

end Rows

/-- A statement and the semicolons behind it. -/
def Nested.sentence (inner : Nested) : Rule Statement := do
  let statement ← inner.statement
  let _ ← semicolons
  return statement

section Blocks

variable {rest : List Token} {level : Nat}

theorem reads_semicolons {lexemes : List Lexeme} (are : AreSemicolons lexemes)
    (different : rest.head? ≠ some (.symbol .semicolon)) :
    Reads Nested.semicolons (tokensOf lexemes) rest (fun _ => True) := by
  have row : tokensOf lexemes =
      joined (lexemes.map (fun lexeme => ([Token.symbol .semicolon], ()))) := by
    unfold tokensOf joined
    rw [List.flatMap_map]
    induction lexemes with
    | nil => rfl
    | cons lexeme others ih =>
      obtain ⟨is, behind⟩ := List.forall_mem_cons.mp are
      rw [List.map_cons, List.flatMap_cons, is, ih behind]
      rfl
  have all : ReadsEach (Rule.symbol .semicolon) id
      (lexemes.map (fun lexeme => ([Token.symbol .semicolon], ()))) rest :=
    Rule.readsEach_of_all _
      (List.forall_mem_map.mpr fun _ _ =>
        ⟨List.cons_ne_nil _ _, fun _ _ => (Rule.reads_symbol .semicolon).weaken fun _ _ => rfl⟩)
      (Nat.le_refl _) (Rule.misses_symbol different)
  rw [row]
  exact (Rule.reads_many all).weaken fun _ _ => trivial

/-- A sentence as a part of a row. -/
def partOfSentence (sentence : Sentence) : List Token × Statement :=
  (tokensOf sentence.lexemes, sentence.item.value.bare)

abbrev CompleteSentence (sentence : Sentence) : Prop :=
  CompleteStatement sentence.ending sentence.item.lead sentence.item.value
    (tokensOf sentence.item.lexemes)

private theorem noSemicolon_of_sentences {sentences : List Sentence}
    (each : ∀ sentence ∈ sentences, CompleteSentence sentence) (stops : FirstToken Token.Stops rest) :
    (joined (sentences.map partOfSentence) ++ rest).head? ≠ some (.symbol .semicolon) := by
  cases sentences with
  | nil => exact stops.head_ne fun stops => stops.semicolon rfl
  | cons sentence others =>
    obtain ⟨first, more, is, _, _, noSemicolon⟩ := (each sentence (List.mem_cons_self ..)).first
    have shape : joined ((sentence :: others).map partOfSentence) =
        tokensOf sentence.item.lexemes ++ tokensOf sentence.semicolons
          ++ joined (others.map partOfSentence) := by
      rw [← tokensOf_append]
      rfl
    rw [shape, is]
    exact fun same => noSemicolon (Option.some.inj same)

private theorem follows_of_sentences {sentence : Sentence} {others : List Sentence}
    (are : AreSemicolons sentence.semicolons) (apart : (sentence :: others).IsChain Sentence.Apart)
    (each : ∀ sentence ∈ others, CompleteSentence sentence) (stops : FirstToken Token.Stops rest) :
    sentence.ending.Follows
      (tokensOf sentence.semicolons ++ (joined (others.map partOfSentence) ++ rest)) := by
  cases semicolons : sentence.semicolons with
  | cons lexeme more =>
    rw [semicolons] at are
    rw [tokensOf_cons, (List.forall_mem_cons.mp are).1]
    exact Ending.follows_semicolon _ _
  | nil =>
    cases others with
    | nil => exact Ending.follows_of_stops stops _
    | cons next others =>
      have parts := (List.isChain_cons_cons.mp apart).1.resolve_left fun some => some semicolons
      have shape : joined ((next :: others).map partOfSentence) ++ rest =
          tokensOf next.item.lexemes ++
            (tokensOf next.semicolons ++ joined (others.map partOfSentence) ++ rest) := by
        rw [← List.append_assoc, ← List.append_assoc, ← tokensOf_append]
        rfl
      rw [tokensOf_nil, List.nil_append, shape]
      exact (each next (List.mem_cons_self ..)).follows parts _

private theorem readsEach_sentence (sentences : List Sentence)
    (are : ∀ sentence ∈ sentences, AreSemicolons sentence.semicolons)
    (apart : sentences.IsChain Sentence.Apart)
    (each : ∀ sentence ∈ sentences, CompleteSentence sentence) (stops : FirstToken Token.Stops rest)
    (enough : (joined (sentences.map partOfSentence) ++ rest).length ≤ level) :
    ReadsEach (ofLevels level).sentence Statement.bare (sentences.map partOfSentence) rest := by
  induction sentences with
  | nil =>
    exact Rule.misses_bind
      (misses_statement (stops.weaken fun _ stops => ⟨stops.begins, stops.commands⟩))
  | cons sentence others ih =>
    obtain ⟨own, behind⟩ := List.forall_mem_cons.mp each
    obtain ⟨semicolons, areBehind⟩ := List.forall_mem_cons.mp are
    obtain ⟨first, more, is, _⟩ := own.first
    have shape : (partOfSentence sentence).1 =
        tokensOf sentence.item.lexemes ++ tokensOf sentence.semicolons := tokensOf_append _ _
    have split : (joined ((sentence :: others).map partOfSentence) ++ rest).length =
        (tokensOf sentence.item.lexemes ++ (tokensOf sentence.semicolons ++
          (joined (others.map partOfSentence) ++ rest))).length := by
      show ((partOfSentence sentence).1 ++ joined (others.map partOfSentence) ++ rest).length = _
      rw [shape]
      simp only [List.append_assoc]
    rw [split] at enough
    refine ⟨?_, ?_, ih areBehind apart.tail behind ?_⟩
    · rw [shape, is]
      exact List.cons_ne_nil _ _
    · rw [shape]
      have follows := follows_of_sentences semicolons apart behind stops
      refine Rule.reads_bind (own.reads _ level follows enough) fun read same => ?_
      exact Rule.reads_map (reads_semicolons semicolons (noSemicolon_of_sentences behind stops))
        fun _ _ => same
    · simp only [List.length_append] at enough ⊢
      omega

theorem complete_statements (leading : List Lexeme) (sentences : List Sentence)
    (are : AreSemicolons leading)
    (ends : ∀ sentence ∈ sentences, AreSemicolons sentence.semicolons)
    (apart : sentences.IsChain Sentence.Apart)
    (each : ∀ sentence ∈ sentences, CompleteSentence sentence) :
    CompleteStatements (sentences.map (fun sentence => sentence.item.value))
      (tokensOf leading ++ tokensOf (sentences.flatMap Sentence.lexemes)) := by
  intro rest level stops enough
  have row : tokensOf (sentences.flatMap Sentence.lexemes) = joined (sentences.map partOfSentence) :=
    tokensOf_flatMap sentences Sentence.lexemes (fun sentence => sentence.item.value.bare)
  rw [row] at enough ⊢
  refine Rule.reads_bind (reads_semicolons are (noSemicolon_of_sentences each stops)) fun _ _ => ?_
  have all : Reads (Rule.many (ofLevels level).sentence) (joined (sentences.map partOfSentence)) rest
      (fun values => values.map Statement.bare = (sentences.map partOfSentence).map Prod.snd) := by
    refine Rule.reads_many (readsEach_sentence sentences ends apart each stops ?_)
    simp only [List.length_append] at enough ⊢
    omega
  refine all.weaken fun values same => ?_
  rw [Statement.bareList_eq_map, Statement.bareList_eq_map, same, List.map_map, List.map_map]
  rfl

theorem complete_block {statements : List Statement} {tokens : List Token}
    (within : CompleteStatements statements tokens) :
    CompleteBlock statements (.symbol .curlyOpen :: (tokens ++ [.symbol .curlyClose])) := by
  intro rest level enough
  refine Rule.reads_between (reads_nested_statements (fun level => within _ level ?_) ?_)
  · refine firstToken_cons.mpr ⟨rfl, rfl, rfl, ?_, ?_⟩
    · exact fun is => by cases is
    · exact fun is => by cases is
  · simp only [List.cons_append, List.append_assoc, List.nil_append, List.length_cons,
      List.length_append] at enough ⊢
    omega

theorem complete_bodyBlock {statements : List Statement} {tokens : List Token}
    (within : CompleteBlock statements tokens) : CompleteBody .firm (.block statements) tokens := by
  have reads : ∀ rest level, (tokens ++ rest).length < level →
      Reads (ofLevels level).body tokens rest (fun read => read.bare = (Body.block statements).bare) := by
    intro rest level enough
    refine Rule.reads_orElse (Rule.reads_map (within rest level (Nat.le_of_lt enough)) fun read same => ?_)
    rw [Body.bare, Body.bare, same]
  exact ⟨fun rest level _ => reads rest level, fun rest level enough => (reads rest level enough).takes⟩

theorem complete_bodyExpression {lead : Lead} {value : Expression} {tokens : List Token}
    (noBlock : lead ≠ .braces) (within : CompleteExpression lead value tokens) :
    CompleteBody .loose (.expression value) tokens := by
  refine ⟨fun rest level follows enough => ?_, fun rest level enough =>
    Rule.takes_orElse_second (Rule.takes_bind (takes_nested (fun level => within.takes rest level) enough))⟩
  refine Rule.reads_orElse_second
    (Rule.misses_bind (within.starts.noBlock noBlock rest level (Nat.le_of_lt enough))) ?_
  refine Rule.reads_map (reads_nested (fun level => within.reads rest level follows.2) enough) ?_
  intro read same
  unfold Expression.Same at same
  rw [Body.bare, Body.bare, same]

theorem complete_nothing : CompleteOtherwise none [] := by
  intro rest level noElse _
  refine (Rule.reads_optional_none (Rule.misses_bind (Rule.misses_keyword noElse))).weaken ?_
  rintro _ rfl
  rfl

theorem complete_otherwise {statements : List Statement} {tokens : List Token}
    (within : CompleteBlock statements tokens) :
    CompleteOtherwise (some statements) (.keyword .elseBranch :: tokens) := by
  intro rest level _ enough
  have block : Reads (ofLevels level).otherwise ([.keyword .elseBranch] ++ tokens) rest
      (fun read => Statement.bareList read = Statement.bareList statements) :=
    Rule.reads_bind (Rule.reads_keyword .elseBranch) fun _ _ =>
      Rule.reads_orElse (within rest level (Nat.le_of_succ_le enough))
  refine (Rule.reads_optional block).weaken ?_
  rintro _ ⟨read, rfl, same⟩
  exact congrArg some same

theorem complete_otherwiseBranch {lead : Lead} {branch : Statement} {tokens : List Token}
    (keyword : lead = .keyword) (within : CompleteStatement .closed lead branch tokens) :
    CompleteOtherwise (some [branch]) (.keyword .elseBranch :: tokens) := by
  intro rest level noElse enough
  have noBlock : Misses (ofLevels level).block (tokens ++ rest) := by
    obtain ⟨first, more, rfl, commands⟩ := within.commands keyword
    obtain ⟨_, _, _, _, noBrace⟩ := commands_apart commands
    exact misses_block fun same => noBrace (Option.some.inj same)
  have branches : Reads (ofLevels level).otherwise ([.keyword .elseBranch] ++ tokens) rest
      (fun read => Statement.bareList read = Statement.bareList [branch]) := by
    refine Rule.reads_bind (Rule.reads_keyword .elseBranch) fun _ _ => ?_
    refine Rule.reads_orElse_second noBlock (Rule.reads_map
      (reads_nested_branch (fun level => within.branch rfl rest level noElse) enough) ?_)
    intro read same
    simp only [Statement.bareList, same]
  refine (Rule.reads_optional branches).weaken ?_
  rintro _ ⟨read, rfl, same⟩
  exact congrArg some same

end Blocks

end ScreenStudio.Source
