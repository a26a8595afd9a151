/- digest: Every tree of statements has a source that is read as that tree. -/

import ScreenStudio.Proofs.Source.Accepted

/-!
The canonical source of a program puts every expression in brackets. It quotes texts and keys with single
quotes, puts parameters in brackets and blocks, also branches, in braces, and ends every statement with a
semicolon. A blank stands behind every token. Names have to be words that are no keywords, and numbers have
to be such that some digits stand for them; texts and keys are arbitrary.
-/

set_option autoImplicit false
set_option relaxedAutoImplicit false

namespace ScreenStudio.Source

open Nested (Suffix ofLevels)
open Number (ofPlainDigits)

/-- A word that is no keyword. -/
structure IsName (word : String) : Prop where
  spelled : Word word.toList []
  plain : Keyword.ofWord? word = none

/-- Some digits stand for the number. -/
def IsNumeral (value : Float) : Prop :=
  ∃ digits, scanNumber? digits = some ⟨.number value, digits, []⟩

/-- A way to write the numbers that a source can hold. -/
structure Numerals where
  write : Float → List Char
  reads : ∀ value, IsNumeral value → scanNumber? (write value) = some ⟨.number value, write value, []⟩

open Classical in
/-- For every number some digits that stand for it. -/
noncomputable def someNumerals : Numerals where
  write value := if is : IsNumeral value then is.choose else []
  reads value is := by
    rw [dif_pos is]
    exact is.choose_spec

/-- Quotes and backslashes with a backslash before them. -/
def escape : List Char → List Char
  | [] => []
  | c :: rest => if c = '\\' ∨ c = '\'' then '\\' :: c :: escape rest else c :: escape rest

section Escapes

theorem unescape_plain {c : Char} (plain : c ≠ '\\') (rest : List Char) :
    unescape (c :: rest) = c :: unescape rest := by
  cases rest with
  | nil =>
    rw [unescape]
    exact fun _ _ _ tail => by cases tail
  | cons d more =>
    rw [unescape]
    exact fun _ _ same => absurd same plain

theorem unescape_escape (cs : List Char) : unescape (escape cs) = cs := by
  induction cs with
  | nil => rfl
  | cons c rest ih =>
    rw [escape]
    split
    · rename_i special
      rcases special with rfl | rfl
      · show '\\' :: unescape (escape rest) = _
        rw [ih]
      · show '\'' :: unescape (escape rest) = _
        rw [ih]
    · rename_i plain
      rw [unescape_plain (fun same => plain (.inl same)), ih]

theorem unquoted_escape (cs : List Char) : Unquoted '\'' (escape cs) := by
  induction cs with
  | nil => exact .nil
  | cons c rest ih =>
    rw [escape]
    split
    · exact .escaped c ih
    · rename_i plain
      exact .plain (fun same => plain (.inr same)) (fun same => plain (.inl same)) ih

theorem quoteEnd_escape_append (cs after : List Char) :
    quoteEnd? '\'' (escape cs ++ '\'' :: after) = some (escape cs, after) :=
  (unquoted_escape cs).quoteEnd (by decide) after

/-- The token of a quoted text. -/
def quoted (text : String) : Token := .text (String.ofList (escape text.toList))

theorem unescapeText_quoted (text : String) :
    unescapeText (String.ofList (escape text.toList)) = text := by
  rw [unescapeText, String.toList_ofList, unescape_escape, String.ofList_toList]

end Escapes

section Tokens

/-- The tokens in round brackets. -/
def inBrackets (tokens : List Token) : List Token :=
  .symbol .roundOpen :: (tokens ++ [.symbol .roundClose])

/-- Names with commas between them. -/
def writtenNames : List String → List Token
  | [] => []
  | first :: others => .name first :: others.flatMap (fun other => [.symbol .comma, .name other])

def Literal.written : Literal → Token
  | .number value => .number value
  | .text value => quoted value
  | .bool true => .keyword .trueValue
  | .bool false => .keyword .falseValue
  | .null => .keyword .nullValue

/-- The sign of an operator. Of the two signs for each equality it is the strict one. -/
def BinaryOperator.sign : BinaryOperator → Symbol
  | .or => .or
  | .and => .and
  | .equal => .strictEqual
  | .notEqual => .strictNotEqual
  | .less => .less
  | .lessOrEqual => .lessOrEqual
  | .greater => .greater
  | .greaterOrEqual => .greaterOrEqual
  | .add => .plus
  | .subtract => .minus
  | .multiply => .asterisk
  | .divide => .slash
  | .remainder => .percent

def UnaryOperator.sign : UnaryOperator → Symbol
  | .not => .not
  | .negate => .minus

mutual

/-- The canonical tokens of an expression without the brackets around it. -/
def Expression.written : Expression → List Token
  | .literal _ value => [value.written]
  | .array _ items =>
    .symbol .squareOpen :: (Expression.writtenList items ++ [.symbol .squareClose])
  | .object _ entries =>
    .symbol .curlyOpen :: (Expression.writtenEntries entries ++ [.symbol .curlyClose])
  | .name _ name => [.name name]
  | .member _ target property => inBrackets target.written ++ [.symbol .dot, .name property]
  | .index _ target key =>
    inBrackets target.written ++
      .symbol .squareOpen :: (inBrackets key.written ++ [.symbol .squareClose])
  | .call _ callee arguments =>
    inBrackets callee.written ++ inBrackets (Expression.writtenList arguments)
  | .arrow _ parameters body => inBrackets (writtenNames parameters) ++ .symbol .arrow :: body.written
  | .unary _ operator operand => .symbol operator.sign :: inBrackets operand.written
  | .binary _ operator left right =>
    inBrackets left.written ++ .symbol operator.sign :: inBrackets right.written
  | .conditional _ condition consequent alternative =>
    inBrackets condition.written ++ .symbol .question ::
      (inBrackets consequent.written ++ .symbol .colon :: inBrackets alternative.written)

/-- Expressions with commas between them. -/
def Expression.writtenList : List Expression → List Token
  | [] => []
  | item :: rest => inBrackets item.written ++ Expression.writtenRest rest

/-- Expressions with a comma before each. -/
def Expression.writtenRest : List Expression → List Token
  | [] => []
  | item :: rest => .symbol .comma :: (inBrackets item.written ++ Expression.writtenRest rest)

/-- Entries with quoted keys and commas between them. -/
def Expression.writtenEntries : List (String × Expression) → List Token
  | [] => []
  | (key, item) :: rest =>
    quoted key :: .symbol .colon :: (inBrackets item.written ++ Expression.writtenMore rest)

/-- Entries with a comma before each. -/
def Expression.writtenMore : List (String × Expression) → List Token
  | [] => []
  | (key, item) :: rest =>
    .symbol .comma :: quoted key :: .symbol .colon ::
      (inBrackets item.written ++ Expression.writtenMore rest)

def Body.written : Body → List Token
  | .expression value => inBrackets value.written
  | .block statements =>
    .symbol .curlyOpen :: (Statement.writtenList statements ++ [.symbol .curlyClose])

/-- The canonical tokens of a statement with a semicolon behind it. -/
def Statement.written : Statement → List Token
  | .binding _ name value =>
    .keyword .letBinding :: .name name :: .symbol .assign ::
      (inBrackets value.written ++ [.symbol .semicolon])
  | .expression _ value => inBrackets value.written ++ [.symbol .semicolon]
  | .branch _ condition consequent none =>
    .keyword .ifBranch :: (inBrackets (inBrackets condition.written) ++
      (.symbol .curlyOpen :: (Statement.writtenList consequent ++ [.symbol .curlyClose]) ++
        [.symbol .semicolon]))
  | .branch _ condition consequent (some alternative) =>
    .keyword .ifBranch :: (inBrackets (inBrackets condition.written) ++
      (.symbol .curlyOpen :: (Statement.writtenList consequent ++ [.symbol .curlyClose]) ++
        (.keyword .elseBranch ::
          (.symbol .curlyOpen :: (Statement.writtenList alternative ++ [.symbol .curlyClose])) ++
          [.symbol .semicolon])))
  | .result _ none => [.keyword .returnValue, .symbol .semicolon]
  | .result _ (some value) =>
    .keyword .returnValue :: (inBrackets value.written ++ [.symbol .semicolon])

def Statement.writtenList : List Statement → List Token
  | [] => []
  | statement :: rest => statement.written ++ Statement.writtenList rest

end

end Tokens

section Writable

mutual

/-- All names in the expression are names, and all of its numbers have digits that stand for them. -/
def Expression.Writable : Expression → Prop
  | .literal _ (.number value) => IsNumeral value
  | .literal _ _ => True
  | .array _ items => Expression.WritableList items
  | .object _ entries => Expression.WritableEntries entries
  | .name _ name => IsName name
  | .member _ target property => target.Writable ∧ IsName property
  | .index _ target key => target.Writable ∧ key.Writable
  | .call _ callee arguments => callee.Writable ∧ Expression.WritableList arguments
  | .arrow _ parameters body => (∀ parameter ∈ parameters, IsName parameter) ∧ body.Writable
  | .unary _ _ operand => operand.Writable
  | .binary _ _ left right => left.Writable ∧ right.Writable
  | .conditional _ condition consequent alternative =>
    condition.Writable ∧ consequent.Writable ∧ alternative.Writable

def Expression.WritableList : List Expression → Prop
  | [] => True
  | item :: rest => item.Writable ∧ Expression.WritableList rest

def Expression.WritableEntries : List (String × Expression) → Prop
  | [] => True
  | (_, item) :: rest => item.Writable ∧ Expression.WritableEntries rest

def Body.Writable : Body → Prop
  | .expression value => value.Writable
  | .block statements => Statement.WritableList statements

def Statement.Writable : Statement → Prop
  | .binding _ name value => IsName name ∧ value.Writable
  | .expression _ value => value.Writable
  | .branch _ condition consequent none => condition.Writable ∧ Statement.WritableList consequent
  | .branch _ condition consequent (some alternative) =>
    condition.Writable ∧ Statement.WritableList consequent ∧ Statement.WritableList alternative
  | .result _ none => True
  | .result _ (some value) => value.Writable

def Statement.WritableList : List Statement → Prop
  | [] => True
  | statement :: rest => statement.Writable ∧ Statement.WritableList rest

end

end Writable

section Parts

variable {lead : Lead} {value other : Expression} {tokens more : List Token}

/-- Lexemes with the tokens, at no place. -/
def placed (tokens : List Token) : List Lexeme := tokens.map (⟨·, nowhere⟩)

theorem tokensOf_placed (tokens : List Token) : tokensOf (placed tokens) = tokens := by
  unfold tokensOf placed
  rw [List.map_map]
  exact List.map_id tokens

theorem complete_same (complete : CompleteExpression lead value tokens)
    (same : value.bare = other.bare) : CompleteExpression lead other tokens :=
  ⟨fun rest level ends enough => (complete.reads rest level ends enough).weaken
    fun _ is => is.trans same, complete.takes, complete.goesOn, complete.starts⟩

theorem complete_bracketed (complete : CompleteExpression lead value tokens) :
    CompleteExpression .joining value (inBrackets tokens) :=
  complete_expression_of_atom ⟨_, _, rfl, rfl⟩ (complete_brackets complete)

theorem complete_bracketedOperand (complete : CompleteExpression lead value tokens) (extent : Span) :
    CompleteOperand .joining .firm ⟨value, extent⟩ (inBrackets tokens) :=
  complete_operand_of_chain extent ⟨_, _, rfl, rfl⟩ (complete_chain_of_atom (complete_brackets complete))

theorem complete_suffixed {suffix : Suffix} (complete : CompleteExpression lead value tokens)
    (own : CompleteSuffix suffix more) :
    CompleteExpression .joining (Nested.applySuffix value (suffix, nowhere)) (inBrackets tokens ++ more) := by
  let trailer : Trailer := ⟨(suffix, nowhere), placed more⟩
  have only : tokensOf ([trailer].flatMap Trailer.lexemes) = more := by
    rw [List.flatMap_cons, List.flatMap_nil, List.append_nil]
    exact tokensOf_placed more
  have chain := complete_chain [trailer] (complete_brackets complete) (fun is => by cases is)
    (List.forall_mem_cons.mpr
      ⟨(tokensOf_placed more).symm ▸ own, fun _ none => by cases none⟩)
  rw [only] at chain
  exact complete_expression_of_operand (complete_operand_of_chain nowhere ⟨_, _, rfl, rfl⟩ chain)

theorem complete_writtenUnary (span : Span) (operator : UnaryOperator)
    (complete : CompleteExpression lead value tokens) :
    ∃ lead, CompleteExpression lead (.unary span operator value)
      (.symbol operator.sign :: inBrackets tokens) := by
  let sign : Sign := ⟨(operator, nowhere), ⟨.symbol operator.sign, nowhere⟩⟩
  have accepts : Nested.prefixOperator.accepts? (.symbol operator.sign) = some operator := by
    cases operator <;> rfl
  have operand := complete_operand nowhere [sign]
    (List.forall_mem_cons.mpr ⟨accepts, fun _ none => by cases none⟩) ⟨_, _, rfl, rfl⟩
    (complete_chain_of_atom (complete_brackets complete))
  exact ⟨_, complete_same (complete_expression_of_operand operand) rfl⟩

theorem complete_writtenBinary (span : Span) (operator : BinaryOperator) {lead second : Lead}
    {left right : Expression} {one two : List Token} (first : CompleteExpression lead left one)
    (last : CompleteExpression second right two) :
    CompleteExpression .joining (.binary span operator left right)
      (inBrackets one ++ .symbol operator.sign :: inBrackets two) := by
  let link : Link := ⟨⟨.symbol operator.sign, nowhere⟩, operator,
    ⟨.joining, ⟨right, nowhere⟩, placed (inBrackets two)⟩, .firm⟩
  have accepts : Nested.infixOperator.accepts? (.symbol operator.sign) = some operator := by
    cases operator <;> rfl
  have own : tokensOf link.item.lexemes = inBrackets two := tokensOf_placed _
  have operation := complete_operation [link]
    (List.forall_mem_cons.mpr ⟨accepts, fun _ none => by cases none⟩)
    (complete_bracketedOperand first nowhere) ⟨rfl, trivial⟩
    (List.forall_mem_cons.mpr
      ⟨own.symm ▸ complete_bracketedOperand last nowhere, fun _ none => by cases none⟩)
  rw [List.flatMap_cons, List.flatMap_nil, List.append_nil, tokensOf_cons, own] at operation
  exact complete_same (complete_plain operation) rfl

/-- An item in brackets. -/
def bracketedItem (value : Expression) : Item Expression :=
  ⟨.joining, value, placed (inBrackets value.written)⟩

end Parts

section Rows

open Rule (listed joined behindComma)

/-- Items in a row with a comma before each but the first. -/
def rowOf {α : Type} : List (Item α) → List Lexeme
  | [] => []
  | first :: others =>
    first.lexemes ++ others.flatMap (fun item => ⟨.symbol .comma, nowhere⟩ :: item.lexemes)

theorem listing_row {α : Type} (items : List (Item α)) : Listing items false (rowOf items) := by
  cases items with
  | nil => exact .empty
  | cons first others =>
    have listing := Listing.row first
      (others.map (fun item => ((⟨.symbol .comma, nowhere⟩ : Lexeme), item))) none
      (List.forall_mem_map.mpr fun _ _ => rfl) (fun _ member => by cases member)
    rw [List.map_map, List.flatMap_map, Option.toList_none, List.append_nil] at listing
    have same : others.map (Prod.snd ∘ fun item => ((⟨.symbol .comma, nowhere⟩ : Lexeme), item)) = others :=
      List.map_id others
    rw [same] at listing
    exact listing

theorem tokensOf_row {α : Type} (items : List (Item α)) :
    tokensOf (rowOf items) = listed (items.map (fun item => (tokensOf item.lexemes, ()))) false :=
  (listing_row items).tokens (fun _ => ())

theorem tokensOf_rowItems (items : List Expression) :
    tokensOf (rowOf (items.map bracketedItem)) = Expression.writtenList items := by
  have rest : ∀ items : List Expression, Expression.writtenRest items =
      joined ((items.map (fun item => (inBrackets item.written, ()))).map behindComma) := by
    intro items
    induction items with
    | nil => rfl
    | cons item items ih =>
      rw [Expression.writtenRest, ih]
      rfl
  have own : ((fun item : Item Expression => (tokensOf item.lexemes, ())) ∘ bracketedItem) =
      fun item => (inBrackets item.written, ()) :=
    funext fun item => congrArg (·, ()) (tokensOf_placed _)
  rw [tokensOf_row, List.map_map, own]
  cases items with
  | nil => rfl
  | cons item items =>
    rw [Expression.writtenList, rest, List.map_cons, listed, if_neg Bool.false_ne_true, List.append_nil]

/-- An entry with its key quoted and its value in brackets. -/
def writtenField (entry : String × Expression) : Field :=
  ⟨⟨quoted entry.1, nowhere⟩, ⟨.symbol .colon, nowhere⟩, entry.1, bracketedItem entry.2⟩

theorem fits_writtenField (entry : String × Expression) : (writtenField entry).Fits :=
  ⟨congrArg some (unescapeText_quoted entry.1), rfl⟩

theorem tokensOf_rowEntries (entries : List (String × Expression)) :
    tokensOf (rowOf ((entries.map writtenField).map Field.entry)) = Expression.writtenEntries entries := by
  let part (entry : String × Expression) : List Token × Unit :=
    (quoted entry.1 :: .symbol .colon :: inBrackets entry.2.written, ())
  have rest : ∀ entries : List (String × Expression), Expression.writtenMore entries =
      joined ((entries.map part).map behindComma) := by
    intro entries
    induction entries with
    | nil => rfl
    | cons entry entries ih =>
      rw [Expression.writtenMore, ih]
      rfl
  have own : (((fun item : Item (String × Expression) => (tokensOf item.lexemes, ())) ∘ Field.entry) ∘
      writtenField) = part :=
    funext fun entry => congrArg (fun tokens => (quoted entry.1 :: Token.symbol .colon :: tokens, ()))
      (tokensOf_placed _)
  rw [tokensOf_row, List.map_map, List.map_map, own]
  cases entries with
  | nil => rfl
  | cons entry entries =>
    rw [Expression.writtenEntries, rest, List.map_cons, listed, if_neg Bool.false_ne_true,
      List.append_nil]
    rfl

/-- A name as an item. -/
def nameItem (name : String) : Item String := ⟨.free, name, [⟨.name name, nowhere⟩]⟩

theorem parameters_written (names : List String) :
    ∃ lexemes, Parameters .joining names lexemes ∧ tokensOf lexemes = inBrackets (writtenNames names) := by
  refine ⟨⟨.symbol .roundOpen, nowhere⟩ :: (rowOf (names.map nameItem) ++ [⟨.symbol .roundClose, nowhere⟩]),
    ?_, ?_⟩
  · have listed := Parameters.listed ⟨.symbol .roundOpen, nowhere⟩ ⟨.symbol .roundClose, nowhere⟩
      (names.map nameItem) false _ rfl rfl (listing_row _)
      (List.forall_mem_map.mpr fun name _ => ⟨_, rfl, rfl⟩)
    rw [List.map_map] at listed
    have same : names.map (Item.value ∘ nameItem) = names := List.map_id names
    rw [same] at listed
    exact listed
  · have row : tokensOf (rowOf (names.map nameItem)) = writtenNames names := by
      cases names with
      | nil => rfl
      | cons name names =>
        rw [List.map_cons, rowOf, List.flatMap_map, tokensOf_append, writtenNames]
        unfold tokensOf
        rw [List.map_flatMap]
        rfl
    rw [tokensOf_cons, tokensOf_append, row]
    rfl

variable {lead : Lead} {value : Expression} {tokens : List Token}

theorem complete_writtenArrow (span : Span) (names : List String) {tail : Tail} {body : Body}
    (complete : CompleteBody tail body tokens) :
    ∃ lead, CompleteExpression lead (.arrow span names body)
      (inBrackets (writtenNames names) ++ .symbol .arrow :: tokens) := by
  obtain ⟨lexemes, parameters, row⟩ := parameters_written names
  have atom := complete_arrow span parameters complete
  rw [row] at atom
  exact ⟨_, complete_expression_of_atom ⟨_, _, rfl, rfl⟩ atom⟩

theorem complete_bracketedItems {items : List Expression}
    (each : ∀ item ∈ items, ∃ lead, CompleteExpression lead item item.written) :
    ∀ item ∈ items.map bracketedItem,
      CompleteExpression item.lead item.value (tokensOf item.lexemes) := by
  refine List.forall_mem_map.mpr fun item member => ?_
  obtain ⟨lead, complete⟩ := each item member
  have own : tokensOf (bracketedItem item).lexemes = inBrackets item.written := tokensOf_placed _
  rw [own]
  exact complete_bracketed complete

theorem complete_writtenArray (span : Span) {items : List Expression}
    (each : ∀ item ∈ items, ∃ lead, CompleteExpression lead item item.written) :
    ∃ lead, CompleteExpression lead (.array span items)
      (.symbol .squareOpen :: (Expression.writtenList items ++ [.symbol .squareClose])) := by
  have atom := complete_array span (listing_row (items.map bracketedItem)) (complete_bracketedItems each)
  have values : (items.map bracketedItem).map Item.value = items := by
    rw [List.map_map]
    exact List.map_id items
  rw [tokensOf_rowItems, values] at atom
  exact ⟨_, complete_expression_of_atom ⟨_, _, rfl, rfl⟩ atom⟩

theorem complete_writtenObject (span : Span) {entries : List (String × Expression)}
    (each : ∀ entry ∈ entries, ∃ lead, CompleteExpression lead entry.2 entry.2.written) :
    ∃ lead, CompleteExpression lead (.object span entries)
      (.symbol .curlyOpen :: (Expression.writtenEntries entries ++ [.symbol .curlyClose])) := by
  have atom := complete_object span (listing_row ((entries.map writtenField).map Field.entry))
    (List.forall_mem_map.mpr fun entry _ => fits_writtenField entry)
    (List.forall_mem_map.mpr fun entry member => by
      obtain ⟨lead, complete⟩ := each entry member
      have own : tokensOf (writtenField entry).item.lexemes = inBrackets entry.2.written :=
        tokensOf_placed _
      rw [own]
      exact complete_bracketed complete)
  have values : (entries.map writtenField).map (fun field => (field.name, field.item.value)) = entries := by
    rw [List.map_map]
    exact List.map_id entries
  rw [tokensOf_rowEntries, values] at atom
  exact ⟨_, complete_expression_of_atom ⟨_, _, rfl, rfl⟩ atom⟩

theorem complete_writtenCall (span : Span) {arguments : List Expression}
    (callee : CompleteExpression lead value tokens)
    (each : ∀ item ∈ arguments, ∃ lead, CompleteExpression lead item item.written) :
    CompleteExpression .joining (.call span value arguments)
      (inBrackets tokens ++ inBrackets (Expression.writtenList arguments)) := by
  have call := complete_call (listing_row (arguments.map bracketedItem)) (complete_bracketedItems each)
  have values : (arguments.map bracketedItem).map Item.value = arguments := by
    rw [List.map_map]
    exact List.map_id arguments
  rw [tokensOf_rowItems, values] at call
  exact complete_same (complete_suffixed callee call) rfl

end Rows

section Statements

/-- A sentence with the statement, and its tokens with a semicolon behind them. -/
structure Sentence.Writes (sentence : Sentence) (statement : Statement) (written : List Token) : Prop where
  value : sentence.item.value = statement
  semicolons : sentence.semicolons = [⟨.symbol .semicolon, nowhere⟩]
  tokens : tokensOf sentence.lexemes = written
  complete : CompleteSentence sentence

variable {lead : Lead} {ending : Ending} {statement : Statement} {tokens : List Token}

theorem exists_sentence (complete : CompleteStatement ending lead statement tokens) :
    ∃ sentence : Sentence, sentence.Writes statement (tokens ++ [.symbol .semicolon]) := by
  refine ⟨⟨ending, ⟨lead, statement, placed tokens⟩, [⟨.symbol .semicolon, nowhere⟩]⟩, rfl, rfl, ?_, ?_⟩
  · show tokensOf (placed tokens ++ _) = _
    rw [tokensOf_append, tokensOf_placed]
    rfl
  · unfold CompleteSentence
    dsimp only
    rw [tokensOf_placed]
    exact complete

theorem complete_writtenStatements {statements : List Statement}
    (each : ∀ statement ∈ statements, ∃ sentence : Sentence, sentence.Writes statement statement.written) :
    CompleteStatements statements (Statement.writtenList statements) := by
  have row : ∃ sentences : List Sentence,
      sentences.map (fun sentence => sentence.item.value) = statements ∧
      tokensOf (sentences.flatMap Sentence.lexemes) = Statement.writtenList statements ∧
      ∀ sentence ∈ sentences, sentence.semicolons = [⟨.symbol .semicolon, nowhere⟩] ∧
        CompleteSentence sentence := by
    induction statements with
    | nil => exact ⟨[], rfl, rfl, List.forall_mem_nil _⟩
    | cons statement others ih =>
      obtain ⟨own, behind⟩ := List.forall_mem_cons.mp each
      obtain ⟨sentence, writes⟩ := own
      obtain ⟨sentences, values, written, all⟩ := ih behind
      refine ⟨sentence :: sentences, ?_, ?_,
        List.forall_mem_cons.mpr ⟨⟨writes.semicolons, writes.complete⟩, all⟩⟩
      · rw [List.map_cons, writes.value, values]
      · rw [List.flatMap_cons, tokensOf_append, writes.tokens, written, Statement.writtenList]
  obtain ⟨sentences, rfl, written, all⟩ := row
  have complete := complete_statements [] sentences (List.forall_mem_nil _)
    (fun sentence member => by
      rw [(all sentence member).1]
      exact List.forall_mem_cons.mpr ⟨rfl, fun _ none => by cases none⟩)
    (List.Pairwise.isChain ?_) (fun sentence member => (all sentence member).2)
  · rw [tokensOf_nil, List.nil_append, written] at complete
    exact complete
  · refine List.pairwise_of_forall_mem_list fun first among second _ => .inl ?_
    rw [(all first among).1]
    exact List.cons_ne_nil _ _

mutual

theorem complete_written : ∀ value : Expression, ∃ lead, CompleteExpression lead value value.written
  | .literal span value => by
    have accepts : Nested.literal.accepts? value.written = some value := by
      cases value with
      | text value => exact congrArg (some ∘ Literal.text) (unescapeText_quoted value)
      | bool value => cases value <;> rfl
      | _ => rfl
    have atom := complete_literal ⟨value.written, nowhere⟩ span accepts
    exact ⟨_, complete_expression_of_atom ⟨_, _, rfl, (begins_of_literal accepts).1⟩ atom⟩
  | .array span items => complete_writtenArray span (complete_writtenItems items)
  | .object span entries => complete_writtenObject span (complete_writtenEntries entries)
  | .name span name => ⟨_, complete_expression_of_atom ⟨_, _, rfl, rfl⟩ (complete_name span name)⟩
  | .member span target property =>
    have ⟨_, own⟩ := complete_written target
    ⟨_, complete_same (complete_suffixed own (complete_member property)) rfl⟩
  | .index span target key =>
    have ⟨_, own⟩ := complete_written target
    have ⟨_, within⟩ := complete_written key
    ⟨_, complete_same (complete_suffixed own (complete_index (complete_bracketed within))) rfl⟩
  | .call span callee arguments =>
    have ⟨_, own⟩ := complete_written callee
    ⟨_, complete_writtenCall span own (complete_writtenItems arguments)⟩
  | .arrow span parameters body =>
    have ⟨_, own⟩ := complete_writtenBody body
    complete_writtenArrow span parameters own
  | .unary span operator operand =>
    have ⟨_, own⟩ := complete_written operand
    complete_writtenUnary span operator own
  | .binary span operator left right =>
    have ⟨_, first⟩ := complete_written left
    have ⟨_, second⟩ := complete_written right
    ⟨_, complete_writtenBinary span operator first second⟩
  | .conditional span condition consequent alternative =>
    have ⟨_, asked⟩ := complete_written condition
    have ⟨_, yes⟩ := complete_written consequent
    have ⟨_, no⟩ := complete_written alternative
    ⟨_, complete_conditional span
      (complete_operation_of_operand (complete_bracketedOperand asked nowhere))
      (complete_bracketed yes) (complete_bracketed no)⟩

theorem complete_writtenItems : ∀ items : List Expression,
    ∀ item ∈ items, ∃ lead, CompleteExpression lead item item.written
  | [] => List.forall_mem_nil _
  | item :: rest =>
    List.forall_mem_cons.mpr ⟨complete_written item, complete_writtenItems rest⟩

theorem complete_writtenEntries : ∀ entries : List (String × Expression),
    ∀ entry ∈ entries, ∃ lead, CompleteExpression lead entry.2 entry.2.written
  | [] => List.forall_mem_nil _
  | (_, item) :: rest =>
    List.forall_mem_cons.mpr ⟨complete_written item, complete_writtenEntries rest⟩

theorem complete_writtenBody : ∀ body : Body, ∃ tail, CompleteBody tail body body.written
  | .expression value =>
    have ⟨_, own⟩ := complete_written value
    ⟨_, complete_bodyExpression (fun is : Lead.joining = .braces => by cases is) (complete_bracketed own)⟩
  | .block statements =>
    ⟨_, complete_bodyBlock (complete_block
      (complete_writtenStatements (complete_writtenSentences statements)))⟩

theorem complete_writtenSentence : ∀ statement : Statement,
    ∃ sentence : Sentence, sentence.Writes statement statement.written
  | .binding span name value =>
    have ⟨_, own⟩ := complete_written value
    exists_sentence (complete_binding span name (.inl rfl) (complete_bracketed own))
  | .expression span value =>
    have ⟨_, own⟩ := complete_written value
    exists_sentence (complete_expressionStatement span (fun is : Lead.joining = .keyword => by cases is)
      (complete_bracketed own))
  | .branch span condition consequent none => by
    obtain ⟨_, asked⟩ := complete_written condition
    have yes := complete_block (complete_writtenStatements (complete_writtenSentences consequent))
    have sentence := exists_sentence
      (complete_branch span (complete_bracketed asked) yes complete_nothing)
    simpa only [Statement.written, inBrackets, List.cons_append, List.append_assoc, List.nil_append,
      List.append_nil] using sentence
  | .branch span condition consequent (some alternative) => by
    obtain ⟨_, asked⟩ := complete_written condition
    have yes := complete_block (complete_writtenStatements (complete_writtenSentences consequent))
    have no := complete_block (complete_writtenStatements (complete_writtenSentences alternative))
    have sentence := exists_sentence
      (complete_branch span (complete_bracketed asked) yes (complete_otherwise no))
    simpa only [Statement.written, inBrackets, List.cons_append, List.append_assoc, List.nil_append,
      List.append_nil] using sentence
  | .result span none => exists_sentence (complete_result span)
  | .result span (some value) =>
    have ⟨_, own⟩ := complete_written value
    exists_sentence (complete_resultValue span (complete_bracketed own))

theorem complete_writtenSentences : ∀ statements : List Statement,
    ∀ statement ∈ statements, ∃ sentence : Sentence, sentence.Writes statement statement.written
  | [] => List.forall_mem_nil _
  | statement :: rest =>
    List.forall_mem_cons.mpr ⟨complete_writtenSentence statement, complete_writtenSentences rest⟩

end

end Statements

section Text

/-- A token that can be written in front of a blank. -/
def Token.Writable : Token → Prop
  | .comment _ => False
  | .number value => IsNumeral value
  | .text raw => ∃ cs, raw = String.ofList (escape cs)
  | .name word => IsName word
  | .keyword _ => True
  | .symbol _ => True

/-- The characters of a token. A text gets back its quotes. -/
def Token.write (numerals : Numerals) : Token → List Char
  | .comment content => content.toList
  | .number value => numerals.write value
  | .text raw => '\'' :: (raw.toList ++ ['\''])
  | .name word => word.toList
  | .keyword word => word.spelling.toList
  | .symbol mark => mark.spelling

/-- The tokens with a blank behind each. -/
def writeAll (numerals : Numerals) (tokens : List Token) : List Char :=
  tokens.flatMap (fun token => token.write numerals ++ [' '])

/-- The canonical source of some statements. -/
def canonical (numerals : Numerals) (statements : List Statement) : String :=
  String.ofList (writeAll numerals (Statement.writtenList statements))

variable {numerals : Numerals}

theorem ofWord_spelling (word : Keyword) : Token.ofWord word.spelling = .keyword word := by
  cases word <;> rfl

theorem scan_write {token : Token} (writable : token.Writable) (rest : List Char) :
    scan? (token.write numerals ++ ' ' :: rest) = some ⟨token, token.write numerals, ' ' :: rest⟩ := by
  have keeps : ∀ before, Keeps before (' ' :: rest) := fun before => .separator before rest rfl
  have scanned : Scanned ⟨token, token.write numerals, ' ' :: rest⟩ := by
    cases token with
    | comment => cases writable
    | number value =>
      obtain ⟨_, numeral, token⟩ := numeral_of_scanNumber (numerals.reads value writable)
      dsimp only at numeral token
      have number := Scanned.number (numeral.again (keeps []))
      rw [← token] at number
      exact number
    | text raw =>
      obtain ⟨cs, rfl⟩ := writable
      have text := Scanned.text (' ' :: rest) (.inl rfl) (quoteEnd_escape_append cs)
      rw [Token.write, String.toList_ofList]
      exact text
    | name word =>
      have scanned := Scanned.word (writable.spelled.again (keeps []))
      rw [String.ofList_toList, Token.ofWord, writable.plain] at scanned
      exact scanned
    | keyword word =>
      have spelled : Word word.spelling.toList [] := by
        have parts : word.spelling.toList.all isWordPart = true := by cases word <;> rfl
        refine ⟨?_, List.all_eq_true.mp parts, fun _ none => by cases none⟩
        cases word <;> exact ⟨_, _, rfl, rfl⟩
      have scanned := Scanned.word (spelled.again (keeps []))
      rw [String.ofList_toList, ofWord_spelling] at scanned
      exact scanned
    | symbol mark =>
      refine .symbol mark fun c head => ?_
      cases head
      exact separator_not_extension rfl mark
  refine scanned.scan ?_
  rintro ⟨_, star⟩
  cases star

theorem cuts_writeAll (numerals : Numerals) {tokens : List Token}
    (writable : ∀ token ∈ tokens, token.Writable) (offset : Nat) :
    ∃ lexemes, Cuts offset (writeAll numerals tokens) lexemes ∧ tokensOf lexemes = tokens := by
  have behind : ∀ (tokens : List Token), (∀ token ∈ tokens, token.Writable) → ∀ offset,
      ∃ lexemes, Cuts offset (' ' :: writeAll numerals tokens) lexemes ∧ tokensOf lexemes = tokens := by
    intro tokens
    induction tokens with
    | nil =>
      intro _ offset
      exact ⟨[], .done offset (List.forall_mem_cons.mpr ⟨rfl, fun _ none => by cases none⟩), rfl⟩
    | cons token rest ih =>
      intro writable offset
      obtain ⟨own, others⟩ := List.forall_mem_cons.mp writable
      obtain ⟨lexemes, cuts, are⟩ := ih others
        (offset + byteLength [' '] + byteLength (token.write numerals))
      have shape : ' ' :: writeAll numerals (token :: rest) =
          [' '] ++ (token.write numerals ++ ' ' :: writeAll numerals rest) := by
        unfold writeAll
        rw [List.flatMap_cons, List.append_assoc]
        rfl
      rw [shape]
      refine ⟨_, .token ?_ (scan_write own _) cuts, congrArg (List.cons token) are⟩
      exact List.forall_mem_cons.mpr ⟨rfl, fun _ none => by cases none⟩
  cases tokens with
  | nil => exact ⟨[], .done offset (fun _ none => by cases none), rfl⟩
  | cons token rest =>
    obtain ⟨own, others⟩ := List.forall_mem_cons.mp writable
    obtain ⟨lexemes, cuts, are⟩ := behind rest others
      (offset + byteLength [] + byteLength (token.write numerals))
    have shape : writeAll numerals (token :: rest) =
        [] ++ (token.write numerals ++ ' ' :: writeAll numerals rest) := by
      unfold writeAll
      rw [List.flatMap_cons, List.append_assoc]
      rfl
    rw [shape]
    exact ⟨_, .token (fun _ none => by cases none) (scan_write own _) cuts,
      congrArg (List.cons token) are⟩

end Text

section Accepted

/-- All of the tokens can be written. -/
abbrev AllWritable (tokens : List Token) : Prop := ∀ token ∈ tokens, token.Writable

theorem allWritable_append {first second : List Token} (one : AllWritable first)
    (two : AllWritable second) : AllWritable (first ++ second) :=
  List.forall_mem_append.mpr ⟨one, two⟩

theorem allWritable_symbol (mark : Symbol) {rest : List Token} (others : AllWritable rest) :
    AllWritable (.symbol mark :: rest) := List.forall_mem_cons.mpr ⟨trivial, others⟩

theorem allWritable_keyword (word : Keyword) {rest : List Token} (others : AllWritable rest) :
    AllWritable (.keyword word :: rest) := List.forall_mem_cons.mpr ⟨trivial, others⟩

theorem allWritable_name {word : String} (is : IsName word) {rest : List Token}
    (others : AllWritable rest) : AllWritable (.name word :: rest) :=
  List.forall_mem_cons.mpr ⟨is, others⟩

theorem allWritable_quoted (text : String) {rest : List Token} (others : AllWritable rest) :
    AllWritable (quoted text :: rest) := List.forall_mem_cons.mpr ⟨⟨_, rfl⟩, others⟩

theorem allWritable_nil : AllWritable [] := fun _ none => by cases none

theorem allWritable_between (opening closing : Symbol) {tokens : List Token} (inner : AllWritable tokens) :
    AllWritable (.symbol opening :: (tokens ++ [.symbol closing])) :=
  allWritable_symbol opening (allWritable_append inner (allWritable_symbol closing allWritable_nil))

theorem allWritable_inBrackets {tokens : List Token} (inner : AllWritable tokens) :
    AllWritable (inBrackets tokens) := allWritable_between .roundOpen .roundClose inner

theorem allWritable_names {names : List String} (are : ∀ name ∈ names, IsName name) :
    AllWritable (writtenNames names) := by
  cases names with
  | nil => exact allWritable_nil
  | cons first others =>
    obtain ⟨own, behind⟩ := List.forall_mem_cons.mp are
    refine allWritable_name own fun token member => ?_
    obtain ⟨name, among, within⟩ := List.mem_flatMap.mp member
    exact allWritable_symbol .comma (allWritable_name (behind name among) allWritable_nil) token within

mutual

theorem allWritable_written : ∀ value : Expression, value.Writable → AllWritable value.written
  | .literal _ (.number _), writable => List.forall_mem_cons.mpr ⟨writable, allWritable_nil⟩
  | .literal _ (.text value), _ => allWritable_quoted value allWritable_nil
  | .literal _ (.bool true), _ => allWritable_keyword _ allWritable_nil
  | .literal _ (.bool false), _ => allWritable_keyword _ allWritable_nil
  | .literal _ .null, _ => allWritable_keyword _ allWritable_nil
  | .array _ items, writable =>
    allWritable_between .squareOpen .squareClose (allWritable_writtenList items writable)
  | .object _ entries, writable =>
    allWritable_between .curlyOpen .curlyClose (allWritable_writtenEntries entries writable)
  | .name _ _, writable => allWritable_name writable allWritable_nil
  | .member _ target _, writable =>
    allWritable_append (allWritable_inBrackets (allWritable_written target writable.1))
      (allWritable_symbol .dot (allWritable_name writable.2 allWritable_nil))
  | .index _ target key, writable =>
    allWritable_append (allWritable_inBrackets (allWritable_written target writable.1))
      (allWritable_between .squareOpen .squareClose
        (allWritable_inBrackets (allWritable_written key writable.2)))
  | .call _ callee arguments, writable =>
    allWritable_append (allWritable_inBrackets (allWritable_written callee writable.1))
      (allWritable_inBrackets (allWritable_writtenList arguments writable.2))
  | .arrow _ _ body, writable =>
    allWritable_append (allWritable_inBrackets (allWritable_names writable.1))
      (allWritable_symbol .arrow (allWritable_writtenBody body writable.2))
  | .unary _ operator operand, writable =>
    allWritable_symbol operator.sign (allWritable_inBrackets (allWritable_written operand writable))
  | .binary _ operator left right, writable =>
    allWritable_append (allWritable_inBrackets (allWritable_written left writable.1))
      (allWritable_symbol operator.sign (allWritable_inBrackets (allWritable_written right writable.2)))
  | .conditional _ condition consequent alternative, writable =>
    allWritable_append (allWritable_inBrackets (allWritable_written condition writable.1))
      (allWritable_symbol .question (allWritable_append
        (allWritable_inBrackets (allWritable_written consequent writable.2.1))
        (allWritable_symbol .colon
          (allWritable_inBrackets (allWritable_written alternative writable.2.2)))))

theorem allWritable_writtenList : ∀ items : List Expression,
    Expression.WritableList items → AllWritable (Expression.writtenList items)
  | [], _ => allWritable_nil
  | item :: rest, writable =>
    allWritable_append (allWritable_inBrackets (allWritable_written item writable.1))
      (allWritable_writtenRest rest writable.2)

theorem allWritable_writtenRest : ∀ items : List Expression,
    Expression.WritableList items → AllWritable (Expression.writtenRest items)
  | [], _ => allWritable_nil
  | item :: rest, writable =>
    allWritable_symbol .comma (allWritable_append
      (allWritable_inBrackets (allWritable_written item writable.1))
      (allWritable_writtenRest rest writable.2))

theorem allWritable_writtenEntries : ∀ entries : List (String × Expression),
    Expression.WritableEntries entries → AllWritable (Expression.writtenEntries entries)
  | [], _ => allWritable_nil
  | (key, item) :: rest, writable =>
    allWritable_quoted key (allWritable_symbol .colon (allWritable_append
      (allWritable_inBrackets (allWritable_written item writable.1))
      (allWritable_writtenMore rest writable.2)))

theorem allWritable_writtenMore : ∀ entries : List (String × Expression),
    Expression.WritableEntries entries → AllWritable (Expression.writtenMore entries)
  | [], _ => allWritable_nil
  | (key, item) :: rest, writable =>
    allWritable_symbol .comma (allWritable_quoted key (allWritable_symbol .colon (allWritable_append
      (allWritable_inBrackets (allWritable_written item writable.1))
      (allWritable_writtenMore rest writable.2))))

theorem allWritable_writtenBody : ∀ body : Body, body.Writable → AllWritable body.written
  | .expression value, writable => allWritable_inBrackets (allWritable_written value writable)
  | .block statements, writable =>
    allWritable_between .curlyOpen .curlyClose (allWritable_writtenStatements statements writable)

theorem allWritable_writtenStatement : ∀ statement : Statement,
    statement.Writable → AllWritable statement.written
  | .binding _ _ value, writable =>
    allWritable_keyword _ (allWritable_name writable.1 (allWritable_symbol .assign (allWritable_append
      (allWritable_inBrackets (allWritable_written value writable.2))
      (allWritable_symbol .semicolon allWritable_nil))))
  | .expression _ value, writable =>
    allWritable_append (allWritable_inBrackets (allWritable_written value writable))
      (allWritable_symbol .semicolon allWritable_nil)
  | .branch _ condition consequent none, writable =>
    allWritable_keyword _ (allWritable_append
      (allWritable_inBrackets (allWritable_inBrackets (allWritable_written condition writable.1)))
      (allWritable_append
        (allWritable_between .curlyOpen .curlyClose (allWritable_writtenStatements consequent writable.2))
        (allWritable_symbol .semicolon allWritable_nil)))
  | .branch _ condition consequent (some alternative), writable =>
    allWritable_keyword _ (allWritable_append
      (allWritable_inBrackets (allWritable_inBrackets (allWritable_written condition writable.1)))
      (allWritable_append
        (allWritable_between .curlyOpen .curlyClose (allWritable_writtenStatements consequent writable.2.1))
        (allWritable_append
          (allWritable_keyword _ (allWritable_between .curlyOpen .curlyClose
            (allWritable_writtenStatements alternative writable.2.2)))
          (allWritable_symbol .semicolon allWritable_nil))))
  | .result _ none, _ => allWritable_keyword _ (allWritable_symbol .semicolon allWritable_nil)
  | .result _ (some value), writable =>
    allWritable_keyword _ (allWritable_append
      (allWritable_inBrackets (allWritable_written value writable))
      (allWritable_symbol .semicolon allWritable_nil))

theorem allWritable_writtenStatements : ∀ statements : List Statement,
    Statement.WritableList statements → AllWritable (Statement.writtenList statements)
  | [], _ => allWritable_nil
  | statement :: rest, writable =>
    allWritable_append (allWritable_writtenStatement statement writable.1)
      (allWritable_writtenStatements rest writable.2)

end

/-- The canonical source of statements is accepted and read as just these, up to places. -/
theorem program_canonical (numerals : Numerals) (statements : List Statement)
    (writable : Statement.WritableList statements) :
    ∃ read, program (canonical numerals statements) = .ok read ∧
      Statement.bareList read = Statement.bareList statements := by
  have tokens := allWritable_writtenStatements statements writable
  obtain ⟨lexemes, cuts, are⟩ := cuts_writeAll numerals tokens 0
  have source : (canonical numerals statements).toList =
      writeAll numerals (Statement.writtenList statements) := String.toList_ofList
  have noComments : withoutComments lexemes = lexemes := by
    refine List.filter_eq_self.mpr fun lexeme member => ?_
    have writes := tokens lexeme.token (are ▸ List.mem_map_of_mem member)
    cases token : lexeme.token with
    | comment content =>
      rw [token] at writes
      cases writes
    | _ => rfl
  refine program_of_complete (source ▸ cuts) ?_
  rw [noComments, are]
  exact complete_writtenStatements (complete_writtenSentences statements)

/-- A call whose argument is an arrow function with two branches, behind a binding. -/
def branching : List Statement :=
  [.binding nowhere "one" (.literal nowhere (.number (ofPlainDigits ['1']))),
    .expression nowhere (.call nowhere (.name nowhere "Text") [
      .arrow nowhere ["state", "$_"] (.block [
        .branch nowhere (.unary nowhere .not (.name nowhere "state"))
          [.result nowhere (some (.index nowhere (.array nowhere []) (.name nowhere "one")))]
          (some [.expression nowhere (.object nowhere [("it's", .literal nowhere (.text "a\\b"))]),
            .result nowhere none])])])]

/-- The canonical source of the call is read as it. -/
theorem program_canonical_branching :
    Statement.WritableList branching ∧
      ∃ read, program (canonical someNumerals branching) = .ok read ∧
        Statement.bareList read = Statement.bareList branching := by
  have name : ∀ word : String, (∃ c more, word.toList = c :: more ∧ isWordStart c = true) →
      word.toList.all isWordPart = true → Keyword.ofWord? word = none → IsName word :=
    fun word first parts plain =>
      ⟨⟨first, List.all_eq_true.mp parts, fun _ none => by cases none⟩, plain⟩
  have one : IsName "one" := name _ ⟨_, _, rfl, rfl⟩ rfl rfl
  have text : IsName "Text" := name _ ⟨_, _, rfl, rfl⟩ rfl rfl
  have state : IsName "state" := name _ ⟨_, _, rfl, rfl⟩ rfl rfl
  have dollar : IsName "$_" := name _ ⟨_, _, rfl, rfl⟩ rfl rfl
  have number : IsNumeral (ofPlainDigits ['1']) := ⟨['1'], rfl⟩
  have writable : Statement.WritableList branching :=
    ⟨⟨one, number⟩, ⟨text, ⟨List.forall_mem_cons.mpr ⟨state, List.forall_mem_cons.mpr
      ⟨dollar, fun _ none => by cases none⟩⟩, ⟨state, ⟨⟨trivial, one⟩, trivial⟩,
        ⟨⟨trivial, trivial⟩, trivial, trivial⟩⟩, trivial⟩, trivial⟩, trivial⟩
  exact ⟨writable, program_canonical someNumerals branching writable⟩

end Accepted

end ScreenStudio.Source
