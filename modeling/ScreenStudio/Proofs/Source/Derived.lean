/- digest: The rules read whatever has a derivation as the derivation says. -/

import ScreenStudio.Proofs.Source.Statements

set_option autoImplicit false
set_option relaxedAutoImplicit false

namespace ScreenStudio.Source

open Nested (Suffix applySuffix applyPrefix ofLevels)
open Rule (Reads Misses Takes ReadsEach ReadsListed joined listed behindComma)

section Single

variable {lead : Lead} {tail : Tail} {value : Expression} {tokens : List Token}

theorem complete_chain_of_atom (atom : CompleteAtom lead tail value tokens) :
    CompleteChain lead tail value tokens := by
  have chain := complete_chain [] atom (fun _ => rfl) (List.forall_mem_nil _)
  rw [List.flatMap_nil, tokensOf_nil, List.append_nil] at chain
  exact chain

theorem complete_operation_of_operand {operand : Operand}
    (complete : CompleteOperand lead tail operand tokens) :
    CompleteOperation lead tail operand.expression tokens := by
  have operation := complete_operation [] (List.forall_mem_nil _) complete trivial
    (List.forall_mem_nil _)
  rw [List.flatMap_nil, tokensOf_nil, List.append_nil] at operation
  exact operation

theorem complete_expression_of_operand {operand : Operand}
    (complete : CompleteOperand lead tail operand tokens) :
    CompleteExpression lead operand.expression tokens :=
  complete_plain (complete_operation_of_operand complete)

theorem complete_operand_of_chain (extent : Span)
    (first : ∃ found more, tokens = found :: more ∧ found.beginsAtom = true)
    (chain : CompleteChain lead tail value tokens) :
    CompleteOperand lead tail ⟨value, extent⟩ tokens :=
  complete_operand extent [] (List.forall_mem_nil _) first chain

theorem complete_expression_of_atom
    (first : ∃ found more, tokens = found :: more ∧ found.beginsAtom = true)
    (atom : CompleteAtom lead tail value tokens) : CompleteExpression lead value tokens :=
  complete_expression_of_operand (complete_operand_of_chain nowhere first (complete_chain_of_atom atom))

theorem complete_nameExpression (word : String) :
    CompleteExpression .free (.name nowhere word) [.name word] :=
  complete_expression_of_atom ⟨_, _, rfl, rfl⟩ (complete_name nowhere word)

theorem complete_key {key : Token} {name : String} (is : Nested.key.accepts? key = some name) :
    ∃ value, CompleteExpression .free value [key] := by
  rcases key_cases is with rfl | ⟨raw, rfl, _⟩
  · exact ⟨_, complete_nameExpression name⟩
  · have atom : CompleteAtom .free .firm (.literal nowhere (.text (unescapeText raw)))
        (tokensOf [⟨.text raw, nowhere⟩]) := complete_literal ⟨.text raw, nowhere⟩ nowhere rfl
    exact ⟨_, complete_expression_of_atom ⟨_, _, rfl, rfl⟩ atom⟩

theorem misses_block_of_key {key : Token} {name : String} {more : List Token} {level : Nat}
    (is : Nested.key.accepts? key = some name)
    (enough : (Token.symbol .curlyOpen :: key :: .symbol .colon :: more).length ≤ level) :
    Misses (ofLevels level).block (.symbol .curlyOpen :: key :: .symbol .colon :: more) := by
  obtain ⟨value, complete⟩ := complete_key is
  let sentence : Sentence := ⟨.value, ⟨.free, .expression nowhere value, [⟨key, nowhere⟩]⟩, []⟩
  have single := complete_statements [] [sentence] (List.forall_mem_nil _)
    (List.forall_mem_cons.mpr ⟨List.forall_mem_nil _, List.forall_mem_nil _⟩)
    (List.isChain_singleton _)
    (List.forall_mem_cons.mpr
      ⟨complete_expressionStatement nowhere (fun is => by cases is) complete,
        List.forall_mem_nil _⟩)
  have stops : FirstToken Token.Stops (.symbol .colon :: more) := by
    refine firstToken_cons.mpr ⟨rfl, rfl, rfl, ?_, ?_⟩
    · exact fun is => by cases is
    · exact fun is => by cases is
  exact Rule.misses_between_second
    (reads_nested_statements (fun level => single _ level stops) enough)
    (fun same => by cases same)

end Single

section Suffixes

variable {items : List (Item Expression)} {trailing : Bool} {inner : List Lexeme} {rest : List Token}
  {level : Nat}

theorem complete_call (listing : Listing items trailing inner)
    (each : ∀ item ∈ items, CompleteExpression item.lead item.value (tokensOf item.lexemes)) :
    CompleteSuffix (.call (items.map Item.value))
      (.symbol .roundOpen :: (tokensOf inner ++ [.symbol .roundClose])) := by
  refine ⟨fun rest level enough => ?_, _, _, rfl, .inl rfl⟩
  refine Rule.reads_orElse (Rule.reads_map (Rule.reads_between (reads_items listing each ⟨rfl, rfl⟩
    (fun is => by cases is) ?_)) fun values same => ?_)
  · simp only [List.cons_append, List.append_assoc, List.nil_append, List.length_cons] at enough
    omega
  · rw [Suffix.bare, Suffix.bare, Expression.bareList_eq_map, Expression.bareList_eq_map, same,
      List.map_map]
    rfl

theorem complete_member (word : String) :
    CompleteSuffix (.member word) [.symbol .dot, .name word] := by
  refine ⟨fun rest level _ => ?_, _, _, rfl, .inr (.inl rfl)⟩
  have member : Reads (do Rule.symbol .dot; let property ← Rule.name; return Suffix.member property)
      ([.symbol .dot] ++ [.name word]) rest (fun read => read.bare = (Suffix.member word).bare) := by
    refine Rule.reads_bind (Rule.reads_symbol .dot) fun _ _ => ?_
    exact Rule.reads_map (Rule.reads_name word) fun read is => by rw [is]
  refine Rule.reads_orElse_second (Rule.misses_bind (Rule.misses_between fun same => by cases same)) ?_
  exact Rule.reads_orElse member

theorem complete_index {lead : Lead} {value : Expression} {tokens : List Token}
    (within : CompleteExpression lead value tokens) :
    CompleteSuffix (.index value) (.symbol .squareOpen :: (tokens ++ [.symbol .squareClose])) := by
  refine ⟨fun rest level enough => ?_, _, _, rfl, .inr (.inr rfl)⟩
  have index : Reads (do
        let key ← Rule.between .squareOpen (ofLevels level).expression .squareClose
        return Suffix.index key) (.symbol .squareOpen :: (tokens ++ [.symbol .squareClose])) rest
      (fun read => read.bare = (Suffix.index value).bare) := by
    refine Rule.reads_map (Rule.reads_between (reads_nested (fun level => within.reads _ level ?_) ?_))
      fun read same => ?_
    · exact endsExpression_of_first (firstToken_cons.mpr rfl)
    · simp only [List.cons_append, List.append_assoc, List.nil_append, List.length_cons] at enough
      omega
    · unfold Expression.Same at same
      rw [Suffix.bare, Suffix.bare, same]
  refine Rule.reads_orElse_second (Rule.misses_bind (Rule.misses_between fun same => by cases same)) ?_
  refine Rule.reads_orElse_second (Rule.misses_bind (Rule.misses_symbol fun same => by cases same)) ?_
  exact Rule.reads_orElse index

/-- Items in square brackets are no index, unless there is a single one without a comma behind it. -/
theorem misses_index (listing : Listing items trailing inner)
    (each : ∀ item ∈ items, CompleteExpression item.lead item.value (tokensOf item.lexemes))
    (several : ¬ (items.length = 1 ∧ trailing = false))
    (enough : (Token.symbol .squareOpen :: (tokensOf inner ++ .symbol .squareClose :: rest)).length ≤ level) :
    Misses (Rule.between .squareOpen (ofLevels level).expression .squareClose)
      (.symbol .squareOpen :: (tokensOf inner ++ .symbol .squareClose :: rest)) := by
  cases listing with
  | empty =>
    exact Rule.misses_between_first
      (misses_nested (fun _ => misses_expression (firstToken_cons.mpr rfl)) level)
  | row first others trailing commas last =>
    have behind : ∃ more, tokensOf
        (others.flatMap (fun other => other.1 :: other.2.lexemes) ++ trailing.toList) =
        .symbol .comma :: more := by
      cases others with
      | cons other others =>
        refine ⟨tokensOf (other.2.lexemes ++ others.flatMap (fun other => other.1 :: other.2.lexemes)
          ++ trailing.toList), ?_⟩
        rw [← commas other (List.mem_cons_self ..)]
        rfl
      | nil =>
        cases trailing with
        | none => exact absurd ⟨rfl, rfl⟩ several
        | some lexeme => exact ⟨[], by rw [← last lexeme rfl]; rfl⟩
    obtain ⟨more, is⟩ := behind
    rw [tokensOf_append, is, List.append_assoc] at enough ⊢
    refine Rule.misses_between_second (reads_nested (fun level =>
      (each first (List.mem_cons_self ..)).reads _ level ?_) enough) (fun same => by cases same)
    exact endsExpression_of_first (firstToken_cons.mpr rfl)

end Suffixes

section Atoms

variable {lead : Lead} {tail : Tail} {inner : List Lexeme}

private theorem head_ne_of_ne {first other : Symbol} (distinct : first ≠ other) {more : List Token} :
    (Token.symbol first :: more).head? ≠ some (.symbol other) :=
  fun same => distinct (Token.symbol.inj (Option.some.inj same))

private theorem reads_array (span : Span) {items : List (Item Expression)} {trailing : Bool}
    (listing : Listing items trailing inner)
    (each : ∀ item ∈ items, CompleteExpression item.lead item.value (tokensOf item.lexemes))
    (rest : List Token) (level : Nat)
    (enough : (Token.symbol .squareOpen :: (tokensOf inner ++ [.symbol .squareClose]) ++ rest).length ≤ level) :
    Reads (ofLevels level).atom (.symbol .squareOpen :: (tokensOf inner ++ [.symbol .squareClose])) rest
      (Expression.Same (.array span (items.map Item.value))) := by
  refine reads_atom_otherwise rfl (misses_arrow (fun _ same => by cases same)
    (head_ne_of_ne (by decide))) ?_
  refine Rule.reads_orElse_second (Rule.misses_bind (misses_literal (firstToken_cons.mpr rfl))) ?_
  refine Rule.reads_orElse (Rule.reads_map (Rule.reads_between (reads_items listing each ⟨rfl, rfl⟩
    (fun is => by cases is) ?_)) fun values same place => ?_)
  · simp only [List.cons_append, List.append_assoc, List.nil_append, List.length_cons] at enough
    omega
  · rw [Expression.bare, Expression.bare, Expression.bareList_eq_map, Expression.bareList_eq_map, same,
      List.map_map]
    rfl

private theorem takes_index_of_single {items : List (Item Expression)} {trailing : Bool}
    (listing : Listing items trailing inner)
    (each : ∀ item ∈ items, CompleteExpression item.lead item.value (tokensOf item.lexemes))
    (single : items.length = 1 ∧ trailing = false) (rest : List Token) (level : Nat)
    (enough : (Token.symbol .squareOpen :: (tokensOf inner ++ [.symbol .squareClose]) ++ rest).length ≤ level) :
    Takes (ofLevels level).suffix
      (.symbol .squareOpen :: (tokensOf inner ++ [.symbol .squareClose]) ++ rest) := by
  obtain ⟨one, noComma⟩ := single
  cases listing with
  | empty => cases one
  | row first others trailing commas last =>
    cases others with
    | cons other others => cases one
    | nil =>
      cases trailing with
      | some lexeme => cases noComma
      | none =>
        have row : tokensOf (first.lexemes ++ ([].flatMap
            (fun other : Lexeme × Item Expression => other.1 :: other.2.lexemes)
            ++ Option.toList none)) = tokensOf first.lexemes := by
          rw [List.flatMap_nil, Option.toList_none, List.append_nil, List.append_nil]
        rw [row] at enough ⊢
        exact ((complete_index (each first (List.mem_cons_self ..))).reads rest level enough).takes

private theorem misses_suffix_of_several {items : List (Item Expression)} {trailing : Bool}
    (listing : Listing items trailing inner)
    (each : ∀ item ∈ items, CompleteExpression item.lead item.value (tokensOf item.lexemes))
    (several : ¬ (items.length = 1 ∧ trailing = false)) (rest : List Token) (level : Nat)
    (enough : (Token.symbol .squareOpen :: (tokensOf inner ++ [.symbol .squareClose]) ++ rest).length ≤ level) :
    Misses (ofLevels level).suffix
      (.symbol .squareOpen :: (tokensOf inner ++ [.symbol .squareClose]) ++ rest) := by
  have shape : Token.symbol .squareOpen :: (tokensOf inner ++ [.symbol .squareClose]) ++ rest =
      .symbol .squareOpen :: (tokensOf inner ++ .symbol .squareClose :: rest) := by
    simp only [List.cons_append, List.append_assoc, List.nil_append]
  rw [shape] at enough ⊢
  refine Rule.misses_orElse (Rule.misses_bind (Rule.misses_between fun same => by cases same)) ?_
  refine Rule.misses_orElse (Rule.misses_bind (Rule.misses_symbol fun same => by cases same)) ?_
  exact Rule.misses_orElse (Rule.misses_bind (misses_index listing each several enough)) Rule.misses_fail

theorem complete_array (span : Span) {items : List (Item Expression)} {trailing : Bool}
    (listing : Listing items trailing inner)
    (each : ∀ item ∈ items, CompleteExpression item.lead item.value (tokensOf item.lexemes)) :
    CompleteAtom (if items.length = 1 ∧ trailing = false then .joining else .free) .firm
      (.array span (items.map Item.value))
      (.symbol .squareOpen :: (tokensOf inner ++ [.symbol .squareClose])) := by
  have reads := reads_array span listing each
  by_cases single : items.length = 1 ∧ trailing = false
  · rw [if_pos single]
    exact ⟨fun rest level _ => reads rest level, fun rest level enough => (reads rest level enough).takes,
      fun _ rest level enough => .inl (takes_index_of_single listing each single rest level enough),
      Starts.of_joining rfl (fun is => by cases is) (fun _ is => by cases is)⟩
  · rw [if_neg single]
    exact ⟨fun rest level _ => reads rest level, fun rest level enough => (reads rest level enough).takes,
      fun is => (by cases is), ⟨_, _, rfl, rfl⟩,
      fun _ => misses_suffix_of_several listing each single,
      fun _ same => (by cases same), fun is => (by cases is),
      fun _ rest level _ => misses_block (head_ne_of_ne (by decide)), fun _ _ _ is => (by cases is)⟩

/-- The entries of an object, up to places. -/
private def bareEntry (entry : String × Expression) : String × Expression := (entry.1, entry.2.bare)

private theorem readsListed_entry {field : Field} (fits : field.Fits)
    (value : CompleteExpression field.item.lead field.item.value (tokensOf field.item.lexemes))
    {rest : List Token} (closes : FirstToken (fun found => found.continues = false) rest)
    {length level : Nat} (enough : length < level) :
    ReadsListed (ofLevels level).entry bareEntry length rest
      (tokensOf field.entry.lexemes, bareEntry field.entry.value) := by
  refine ⟨List.cons_ne_nil _ _, fun after short follows => ?_⟩
  have row : tokensOf field.entry.lexemes =
      [field.key.token] ++ ([.symbol .colon] ++ tokensOf field.item.lexemes) := by
    rw [← fits.colon]
    rfl
  obtain ⟨_, reads⟩ := readsListed_expression value closes enough
  have lengths : (tokensOf field.entry.lexemes).length = (tokensOf field.item.lexemes).length + 2 := rfl
  dsimp only at short
  dsimp only
  rw [row]
  refine Rule.reads_bind (isToken_key.reads fits.key) fun name is => ?_
  refine Rule.reads_bind (Rule.reads_symbol .colon) fun _ _ => ?_
  refine Rule.reads_map (reads after (by dsimp only; omega) follows) fun read same => ?_
  rw [is]
  exact Prod.ext rfl same

private theorem reads_fields {fields : List Field} {trailing : Bool}
    (listing : Listing (fields.map Field.entry) trailing inner) (fits : ∀ field ∈ fields, field.Fits)
    (each : ∀ field ∈ fields,
      CompleteExpression field.item.lead field.item.value (tokensOf field.item.lexemes))
    {rest : List Token} {level : Nat}
    (enough : (tokensOf inner ++ .symbol .curlyClose :: rest).length < level) :
    Reads (Rule.separated (ofLevels level).entry) (tokensOf inner) (.symbol .curlyClose :: rest)
      (fun values => values.map bareEntry = fields.map (fun field => bareEntry field.entry.value)) := by
  have noKey : Misses (ofLevels level).entry (.symbol .curlyClose :: rest) :=
    Rule.misses_bind (isToken_key.misses (firstToken_cons.mpr rfl))
  rw [listing.tokens bareEntry, List.map_map] at enough ⊢
  have all : ∀ part ∈ fields.map
      ((fun item => (tokensOf item.lexemes, bareEntry item.value)) ∘ Field.entry),
      ReadsListed (ofLevels level).entry bareEntry _ (.symbol .curlyClose :: rest) part :=
    List.forall_mem_map.mpr fun field member =>
      readsListed_entry (fits field member) (each field member) (firstToken_cons.mpr rfl) enough
  refine (Rule.reads_separated all noKey fun same => by cases same).weaken fun values are => ?_
  rw [are, List.map_map]
  rfl

private theorem reads_object (span : Span) {fields : List Field} {trailing : Bool}
    (listing : Listing (fields.map Field.entry) trailing inner) (fits : ∀ field ∈ fields, field.Fits)
    (each : ∀ field ∈ fields,
      CompleteExpression field.item.lead field.item.value (tokensOf field.item.lexemes))
    (rest : List Token) (level : Nat)
    (enough : (Token.symbol .curlyOpen :: (tokensOf inner ++ [.symbol .curlyClose]) ++ rest).length ≤ level) :
    Reads (ofLevels level).atom (.symbol .curlyOpen :: (tokensOf inner ++ [.symbol .curlyClose])) rest
      (Expression.Same (.object span (fields.map (fun field => (field.name, field.item.value))))) := by
  have fitting : (tokensOf inner ++ .symbol .curlyClose :: rest).length < level := by
    simp only [List.cons_append, List.append_assoc, List.nil_append, List.length_cons] at enough
    omega
  refine reads_atom_otherwise rfl (misses_arrow (fun _ same => by cases same)
    (head_ne_of_ne (by decide))) ?_
  refine Rule.reads_orElse_second (Rule.misses_bind (misses_literal (firstToken_cons.mpr rfl))) ?_
  refine Rule.reads_orElse_second (Rule.misses_bind (Rule.misses_between (head_ne_of_ne (by decide)))) ?_
  refine Rule.reads_orElse (Rule.reads_map (Rule.reads_between
    (reads_fields listing fits each fitting)) fun values same place => ?_)
  rw [Expression.bare, Expression.bare, Expression.bareEntries_eq_map, Expression.bareEntries_eq_map,
    List.map_map]
  exact congrArg (Expression.object nowhere) same

private theorem takes_block_of_empty {trailing : Bool}
    (listing : Listing (List.map Field.entry []) trailing inner) (rest : List Token) (level : Nat)
    (enough : (Token.symbol .curlyOpen :: (tokensOf inner ++ [.symbol .curlyClose]) ++ rest).length ≤ level) :
    Takes (ofLevels level).block
      (.symbol .curlyOpen :: (tokensOf inner ++ [.symbol .curlyClose]) ++ rest) := by
  cases listing
  have none := complete_statements [] [] (List.forall_mem_nil _)
    (List.forall_mem_nil _) .nil (List.forall_mem_nil _)
  exact (complete_block none rest level enough).takes

private theorem misses_block_of_field {field : Field} {fields : List Field} {trailing : Bool}
    (listing : Listing ((field :: fields).map Field.entry) trailing inner) (fit : field.Fits)
    (rest : List Token) (level : Nat)
    (enough : (Token.symbol .curlyOpen :: (tokensOf inner ++ [.symbol .curlyClose]) ++ rest).length ≤ level) :
    Misses (ofLevels level).block
      (.symbol .curlyOpen :: (tokensOf inner ++ [.symbol .curlyClose]) ++ rest) := by
  have shape : ∃ more, tokensOf inner = field.key.token :: .symbol .colon :: more := by
    generalize others : (field :: fields).map Field.entry = entries at listing
    cases listing with
    | empty => cases others
    | row first others trailing _ _ =>
      obtain ⟨rfl, _⟩ := List.cons.inj ‹_›
      rw [← fit.colon]
      exact ⟨_, rfl⟩
  obtain ⟨more, is⟩ := shape
  rw [is] at enough ⊢
  exact misses_block_of_key fit.key enough

theorem complete_object (span : Span) {fields : List Field} {trailing : Bool}
    (listing : Listing (fields.map Field.entry) trailing inner) (fits : ∀ field ∈ fields, field.Fits)
    (each : ∀ field ∈ fields,
      CompleteExpression field.item.lead field.item.value (tokensOf field.item.lexemes)) :
    CompleteAtom (if fields = [] then .braces else .free) .firm
      (.object span (fields.map (fun field => (field.name, field.item.value))))
      (.symbol .curlyOpen :: (tokensOf inner ++ [.symbol .curlyClose])) := by
  have reads := reads_object span listing fits each
  have apart : ∀ (rest : List Token) (level : Nat), Misses (ofLevels level).suffix
      (Token.symbol .curlyOpen :: (tokensOf inner ++ [.symbol .curlyClose]) ++ rest) :=
    fun rest level => misses_suffix (head_ne_of_ne (by decide)) (head_ne_of_ne (by decide))
      (head_ne_of_ne (by decide))
  cases fields with
  | nil =>
    exact ⟨fun rest level _ => reads rest level, fun rest level enough => (reads rest level enough).takes,
      fun is => (by cases is), ⟨_, _, rfl, rfl⟩, fun _ rest level _ => apart rest level,
      fun _ same => (by cases same), fun _ => takes_block_of_empty listing, fun is => absurd rfl is,
      fun _ _ _ is => (by cases is)⟩
  | cons field fields =>
    have fit := fits field (List.mem_cons_self ..)
    rw [if_neg (List.cons_ne_nil field fields)]
    exact ⟨fun rest level _ => reads rest level, fun rest level enough => (reads rest level enough).takes,
      fun is => (by cases is), ⟨_, _, rfl, rfl⟩, fun _ rest level _ => apart rest level,
      fun _ same => (by cases same), fun is => (by cases is), fun _ => misses_block_of_field listing fit,
      fun _ _ _ is => (by cases is)⟩

private theorem reads_names (words : List String) (trailing : Bool) {rest : List Token}
    (noName : ∀ word, rest.head? ≠ some (.name word)) (noComma : rest.head? ≠ some (.symbol .comma)) :
    Reads (Rule.separated Rule.name)
      (listed (words.map (fun word => ([Token.name word], word))) trailing) rest
      (fun read => read = words) := by
  have each : ∀ part ∈ words.map (fun word => ([Token.name word], word)),
      ReadsListed Rule.name id
        (listed (words.map (fun word => ([Token.name word], word))) trailing ++ rest).length rest part :=
    List.forall_mem_map.mpr fun word _ => ⟨List.cons_ne_nil _ _, fun _ _ _ => Rule.reads_name word⟩
  refine (Rule.reads_separated each (Rule.misses_name noName) noComma).weaken fun read same => ?_
  rw [List.map_id, List.map_map] at same
  exact same.trans (List.map_id words)

private theorem noComma_of_ne {first : Token} {rest : List Token} (different : first ≠ .symbol .comma) :
    (first :: rest).head? ≠ some (.symbol .comma) :=
  fun same => different (Option.some.inj same)

private theorem misses_single_of_bracket {ahead : List Token} :
    Misses (do let parameter ← Rule.name; return [parameter]) (.symbol .roundOpen :: ahead) :=
  Rule.misses_bind (Rule.misses_name fun _ same => by cases same)

private theorem misses_arrow_of_name {value : Expression} {word : String} {more rest : List Token}
    {inner : Nested} (within : CompleteExpression lead value (.name word :: more)) (ends : EndsAtom rest) :
    Misses inner.arrow (.symbol .roundOpen :: (.name word :: more ++ .symbol .roundClose :: rest)) := by
  have single : ∀ {rest : List Token}, (∀ word, rest.head? ≠ some (.name word)) →
      rest.head? ≠ some (.symbol .comma) →
      Reads (Rule.separated Rule.name) [.name word] rest (fun _ => True) :=
    fun noName noComma => (reads_names [word] false noName noComma).weaken fun _ _ => trivial
  cases more with
  | nil =>
    have listed : Reads Nested.parameters
        (.symbol .roundOpen :: ([.name word] ++ [.symbol .roundClose])) rest (fun _ => True) := by
      refine Rule.reads_orElse_second misses_single_of_bracket (Rule.reads_between (single ?_ ?_))
      · exact fun _ same => by cases same
      · exact noComma_of_ne fun same => by cases same
    exact Rule.misses_bind_second listed fun _ _ => Rule.misses_bind (Rule.misses_symbol ends)
  | cons next more =>
    have continues := within.starts.second word next more rfl
    have distinct : ∀ other : Token, other.continues = false → next ≠ other := by
      rintro other none rfl
      exact absurd (none.symm.trans continues) Bool.false_ne_true
    refine Rule.misses_bind (Rule.misses_orElse misses_single_of_bracket ?_)
    have one : Reads (Rule.separated Rule.name) [.name word]
        (next :: (more ++ .symbol .roundClose :: rest)) (fun _ => True) :=
      single (fun other same => distinct (.name other) rfl (Option.some.inj same))
        (noComma_of_ne (distinct _ rfl))
    have last : Misses (Rule.between .roundOpen (Rule.separated Rule.name) .roundClose)
        (.symbol .roundOpen :: ([.name word] ++ next :: (more ++ .symbol .roundClose :: rest))) :=
      Rule.misses_between_second one fun same => distinct _ rfl (Option.some.inj same)
    exact last

private theorem misses_arrow_of_no_name {first : Token} {more rest : List Token} {inner : Nested}
    (begins : first.begins = true) (noName : ∀ word, first ≠ .name word) :
    Misses inner.arrow (.symbol .roundOpen :: (first :: more ++ .symbol .roundClose :: rest)) := by
  have distinct : ∀ other : Token, other.begins = false → first ≠ other := by
    rintro other none rfl
    exact absurd (none.symm.trans begins) Bool.false_ne_true
  have nothing : Reads (Rule.separated Rule.name) [] (first :: (more ++ .symbol .roundClose :: rest))
      (fun _ => True) := by
    refine (reads_names [] false (fun word same => ?_) (noComma_of_ne ?_)).weaken fun _ _ => trivial
    · exact noName word (Option.some.inj same)
    · exact distinct _ rfl
  have last : Misses (Rule.between .roundOpen (Rule.separated Rule.name) .roundClose)
      (.symbol .roundOpen :: ([] ++ first :: (more ++ .symbol .roundClose :: rest))) :=
    Rule.misses_between_second nothing fun same => distinct _ rfl (Option.some.inj same)
  exact Rule.misses_bind (Rule.misses_orElse misses_single_of_bracket last)

private theorem misses_arrow_of_brackets {value : Expression} {tokens rest : List Token} {inner : Nested}
    (within : CompleteExpression lead value tokens) (ends : EndsAtom rest) :
    Misses inner.arrow (.symbol .roundOpen :: (tokens ++ .symbol .roundClose :: rest)) := by
  obtain ⟨first, more, rfl, begins⟩ := within.starts.begins
  by_cases named : ∃ word, first = .name word
  · obtain ⟨word, rfl⟩ := named
    exact misses_arrow_of_name within ends
  · exact misses_arrow_of_no_name begins fun word is => named ⟨word, is⟩

theorem complete_brackets {value : Expression} {tokens : List Token}
    (within : CompleteExpression lead value tokens) :
    CompleteAtom .joining .firm value (.symbol .roundOpen :: (tokens ++ [.symbol .roundClose])) := by
  have closed : ∀ rest, EndsExpression (.symbol .roundClose :: rest) :=
    fun rest => endsExpression_of_first (firstToken_cons.mpr rfl)
  have between : ∀ rest level,
      (Token.symbol .roundOpen :: (tokens ++ [.symbol .roundClose]) ++ rest).length ≤ level →
      Reads (Rule.between .roundOpen (ofLevels level).expression .roundClose)
        (.symbol .roundOpen :: (tokens ++ [.symbol .roundClose])) rest value.Same := by
    intro rest level enough
    refine Rule.reads_between (reads_nested (fun level => within.reads _ level (closed rest)) ?_)
    simp only [List.cons_append, List.append_assoc, List.nil_append, List.length_cons] at enough
    omega
  refine ⟨fun rest level ends enough => ?_,
    fun rest level enough => Rule.takes_orElse_second (between rest level enough).takes,
    fun _ rest level enough => .inl ?_,
    Starts.of_joining rfl (fun is => by cases is) (fun _ is => by cases is)⟩
  · have shape : Token.symbol .roundOpen :: (tokens ++ [.symbol .roundClose]) ++ rest =
        .symbol .roundOpen :: (tokens ++ .symbol .roundClose :: rest) := by
      simp only [List.cons_append, List.append_assoc, List.nil_append]
    have bare : Misses (ofLevels level).bareAtom
        (.symbol .roundOpen :: (tokens ++ [.symbol .roundClose]) ++ rest) := by
      refine Rule.misses_orElse ?_ ?_
      · rw [shape]
        exact misses_arrow_of_brackets within ends
      refine Rule.misses_orElse (Rule.misses_bind (misses_literal (firstToken_cons.mpr rfl))) ?_
      refine Rule.misses_orElse (Rule.misses_bind (Rule.misses_between fun same => by cases same)) ?_
      refine Rule.misses_orElse (Rule.misses_bind (Rule.misses_between fun same => by cases same)) ?_
      exact Rule.misses_orElse (Rule.misses_bind (Rule.misses_name fun _ same => by cases same))
        Rule.misses_fail
    exact Rule.reads_orElse_second (Rule.misses_bind (Rule.misses_located bare)) (between rest level enough)
  · let item : Item Expression := ⟨lead, value, tokens.map (⟨·, nowhere⟩)⟩
    have own : tokensOf item.lexemes = tokens := by
      show (tokens.map (⟨·, nowhere⟩)).map Lexeme.token = tokens
      rw [List.map_map]
      exact List.map_id tokens
    have each : ∀ other ∈ [item], CompleteExpression other.lead other.value (tokensOf other.lexemes) := by
      refine List.forall_mem_cons.mpr ⟨?_, List.forall_mem_nil _⟩
      rw [own]
      exact within
    have listing : Listing [item] false (item.lexemes ++ ([] ++ [])) :=
      .row item [] none (List.forall_mem_nil _) (fun _ member => by cases member)
    have call := (complete_call listing each).reads rest level
    rw [List.append_nil, List.append_nil, own] at call
    exact (call enough).takes

private theorem Listing.map {α β : Type} {items : List (Item α)} {trailing : Bool}
    (listing : Listing items trailing inner) (change : Item α → Item β)
    (keeps : ∀ item, (change item).lexemes = item.lexemes) :
    Listing (items.map change) trailing inner := by
  cases listing with
  | empty => exact .empty
  | row first others trailing commas last =>
    have changed := Listing.row (change first) (others.map (fun other => (other.1, change other.2)))
      trailing (List.forall_mem_map.mpr commas) last
    rw [List.flatMap_map, List.map_map] at changed
    simp only [keeps] at changed
    rw [List.map_cons, List.map_map]
    exact changed

private theorem tokens_of_names {items : List (Item String)} {trailing : Bool}
    (listing : Listing items trailing inner)
    (each : ∀ item ∈ items, ∃ lexeme : Lexeme, item.lexemes = [lexeme] ∧
      lexeme.token = .name item.value) :
    tokensOf inner =
      listed ((items.map Item.value).map (fun word => ([Token.name word], word))) trailing := by
  rw [listing.tokens id, List.map_map]
  refine congrArg (listed · trailing) (List.map_congr_left fun item member => ?_)
  obtain ⟨lexeme, is, named⟩ := each item member
  rw [is, tokensOf_cons, named]
  rfl

theorem reads_parameters {names : List String} {parameters : List Lexeme}
    (listed : Parameters lead names parameters) (rest : List Token) :
    Reads Nested.parameters (tokensOf parameters) rest (fun read => read = names) := by
  cases listed with
  | single lexeme word is =>
    rw [tokensOf_cons, is]
    exact Rule.reads_orElse (Rule.reads_map (Rule.reads_name word) fun read same => by rw [same])
  | listed opening closing items trailing inner opens closes listing each =>
    rw [tokensOf_cons, tokensOf_append, tokensOf_cons, opens, closes, tokens_of_names listing each]
    refine Rule.reads_orElse_second
      (Rule.misses_bind (Rule.misses_name fun _ same => by cases same)) (Rule.reads_between ?_)
    exact reads_names _ trailing (fun _ same => by cases same) (fun same => by cases same)

private theorem reads_arrow (span : Span) {names : List String} {value : Body}
    {parameters : List Lexeme} {tokens : List Token} (listed : Parameters lead names parameters)
    (body : CompleteBody tail value tokens) (rest : List Token) (level : Nat)
    (ends : tail.Ends EndsAtom rest)
    (enough : (tokensOf parameters ++ .symbol .arrow :: tokens ++ rest).length ≤ level) :
    Reads (ofLevels level).atom (tokensOf parameters ++ .symbol .arrow :: tokens) rest
      (Expression.Same (.arrow span names value)) := by
  have fits : (tokens ++ rest).length < level := by
    simp only [List.length_append, List.length_cons] at enough ⊢
    omega
  have arrow : Reads (ofLevels level).arrow
      (tokensOf parameters ++ ([.symbol .arrow] ++ tokens)) rest
      (fun build => ∀ place, (build place).bare = (Expression.arrow span names value).bare) := by
    refine Rule.reads_bind (reads_parameters listed _) fun read is => ?_
    refine Rule.reads_bind (Rule.reads_symbol .arrow) fun _ _ => ?_
    have inner := body.reads rest level (Tail.ends_weaken (fun _ => trivial) ends) fits
    refine Rule.reads_map inner fun inner same place => ?_
    rw [Expression.bare, Expression.bare, is, same]
  exact reads_atom (Rule.reads_orElse arrow)

private theorem takes_arrow {names : List String} {value : Body} {parameters : List Lexeme}
    {tokens : List Token} (listed : Parameters lead names parameters)
    (body : CompleteBody tail value tokens) (rest : List Token) (level : Nat)
    (enough : (tokensOf parameters ++ .symbol .arrow :: tokens ++ rest).length ≤ level) :
    Takes (ofLevels level).atom (tokensOf parameters ++ .symbol .arrow :: tokens ++ rest) := by
  rw [List.append_assoc] at enough ⊢
  have fits : (tokens ++ rest).length < level := by
    simp only [List.length_append, List.cons_append, List.length_cons] at enough ⊢
    omega
  have arrow : Takes (ofLevels level).arrow
      (tokensOf parameters ++ ([.symbol .arrow] ++ (tokens ++ rest))) :=
    Rule.takes_bind_second (reads_parameters listed _) fun _ _ =>
      Rule.takes_bind_second (Rule.reads_symbol .arrow) fun _ _ =>
        Rule.takes_bind (body.takes rest level fits)
  exact takes_atom (Rule.takes_orElse arrow)

theorem complete_arrow (span : Span) {names : List String} {value : Body}
    {parameters : List Lexeme} {tokens : List Token} (listed : Parameters lead names parameters)
    (body : CompleteBody tail value tokens) :
    CompleteAtom lead tail (.arrow span names value)
      (tokensOf parameters ++ .symbol .arrow :: tokens) := by
  have reads := reads_arrow span listed body
  have takes := takes_arrow listed body
  cases listed with
  | single lexeme word is =>
    rw [tokensOf_cons, is] at reads takes ⊢
    refine ⟨reads, takes, fun is => (by cases is), Starts.of_first rfl (fun is => by cases is)
      (fun is => by cases is) (fun is => by cases is) (fun is => by cases is) fun _ _ => ?_⟩
    exact firstToken_cons.mpr rfl
  | listed opening closing items trailing inner opens closes listing each =>
    rw [tokensOf_cons, tokensOf_append, tokensOf_cons, opens, closes] at reads takes ⊢
    refine ⟨reads, takes, fun _ rest level enough => .inl ?_,
      Starts.of_joining rfl (fun is => by cases is) (fun _ is => by cases is)⟩
    have names := listing.map (β := Expression)
      (fun item => ⟨.free, .name nowhere item.value, item.lexemes⟩) (fun _ => rfl)
    have arguments := complete_call names (List.forall_mem_map.mpr fun item member => by
      obtain ⟨lexeme, is, named⟩ := each item member
      dsimp only
      rw [is, tokensOf_cons, named]
      exact complete_nameExpression item.value)
    have shape : Token.symbol .roundOpen :: (tokensOf inner ++ [.symbol .roundClose])
        ++ .symbol .arrow :: tokens ++ rest =
        (.symbol .roundOpen :: (tokensOf inner ++ [.symbol .roundClose]))
          ++ (.symbol .arrow :: tokens ++ rest) := List.append_assoc _ _ _
    have taken := arguments.reads (.symbol .arrow :: tokens ++ rest) level
    rw [← shape] at taken
    exact (shape ▸ (taken enough).takes)

end Atoms

section Whole

variable {exact : Prop} {lexemes : List Lexeme}

theorem Derives.first_of_atom {lead : Lead} {tail : Tail} {value : Expression}
    (derived : Derives exact (.atom lead tail value) lexemes) :
    ∃ found more, tokensOf lexemes = found :: more ∧ found.beginsAtom = true := by
  cases derived with
  | literal lexeme span value is => exact ⟨_, _, rfl, (begins_of_literal is).1⟩
  | name lexeme span word is => exact ⟨_, _, rfl, by rw [is]; rfl⟩
  | array opening closing span items trailing inner opens => exact ⟨_, _, rfl, by rw [opens]; rfl⟩
  | object opening closing span fields trailing inner opens => exact ⟨_, _, rfl, by rw [opens]; rfl⟩
  | brackets opening closing opens => exact ⟨_, _, rfl, by rw [opens]; rfl⟩
  | arrow span sign is listed body =>
    cases listed with
    | single lexeme word is => exact ⟨_, _, rfl, by rw [is]; rfl⟩
    | listed opening closing items trailing inner opens => exact ⟨_, _, rfl, by rw [opens]; rfl⟩

theorem Derives.first_of_chain {lead : Lead} {tail : Tail} {value : Expression}
    (derived : Derives exact (.chain lead tail value) lexemes) :
    ∃ found more, tokensOf lexemes = found :: more ∧ found.beginsAtom = true := by
  cases derived with
  | chain trailers atom firm each =>
    obtain ⟨found, more, is, begins⟩ := atom.first_of_atom
    rw [tokensOf_append, is]
    exact ⟨_, _, rfl, begins⟩

theorem Derives.lead_of_expression {lead : Lead} {value : Expression}
    (derived : Derives exact (.expression lead value) lexemes) : lead ≠ .keyword := by
  have atom : ∀ {tail : Tail} {value : Expression} {lexemes : List Lexeme},
      Derives exact (.atom lead tail value) lexemes → lead ≠ .keyword := by
    intro tail value lexemes derived
    cases derived with
    | arrow span sign is listed body => cases listed <;> exact fun is => by cases is
    | array =>
      split
      · exact fun is => by cases is
      · exact fun is => by cases is
    | object =>
      split
      · exact fun is => by cases is
      · exact fun is => by cases is
    | _ => exact fun is => by cases is
  have operation : ∀ {tail : Tail} {value : Expression} {lexemes : List Lexeme},
      Derives exact (.operation lead tail value) lexemes → lead ≠ .keyword := by
    intro tail value lexemes derived
    cases derived with
    | operation links are head =>
      cases head with
      | operand extent signs are chain =>
        cases signs with
        | nil =>
          cases chain with
          | chain trailers inner => exact atom inner
        | cons sign others =>
          rw [leadOfSigns]
          split
          · exact fun is => by cases is
          · exact fun is => by cases is
  cases derived with
  | plain inner => exact operation inner
  | conditional span question colon asks parts head => exact operation head

/-- What it is for a phrase to be complete. -/
def Phrase.Complete (tokens : List Token) : Phrase → Prop
  | .atom lead tail value => CompleteAtom lead tail value tokens
  | .suffix value => CompleteSuffix value tokens
  | .chain lead tail value => CompleteChain lead tail value tokens
  | .operand lead tail value => CompleteOperand lead tail value tokens
  | .operation lead tail value => CompleteOperation lead tail value tokens
  | .expression lead value => CompleteExpression lead value tokens
  | .body tail value => CompleteBody tail value tokens
  | .block values => CompleteBlock values tokens
  | .otherwise alternative => CompleteOtherwise alternative tokens
  | .statement ending lead value => CompleteStatement ending lead value tokens
  | .statements values => CompleteStatements values tokens

/-- What has a derivation the rules read as the derivation says, wherever its tokens stand in front of
something that ends it. -/
theorem Derives.complete {phrase : Phrase} (derived : Derives exact phrase lexemes) :
    phrase.Complete (tokensOf lexemes) := by
  induction derived with
  | literal lexeme span value is => exact complete_literal lexeme span is
  | name lexeme span word is place =>
    rw [tokensOf_cons, is]
    exact complete_name span word
  | array opening closing span items trailing inner opens closes listing each ih =>
    rw [tokensOf_cons, tokensOf_append, tokensOf_cons, opens, closes]
    exact complete_array span listing ih
  | object opening closing span fields trailing inner opens closes listing fits each ih =>
    rw [tokensOf_cons, tokensOf_append, tokensOf_cons, opens, closes]
    exact complete_object span listing fits ih
  | arrow span sign is listed body ih =>
    rw [tokensOf_append, tokensOf_cons, is]
    exact complete_arrow span listed ih
  | brackets opening closing opens closes within ih =>
    rw [tokensOf_cons, tokensOf_append, tokensOf_cons, opens, closes]
    exact complete_brackets ih
  | call opening closing items trailing inner opens closes listing each ih =>
    rw [tokensOf_cons, tokensOf_append, tokensOf_cons, opens, closes]
    exact complete_call listing ih
  | member dot property word is named =>
    rw [tokensOf_cons, tokensOf_cons, is, named]
    exact complete_member word
  | index opening closing opens closes within ih =>
    rw [tokensOf_cons, tokensOf_append, tokensOf_cons, opens, closes]
    exact complete_index ih
  | chain trailers atom firm each own ih =>
    rw [tokensOf_append]
    exact complete_chain trailers own firm ih
  | operand extent signs are chain ih =>
    rw [tokensOf_append]
    exact complete_operand extent signs are chain.first_of_chain ih
  | operation links are head firm each own ih =>
    rw [tokensOf_append]
    exact complete_operation links are own firm ih
  | plain operation ih => exact complete_plain ih
  | conditional span question colon asks parts head yes no ihHead ihYes ihNo =>
    rw [tokensOf_append, tokensOf_cons, tokensOf_append, tokensOf_cons, asks, parts]
    exact complete_conditional span ihHead ihYes ihNo
  | bodyBlock within ih => exact complete_bodyBlock ih
  | bodyExpression noBlock within ih => exact complete_bodyExpression noBlock ih
  | block opening closing opens closes within ih =>
    rw [tokensOf_cons, tokensOf_append, tokensOf_cons, opens, closes]
    exact complete_block ih
  | nothing => exact complete_nothing
  | otherwise sign is within ih =>
    rw [tokensOf_cons, is]
    exact complete_otherwise ih
  | otherwiseBranch sign is within ih =>
    rw [tokensOf_cons, is]
    exact complete_otherwiseBranch (by cases within with | branch => rfl) ih
  | binding span sign name assign word is named assigns within place ih =>
    rw [tokensOf_cons, tokensOf_cons, tokensOf_cons, named, assigns]
    exact complete_binding span word is ih
  | expression span within place ih => exact complete_expressionStatement span within.lead_of_expression ih
  | branch span sign opening closing is opens closes head yes no place ihHead ihYes ihNo =>
    rw [tokensOf_cons, tokensOf_cons, tokensOf_append, tokensOf_cons, tokensOf_append, is, opens, closes]
    exact complete_branch span ihHead ihYes ihNo
  | result span sign is place =>
    rw [tokensOf_cons, is]
    exact complete_result span
  | resultValue span sign is within place ih =>
    rw [tokensOf_cons, is]
    exact complete_resultValue span ih
  | statements leading sentences are ends apart each ih =>
    rw [tokensOf_append]
    exact complete_statements leading sentences are ends apart ih

end Whole

end ScreenStudio.Source
