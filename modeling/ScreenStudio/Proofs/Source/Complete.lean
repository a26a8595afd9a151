/- digest: Every derivation of an expression is found by the rules. -/

import ScreenStudio.Proofs.Source.Ending

set_option autoImplicit false
set_option relaxedAutoImplicit false

namespace ScreenStudio.Source

open Nested (Suffix applySuffix applyPrefix ofLevels)
open Rule (Reads Misses Takes ReadsEach ReadsListed joined listed behindComma)

/-- An expression that stands before the tokens goes on with them. -/
def GoesOn (inner : Nested) (ahead : List Token) : Prop :=
  Takes inner.suffix ahead ∨ Takes inner.link ahead

/-- What the lead of an expression with the tokens tells of what would be read there otherwise. -/
structure Starts (lead : Lead) (tokens : List Token) : Prop where
  begins : ∃ first more, tokens = first :: more ∧ first.begins = true
  apart : lead ≠ .joining → ∀ rest level, (tokens ++ rest).length ≤ level →
    Misses (ofLevels level).suffix (tokens ++ rest)
  noMinus : lead ≠ .joining → tokens.head? ≠ some (.symbol .minus)
  block : lead = .braces → ∀ rest level, (tokens ++ rest).length ≤ level →
    Takes (ofLevels level).block (tokens ++ rest)
  noBlock : lead ≠ .braces → ∀ rest level, (tokens ++ rest).length ≤ level →
    Misses (ofLevels level).block (tokens ++ rest)
  second : ∀ word next more, tokens = .name word :: next :: more → next.continues = true

/-- In front of what ends the phrase the rule reads the tokens with a good value, and in front of anything
it reads something; the lead tells how the tokens start. -/
structure Complete {α : Type} (rule : Nested → Rule α) (ends : List Token → Prop) (good : α → Prop)
    (lead : Lead) (tokens : List Token) : Prop where
  reads : ∀ rest level, ends rest → (tokens ++ rest).length ≤ level →
    Reads (rule (ofLevels level)) tokens rest good
  takes : ∀ rest level, (tokens ++ rest).length ≤ level → Takes (rule (ofLevels level)) (tokens ++ rest)
  goesOn : lead = .joining → ∀ rest level, (tokens ++ rest).length ≤ level →
    GoesOn (ofLevels level) (tokens ++ rest)
  starts : Starts lead tokens

/-- The value that is read is the given one up to places. -/
def Expression.Same (value read : Expression) : Prop := read.bare = value.bare

/-- An atom ends where no sign of an arrow function follows. -/
def EndsAtom (rest : List Token) : Prop := rest.head? ≠ some (.symbol .arrow)

abbrev CompleteAtom (lead : Lead) (tail : Tail) (value : Expression) (tokens : List Token) : Prop :=
  Complete Nested.atom (tail.Ends EndsAtom) value.Same lead tokens

abbrev CompleteChain (lead : Lead) (tail : Tail) (value : Expression) (tokens : List Token) : Prop :=
  Complete Nested.chain (tail.Ends EndsChain) value.Same lead tokens

abbrev CompleteOperand (lead : Lead) (tail : Tail) (value : Operand) (tokens : List Token) : Prop :=
  Complete Nested.operand (tail.Ends EndsChain) (Operand.Same · value) lead tokens

abbrev CompleteOperation (lead : Lead) (tail : Tail) (value : Expression) (tokens : List Token) : Prop :=
  Complete Nested.operation (tail.Ends EndsOperation) value.Same lead tokens

abbrev CompleteExpression (lead : Lead) (value : Expression) (tokens : List Token) : Prop :=
  Complete Nested.expressionRule EndsExpression value.Same lead tokens

/-- A suffix is read whatever follows it, and it opens with a bracket or a dot. -/
structure CompleteSuffix (value : Suffix) (tokens : List Token) : Prop where
  reads : ∀ rest level, (tokens ++ rest).length ≤ level →
    Reads (ofLevels level).suffix tokens rest (fun read => read.bare = value.bare)
  opens : ∃ first more, tokens = first :: more ∧
    (first = .symbol .roundOpen ∨ first = .symbol .dot ∨ first = .symbol .squareOpen)

namespace Starts

theorem append {lead : Lead} {tokens : List Token} (starts : Starts lead tokens) {more : List Token}
    (goes : FirstToken (fun next => next.continues = true) more) : Starts lead (tokens ++ more) := by
  obtain ⟨first, others, is, begins⟩ := starts.begins
  refine ⟨⟨first, others ++ more, by rw [is]; rfl, begins⟩, ?_, ?_, ?_, ?_, ?_⟩
  · intro free rest level enough
    rw [List.append_assoc] at enough ⊢
    exact starts.apart free _ level enough
  · intro free
    have noMinus := starts.noMinus free
    rw [is] at noMinus ⊢
    exact noMinus
  · intro braces rest level enough
    rw [List.append_assoc] at enough ⊢
    exact starts.block braces _ level enough
  · intro braces rest level enough
    rw [List.append_assoc] at enough ⊢
    exact starts.noBlock braces _ level enough
  · intro word next later same
    cases others with
    | nil =>
      rw [is] at same
      have tail : more = next :: later := (List.cons.inj same).2
      exact goes next (by rw [tail]; rfl)
    | cons other others =>
      rw [is] at same
      obtain ⟨rfl, tail⟩ := List.cons.inj same
      obtain ⟨rfl, _⟩ := List.cons.inj tail
      exact starts.second word other others is

theorem of_first {first : Token} {more : List Token} (begins : first.begins = true)
    (noRound : first ≠ .symbol .roundOpen) (noSquare : first ≠ .symbol .squareOpen)
    (noCurly : first ≠ .symbol .curlyOpen) (noMinus : first ≠ .symbol .minus)
    (second : ∀ word, first = .name word → FirstToken (fun next => next.continues = true) more) :
    Starts .free (first :: more) := by
  have different : ∀ (found : Token) (rest : List Token), first ≠ found →
      (first :: more ++ rest).head? ≠ some found :=
    fun found rest distinct same => distinct (Option.some.inj same)
  have noDot : first ≠ .symbol .dot := by
    rintro rfl
    cases begins
  refine ⟨⟨first, more, rfl, begins⟩, fun _ rest level _ => ?_, fun _ => ?_, fun is => (by cases is),
    fun _ rest level _ => misses_block (different _ rest noCurly), ?_⟩
  · exact misses_suffix (different _ rest noRound) (different _ rest noDot) (different _ rest noSquare)
  · exact fun same => noMinus (Option.some.inj same)
  · rintro word next later same
    obtain ⟨rfl, rfl⟩ := List.cons.inj same
    exact second word rfl next rfl

/-- A first token that opens no braces can lead to what goes on with an expression before it. -/
theorem of_joining {first : Token} {more : List Token} (begins : first.begins = true)
    (noCurly : first ≠ .symbol .curlyOpen) (noName : ∀ word, first ≠ .name word) :
    Starts .joining (first :: more) := by
  refine ⟨⟨first, more, rfl, begins⟩, fun is => absurd rfl is, fun is => absurd rfl is,
    fun is => (by cases is), fun _ rest level _ => ?_, ?_⟩
  · exact misses_block (fun same => noCurly (Option.some.inj same))
  · rintro word next later same
    exact absurd (List.cons.inj same).1 (noName word)

end Starts

theorem Tail.ends_weaken {weak strong : List Token → Prop} {rest : List Token} {tail : Tail}
    (weaker : strong rest → weak rest) (ends : tail.Ends strong rest) : tail.Ends weak rest := by
  cases tail with
  | firm => exact weaker ends
  | loose => exact ⟨weaker ends.1, ends.2⟩

theorem Tail.Ends.weak {weak : List Token → Prop} {rest : List Token} {tail : Tail}
    (ends : tail.Ends weak rest) : weak rest := by
  cases tail with
  | firm => exact ends
  | loose => exact ends.1

section Lists

variable {α γ : Type} {items : List (Item α)} {trailing : Bool} {lexemes : List Lexeme}

theorem Listing.tokens (listing : Listing items trailing lexemes) (image : α → γ) :
    tokensOf lexemes =
      listed (items.map (fun item => (tokensOf item.lexemes, image item.value))) trailing := by
  cases listing with
  | empty => rfl
  | row first others trailing commas last =>
    have rows : tokensOf (others.flatMap (fun other => other.1 :: other.2.lexemes)) =
        joined (((others.map Prod.snd).map
          (fun item => (tokensOf item.lexemes, image item.value))).map behindComma) := by
      clear last
      induction others with
      | nil => rfl
      | cons other rest ih =>
        obtain ⟨comma, behind⟩ := List.forall_mem_cons.mp commas
        rw [List.flatMap_cons, tokensOf_append, ih behind, tokensOf_cons, comma]
        rfl
    have ending : tokensOf trailing.toList = if trailing.isSome then [Token.symbol .comma] else [] := by
      cases trailing with
      | none => rfl
      | some lexeme =>
        show [lexeme.token] = [Token.symbol .comma]
        rw [last lexeme rfl]
    rw [tokensOf_append, tokensOf_append, rows, ending]
    rfl

variable {rest : List Token} {length level : Nat}

/-- In front of a comma, or of what ends it, an expression is read on the next level of nesting. -/
theorem readsListed_expression {lead : Lead} {value : Expression} {tokens : List Token}
    (complete : CompleteExpression lead value tokens)
    (closes : FirstToken (fun found => found.continues = false) rest) (enough : length < level) :
    ReadsListed (ofLevels level).expression Expression.bare length rest (tokens, value.bare) := by
  obtain ⟨first, more, is, _⟩ := complete.starts.begins
  refine ⟨fun empty => (by cases is.symm.trans empty), fun after fits follows => ?_⟩
  have ends : EndsExpression after := by
    rcases follows with comma | rfl
    · exact endsExpression_of_first fun found same =>
        Option.some.inj (comma.symm.trans same) ▸ rfl
    · exact endsExpression_of_first closes
  refine reads_nested (fun level enough => complete.reads after level ends enough) ?_
  rw [List.length_append]
  exact Nat.lt_of_le_of_lt fits enough

theorem reads_items {items : List (Item Expression)} (listing : Listing items trailing lexemes)
    (each : ∀ item ∈ items, CompleteExpression item.lead item.value (tokensOf item.lexemes))
    {closing : Token} (closes : closing.continues = false ∧ closing.begins = false)
    (noComma : closing ≠ .symbol .comma)
    (enough : (tokensOf lexemes ++ closing :: rest).length < level) :
    Reads (Rule.separated (ofLevels level).expression) (tokensOf lexemes) (closing :: rest)
      (fun values => values.map Expression.bare = items.map (fun item => item.value.bare)) := by
  rw [listing.tokens Expression.bare] at enough ⊢
  have all : ∀ part ∈ items.map (fun item => (tokensOf item.lexemes, item.value.bare)),
      ReadsListed (ofLevels level).expression Expression.bare _ (closing :: rest) part :=
    List.forall_mem_map.mpr fun item member =>
      readsListed_expression (each item member) (firstToken_cons.mpr closes.1) enough
  have none : Misses (ofLevels level).expression (closing :: rest) :=
    misses_nested (fun _ => misses_expression (firstToken_cons.mpr closes.2)) level
  refine (Rule.reads_separated all none fun same => noComma (Option.some.inj same)).weaken ?_
  intro values are
  rw [are, List.map_map]
  rfl

end Lists

section Atoms

variable {inner : Nested} {tokens rest : List Token} {bare : Expression}

theorem reads_atom (reads : Reads inner.bareAtom tokens rest (fun build => ∀ span, (build span).bare = bare)) :
    Reads inner.atom tokens rest (fun read => read.bare = bare) := by
  refine Rule.reads_orElse ?_
  have both : Reads (Rule.located inner.bareAtom >>= fun pair => pure (pair.1 pair.2)) (tokens ++ []) rest
      (fun read => read.bare = bare) :=
    Rule.reads_bind (Rule.reads_located reads) fun value held =>
      (Rule.reads_pure (value.1 value.2)).weaken fun read is => is ▸ held value.2
  rwa [List.append_nil] at both

theorem takes_atom {ahead : List Token} (takes : Takes inner.bareAtom ahead) : Takes inner.atom ahead :=
  Rule.takes_orElse (Rule.takes_bind (Rule.takes_located takes))

theorem reads_atom_otherwise {rules : List (Rule (Span → Expression))}
    (is : inner.bareAtom = Rule.choice (inner.arrow :: rules))
    (misses : Misses inner.arrow (tokens ++ rest))
    (reads : Reads (Rule.choice rules) tokens rest (fun build => ∀ span, (build span).bare = bare)) :
    Reads inner.atom tokens rest (fun read => read.bare = bare) := by
  refine reads_atom ?_
  rw [is]
  exact Rule.reads_orElse_second misses reads

theorem complete_literal (lexeme : Lexeme) (span : Span) {value : Literal}
    (is : Nested.literal.accepts? lexeme.token = some value) :
    CompleteAtom .free .firm (.literal span value) [lexeme.token] := by
  obtain ⟨begins, noName, noSymbol⟩ := begins_of_literal is
  have different : ∀ (found : Token) (rest : List Token), lexeme.token ≠ found →
      ([lexeme.token] ++ rest).head? ≠ some found :=
    fun found rest distinct same => distinct (Option.some.inj same)
  have reads : ∀ rest level, Reads (ofLevels level).atom [lexeme.token] rest
      (Expression.Same (.literal span value)) := by
    intro rest level
    refine reads_atom_otherwise rfl ?_ (Rule.reads_orElse ?_)
    · exact misses_arrow (fun word => different _ rest (noName word)) (different _ rest (noSymbol _))
    · exact Rule.reads_map (isToken_literal.reads is) fun read same _ => same ▸ rfl
  refine ⟨fun rest level _ _ => reads rest level, fun rest level _ => (reads rest level).takes,
    fun is => (by cases is), ?_⟩
  · refine Starts.of_first ?_ (noSymbol _) (noSymbol _) (noSymbol _) (noSymbol _)
      (fun word is => absurd is (noName word))
    unfold Token.begins
    rw [begins]
    rfl

theorem complete_name (span : Span) (word : String) :
    CompleteAtom .free .firm (.name span word) [.name word] := by
  refine ⟨fun rest level ends _ => ?_, fun rest level _ => ?_, fun is => (by cases is), ?_⟩
  · have single : Reads Nested.parameters [.name word] rest (fun _ => True) :=
      Rule.reads_orElse (Rule.reads_map (Rule.reads_name word) fun _ _ => trivial)
    have noArrow : Misses (ofLevels level).arrow ([.name word] ++ rest) :=
      Rule.misses_bind_second single fun _ _ => Rule.misses_bind (Rule.misses_symbol ends)
    have different : ∀ found : Token, .name word ≠ found →
        ([Token.name word] ++ rest).head? ≠ some found :=
      fun found distinct same => distinct (Option.some.inj same)
    refine reads_atom_otherwise rfl noArrow ?_
    refine Rule.reads_orElse_second
      (Rule.misses_bind (misses_literal (firstToken_cons.mpr (literal_of_name word)))) ?_
    refine Rule.reads_orElse_second
      (Rule.misses_bind (Rule.misses_between (different _ (fun is => by cases is)))) ?_
    refine Rule.reads_orElse_second
      (Rule.misses_bind (Rule.misses_between (different _ (fun is => by cases is)))) ?_
    exact Rule.reads_orElse (Rule.reads_map (Rule.reads_name word) fun read same _ => same ▸ rfl)
  · have named : Takes (do let word ← Rule.name; return fun span => Expression.name span word)
        ([.name word] ++ rest) := Rule.takes_bind (Rule.reads_name word).takes
    refine takes_atom (Rule.takes_orElse_second (Rule.takes_orElse_second ?_))
    exact Rule.takes_orElse_second (Rule.takes_orElse_second (Rule.takes_orElse named))
  · refine Starts.of_first rfl (fun is => by cases is) (fun is => by cases is) (fun is => by cases is)
      (fun is => by cases is) (fun _ _ => ?_)
    exact fun _ is => by cases is

end Atoms

section Chains

variable {lead : Lead} {tail : Tail}

theorem tokensOf_flatMap {α γ : Type} (parts : List α) (row : α → List Lexeme) (image : α → γ) :
    tokensOf (parts.flatMap row) =
      joined (parts.map (fun part => (tokensOf (row part), image part))) := by
  unfold tokensOf joined
  rw [List.map_flatMap, List.flatMap_map]

private theorem endsAtom_of_trailers {trailers : List Trailer} {rest : List Token}
    (firm : tail = .loose → trailers = [])
    (each : ∀ trailer ∈ trailers, CompleteSuffix trailer.suffix.1 (tokensOf trailer.lexemes))
    (ends : tail.Ends EndsChain rest) :
    tail.Ends EndsAtom (tokensOf (trailers.flatMap Trailer.lexemes) ++ rest) := by
  cases trailers with
  | nil => exact Tail.ends_weaken EndsChain.arrow ends
  | cons trailer others =>
    cases tail with
    | loose => cases firm rfl
    | firm =>
      obtain ⟨opening, more, is, opens⟩ := (each trailer (List.mem_cons_self ..)).opens
      rw [List.flatMap_cons, tokensOf_append, is]
      rcases opens with rfl | rfl | rfl <;> exact fun same => by cases same

private theorem readsEach_suffixes {trailers : List Trailer} {rest : List Token} {level : Nat}
    (each : ∀ trailer ∈ trailers, CompleteSuffix trailer.suffix.1 (tokensOf trailer.lexemes))
    (none : Misses (ofLevels level).suffix rest)
    (enough : (joined (trailers.map (fun trailer =>
      (tokensOf trailer.lexemes, trailer.suffix.1.bare))) ++ rest).length ≤ level) :
    ReadsEach (Rule.located (ofLevels level).suffix) (fun read => read.1.bare)
      (trailers.map (fun trailer => (tokensOf trailer.lexemes, trailer.suffix.1.bare))) rest := by
  refine Rule.readsEach_of_all _ (List.forall_mem_map.mpr fun trailer member => ?_) enough
    (Rule.misses_located none)
  obtain ⟨opening, more, is, _⟩ := (each trailer member).opens
  refine ⟨fun empty => (by cases is.symm.trans empty), fun after fits => ?_⟩
  refine Rule.reads_located ((each trailer member).reads after level ?_)
  rw [List.length_append]
  exact fits

theorem complete_chain {target : Expression} {tokens : List Token} (trailers : List Trailer)
    (atom : CompleteAtom lead tail target tokens) (firm : tail = .loose → trailers = [])
    (each : ∀ trailer ∈ trailers, CompleteSuffix trailer.suffix.1 (tokensOf trailer.lexemes)) :
    CompleteChain lead tail ((trailers.map Trailer.suffix).foldl applySuffix target)
      (tokens ++ tokensOf (trailers.flatMap Trailer.lexemes)) := by
  have continues : FirstToken (fun next => next.continues = true)
      (tokensOf (trailers.flatMap Trailer.lexemes)) := by
    cases trailers with
    | nil => exact fun _ is => by cases is
    | cons trailer others =>
      obtain ⟨opening, more, is, opens⟩ := (each trailer (List.mem_cons_self ..)).opens
      rw [List.flatMap_cons, tokensOf_append, is]
      refine firstToken_cons.mpr ?_
      rcases opens with rfl | rfl | rfl <;> rfl
  refine ⟨fun rest level follows enough => ?_, fun rest level enough => ?_,
    fun joining rest level enough => ?_, atom.starts.append continues⟩
  · rw [List.append_assoc] at enough
    have target := atom.reads _ level (endsAtom_of_trailers firm each follows) enough
    refine Rule.reads_bind target fun read same => ?_
    rw [tokensOf_flatMap trailers Trailer.lexemes (fun trailer => trailer.suffix.1.bare)] at enough ⊢
    rw [List.length_append] at enough
    have behind : rest.length ≤ level := by
      rw [List.length_append] at enough
      omega
    have suffixes := readsEach_suffixes each (follows.weak.suffix level behind) (by omega)
    refine Rule.reads_map (Rule.reads_many suffixes) fun values are => ?_
    refine Nested.bare_applySuffixes same (are.trans ?_)
    rw [List.map_map, List.map_map]
    rfl
  · rw [List.append_assoc] at enough ⊢
    refine Rule.takes_bind_always (atom.takes _ level enough) fun read behind => ?_
    exact Rule.takes_bind (Rule.takes_many _ _)
  · rw [List.append_assoc] at enough ⊢
    exact atom.goesOn joining _ level enough

private theorem reads_signs {tokens rest : List Token} (signs : List Sign)
    (are : ∀ sign ∈ signs, Nested.prefixOperator.accepts? sign.lexeme.token = some sign.operator.1)
    (first : FirstToken (fun found => found.beginsAtom = true) (tokens ++ rest)) :
    Reads (Rule.many (Rule.located Nested.prefixOperator)) (tokensOf (signs.map Sign.lexeme))
      (tokens ++ rest)
      (fun read => read.map Prod.fst = (signs.map Sign.operator).map Prod.fst) := by
  have row : tokensOf (signs.map Sign.lexeme) =
      joined (signs.map (fun sign => ([sign.lexeme.token], sign.operator.1))) := by
    unfold tokensOf joined
    rw [List.map_map, List.flatMap_map, List.map_eq_flatMap]
    rfl
  have noSign : Misses Nested.prefixOperator (tokens ++ rest) := by
    refine isToken_prefixOperator.misses (first.weaken fun found begins => ?_)
    cases accepted : Nested.prefixOperator.accepts? found with
    | none => rfl
    | some operator => rcases prefix_cases accepted with ⟨rfl, _⟩ | ⟨rfl, _⟩ <;> cases begins
  rw [row]
  have all : ReadsEach (Rule.located Nested.prefixOperator) Prod.fst
      (signs.map (fun sign => ([sign.lexeme.token], sign.operator.1))) (tokens ++ rest) :=
    Rule.readsEach_of_all _
      (List.forall_mem_map.mpr fun sign member =>
        ⟨List.cons_ne_nil _ _, fun after _ =>
          Rule.reads_located (isToken_prefixOperator.reads (are sign member))⟩)
      (Nat.le_refl _) (Rule.misses_located noSign)
  refine (Rule.reads_many all).weaken fun read same => same.trans ?_
  rw [List.map_map, List.map_map]
  rfl

private theorem reads_operand {value : Expression} {tokens rest : List Token} {level : Nat}
    (extent : Span) (signs : List Sign)
    (are : ∀ sign ∈ signs, Nested.prefixOperator.accepts? sign.lexeme.token = some sign.operator.1)
    (first : FirstToken (fun found => found.beginsAtom = true) (tokens ++ rest))
    (chain : Reads (ofLevels level).chain tokens rest value.Same) :
    Reads (ofLevels level).operand (tokensOf (signs.map Sign.lexeme) ++ tokens) rest
      (Operand.Same · ((signs.map Sign.operator).foldr applyPrefix ⟨value, extent⟩)) := by
  refine Rule.reads_bind (reads_signs signs are first) fun operators same => ?_
  have both : Reads (Rule.located (ofLevels level).chain >>= fun pair =>
      pure (operators.foldr applyPrefix ⟨pair.1, pair.2⟩)) (tokens ++ []) rest
      (Operand.Same · ((signs.map Sign.operator).foldr applyPrefix ⟨value, extent⟩)) := by
    refine Rule.reads_bind (Rule.reads_located chain) fun read held => ?_
    refine (Rule.reads_pure (operators.foldr applyPrefix ⟨read.1, read.2⟩)).weaken fun result is => ?_
    have chains : Operand.Same ⟨read.1, read.2⟩ ⟨value, extent⟩ := held
    rw [is]
    exact Nested.same_applyPrefixes chains same
  rwa [List.append_nil] at both

private theorem takes_operand {tokens rest : List Token} {level : Nat} (signs : List Sign)
    (are : ∀ sign ∈ signs, Nested.prefixOperator.accepts? sign.lexeme.token = some sign.operator.1)
    (first : FirstToken (fun found => found.beginsAtom = true) (tokens ++ rest))
    (chain : Takes (ofLevels level).chain (tokens ++ rest)) :
    Takes (ofLevels level).operand (tokensOf (signs.map Sign.lexeme) ++ tokens ++ rest) := by
  rw [List.append_assoc]
  refine Rule.takes_bind_second (reads_signs signs are first) fun operators _ => ?_
  exact Rule.takes_bind (Rule.takes_located chain)

private theorem takes_link_of_minus {ahead : List Token} {level : Nat}
    (operand : Takes (ofLevels level).operand ahead) :
    Takes (ofLevels level).link (.symbol .minus :: ahead) := by
  have minus : Reads Nested.infixOperator [.symbol .minus] ahead (fun read => read = .subtract) :=
    isToken_infixOperator.reads rfl
  have link : Takes (ofLevels level).link ([.symbol .minus] ++ ahead) :=
    Rule.takes_bind_second minus fun _ _ => Rule.takes_bind operand
  exact link

theorem complete_operand {value : Expression} {tokens : List Token} (extent : Span) (signs : List Sign)
    (are : ∀ sign ∈ signs, Nested.prefixOperator.accepts? sign.lexeme.token = some sign.operator.1)
    (first : ∃ found more, tokens = found :: more ∧ found.beginsAtom = true)
    (chain : CompleteChain lead tail value tokens) :
    CompleteOperand (leadOfSigns lead signs) tail
      ((signs.map Sign.operator).foldr applyPrefix ⟨value, extent⟩)
      (tokensOf (signs.map Sign.lexeme) ++ tokens) := by
  obtain ⟨found, more, is, begins⟩ := first
  have begin : ∀ rest, FirstToken (fun found => found.beginsAtom = true) (tokens ++ rest) := by
    intro rest
    rw [is]
    exact firstToken_cons.mpr begins
  have fits : ∀ {signs : List Sign} {rest : List Token} {level : Nat},
      (tokensOf (signs.map Sign.lexeme) ++ tokens ++ rest).length ≤ level →
      (tokens ++ rest).length ≤ level := by
    intro signs rest level enough
    rw [List.append_assoc, List.length_append] at enough
    omega
  have reads : ∀ rest level, tail.Ends EndsChain rest →
      (tokensOf (signs.map Sign.lexeme) ++ tokens ++ rest).length ≤ level →
      Reads (ofLevels level).operand (tokensOf (signs.map Sign.lexeme) ++ tokens) rest
        (Operand.Same · ((signs.map Sign.operator).foldr applyPrefix ⟨value, extent⟩)) :=
    fun rest level ends enough =>
      reads_operand extent signs are (begin rest) (chain.reads rest level ends (fits enough))
  have takes : ∀ rest level, (tokensOf (signs.map Sign.lexeme) ++ tokens ++ rest).length ≤ level →
      Takes (ofLevels level).operand (tokensOf (signs.map Sign.lexeme) ++ tokens ++ rest) :=
    fun rest level enough => takes_operand signs are (begin rest) (chain.takes rest level (fits enough))
  cases signs with
  | nil => exact ⟨reads, takes, chain.goesOn, chain.starts⟩
  | cons sign others =>
    obtain ⟨accepts, behind⟩ := List.forall_mem_cons.mp are
    rcases prefix_cases accepts with ⟨token, operator⟩ | ⟨token, operator⟩
    · have free : leadOfSigns lead (sign :: others) = .free := by
        rw [leadOfSigns, operator]
        rfl
      rw [free]
      refine ⟨reads, takes, fun is => (by cases is), ?_⟩
      rw [List.map_cons, tokensOf_cons, token]
      exact Starts.of_first rfl (fun is => by cases is) (fun is => by cases is) (fun is => by cases is)
        (fun is => by cases is) (fun _ is => by cases is)
    · have joining : leadOfSigns lead (sign :: others) = .joining := by
        rw [leadOfSigns, operator]
        rfl
      rw [joining]
      refine ⟨reads, takes, fun _ rest level enough => .inr ?_, ?_⟩
      · rw [List.map_cons, tokensOf_cons, token] at enough ⊢
        exact takes_link_of_minus (takes_operand others behind (begin rest)
          (chain.takes rest level (fits (Nat.le_of_succ_le enough))))
      · rw [List.map_cons, tokensOf_cons, token]
        exact Starts.of_joining rfl (fun is => by cases is) (fun _ is => by cases is)

end Chains

section Operations

variable {lead : Lead} {tail : Tail} {rest : List Token} {level : Nat}

/-- The tokens of an operator and its operand. -/
def Link.tokens (link : Link) : List Token := link.sign.token :: tokensOf link.item.lexemes

/-- A row of operators with their operands, as parts. -/
def partOfLink (link : Link) : List Token × (BinaryOperator × Expression) :=
  (link.tokens, (link.operator, link.item.value.expression.bare))

private theorem ends_of_links {links : List Link}
    (are : ∀ link ∈ links, Nested.infixOperator.accepts? link.sign.token = some link.operator)
    (firm : FirmBefore tail links) (ends : (tailOfLinks tail links).Ends EndsOperation rest) :
    tail.Ends EndsChain (joined (links.map partOfLink) ++ rest) := by
  cases links with
  | nil => exact Tail.ends_weaken EndsOperation.toEndsChain ends
  | cons link others =>
    rw [firm.1]
    exact endsChain_of_operator (are link (List.mem_cons_self ..))

private theorem readsEach_link (links : List Link)
    (are : ∀ link ∈ links, Nested.infixOperator.accepts? link.sign.token = some link.operator)
    (each : ∀ link ∈ links,
      CompleteOperand link.item.lead link.tail link.item.value (tokensOf link.item.lexemes))
    (firm : FirmBefore tail links) (ends : (tailOfLinks tail links).Ends EndsOperation rest)
    (enough : (joined (links.map partOfLink) ++ rest).length ≤ level) :
    ReadsEach (ofLevels level).link OperatorTree.bareLink (links.map partOfLink) rest := by
  induction links generalizing tail with
  | nil => exact Rule.misses_bind (isToken_infixOperator.misses ends.weak.sign)
  | cons link others ih =>
    obtain ⟨accepts, areBehind⟩ := List.forall_mem_cons.mp are
    obtain ⟨operand, behind⟩ := List.forall_mem_cons.mp each
    have split : (joined ((link :: others).map partOfLink) ++ rest).length =
        1 + (tokensOf link.item.lexemes ++ (joined (others.map partOfLink) ++ rest)).length := by
      show (link.sign.token :: tokensOf link.item.lexemes ++ joined (others.map partOfLink)
        ++ rest).length = _
      simp only [List.length_append, List.length_cons]
      omega
    have follows := ends_of_links areBehind firm.2 ends
    refine ⟨List.cons_ne_nil _ _, ?_, ih areBehind behind firm.2 ends ?_⟩
    · have sign : Reads Nested.infixOperator [link.sign.token]
          (tokensOf link.item.lexemes ++ (joined (others.map partOfLink) ++ rest))
          (fun read => read = link.operator) := isToken_infixOperator.reads accepts
      refine Rule.reads_bind sign fun operator is => ?_
      refine Rule.reads_map (operand.reads _ level follows (by omega)) fun value same => ?_
      exact Prod.ext is same
    · refine Nat.le_trans (Nat.le_trans ?_ (Nat.le_add_left _ 1)) (split ▸ enough)
      exact (List.suffix_append _ _).length_le

theorem complete_operation {first : Operand} {tokens : List Token} (links : List Link)
    (are : ∀ link ∈ links, Nested.infixOperator.accepts? link.sign.token = some link.operator)
    (head : CompleteOperand lead tail first tokens) (firm : FirmBefore tail links)
    (each : ∀ link ∈ links,
      CompleteOperand link.item.lead link.tail link.item.value (tokensOf link.item.lexemes)) :
    CompleteOperation lead (tailOfLinks tail links)
      (OperatorTree.ofSequence first
        (links.map (fun link => (link.operator, link.item.value)))).toOperand.expression
      (tokens ++ tokensOf (links.flatMap (fun link => link.sign :: link.item.lexemes))) := by
  have row : tokensOf (links.flatMap (fun link => link.sign :: link.item.lexemes)) =
      joined (links.map partOfLink) :=
    tokensOf_flatMap links (fun link => link.sign :: link.item.lexemes)
      (fun link => (link.operator, link.item.value.expression.bare))
  rw [row]
  have follows : ∀ rest, (tailOfLinks tail links).Ends EndsOperation rest →
      tail.Ends EndsChain (joined (links.map partOfLink) ++ rest) :=
    fun rest ends => ends_of_links are firm ends
  refine ⟨fun rest level ends enough => ?_, fun rest level enough => ?_,
    fun joining rest level enough => ?_, head.starts.append ?_⟩
  · rw [List.append_assoc] at enough
    refine Rule.reads_bind (head.reads _ level (follows rest ends) enough) fun read same => ?_
    have fits : (joined (links.map partOfLink) ++ rest).length ≤ level := by
      rw [List.length_append] at enough
      omega
    have others := readsEach_link links are each firm ends fits
    refine Rule.reads_map (Rule.reads_many others) fun values equal => ?_
    have alike : values.map OperatorTree.bareLink =
        (links.map (fun link => (link.operator, link.item.value))).map OperatorTree.bareLink := by
      rw [equal, List.map_map, List.map_map]
      rfl
    have both : (OperatorTree.ofSequence read values).toOperand.Same (OperatorTree.ofSequence first
        (links.map (fun link => (link.operator, link.item.value)))).toOperand :=
      (OperatorTree.same_ofSequence same alike).toOperand
    exact both
  · rw [List.append_assoc] at enough ⊢
    refine Rule.takes_bind_always (head.takes _ level enough) fun read behind => ?_
    exact Rule.takes_bind (Rule.takes_many _ _)
  · rw [List.append_assoc] at enough ⊢
    exact head.goesOn joining _ level enough
  · cases links with
    | nil => exact fun _ is => by cases is
    | cons link others =>
      exact firstToken_cons.mpr (continues_of_operator (are link (List.mem_cons_self ..)))

private theorem takes_expression {inner : Nested} {ahead : List Token} (takes : Takes inner.operation ahead) :
    Takes inner.expressionRule ahead := by
  refine Rule.takes_bind_always (Rule.takes_located (Rule.takes_bind_always takes fun condition behind => ?_))
    fun read behind => ?_
  · exact Rule.takes_bind (Rule.takes_optional _ _)
  · obtain ⟨⟨condition, branches⟩, span⟩ := read
    cases branches with
    | none => exact Rule.takes_pure _ _
    | some branches => exact Rule.takes_pure _ _

theorem complete_plain {value : Expression} {tokens : List Token}
    (operation : CompleteOperation lead tail value tokens) : CompleteExpression lead value tokens := by
  have ends : ∀ rest, EndsExpression rest → tail.Ends EndsOperation rest := by
    intro rest ends
    cases tail with
    | firm => exact ends.toEndsOperation
    | loose => exact ⟨ends.toEndsOperation, ends⟩
  refine ⟨fun rest level follows enough => ?_,
    fun rest level enough => takes_expression (operation.takes rest level enough), operation.goesOn,
    operation.starts⟩
  · have plain : Reads (do
          let condition ← (ofLevels level).operation
          let branches ← Rule.optional (ofLevels level).branches
          return (condition, branches)) (tokens ++ []) rest
        (fun read => value.Same read.1 ∧ read.2 = none) := by
      refine Rule.reads_bind (operation.reads rest level (ends rest follows) enough) fun read same => ?_
      have noBranches : Misses (ofLevels level).branches rest :=
        Rule.misses_bind (Rule.misses_symbol follows.question)
      exact Rule.reads_map (Rule.reads_optional_none noBranches) fun branches none => ⟨same, none⟩
    have whole : Reads (ofLevels level).expressionRule (tokens ++ [] ++ []) rest value.Same := by
      refine Rule.reads_bind (Rule.reads_located plain) ?_
      rintro ⟨⟨condition, branches⟩, span⟩ ⟨same, rfl⟩
      exact (Rule.reads_pure condition).weaken fun read is => is ▸ same
    rwa [List.append_nil, List.append_nil] at whole

private theorem reads_branches {first second : Lead} {consequent alternative : Expression}
    {two three rest : List Token} {level : Nat} (yes : CompleteExpression first consequent two)
    (no : CompleteExpression second alternative three) (follows : EndsExpression rest)
    (enough : two.length + three.length + rest.length + 2 ≤ level) :
    Reads (ofLevels level).branches ([.symbol .question] ++ (two ++ ([.symbol .colon] ++ three))) rest
      (fun read => consequent.Same read.1 ∧ alternative.Same read.2) := by
  have colon : EndsExpression ([.symbol .colon] ++ three ++ rest) :=
    endsExpression_of_first (firstToken_cons.mpr rfl)
  refine Rule.reads_bind (Rule.reads_symbol .question) fun _ _ => ?_
  refine Rule.reads_bind (reads_nested (fun level => yes.reads _ level colon) ?_) fun read same => ?_
  · simp only [List.length_append, List.length_cons, List.length_nil]
    omega
  refine Rule.reads_bind (Rule.reads_symbol .colon) fun _ _ => ?_
  refine Rule.reads_map (reads_nested (fun level => no.reads rest level follows) ?_)
    fun other also => ⟨same, also⟩
  rw [List.length_append]
  omega

theorem complete_conditional (span : Span) {first second : Lead}
    {condition consequent alternative : Expression} {one two three : List Token}
    (head : CompleteOperation lead .firm condition one)
    (yes : CompleteExpression first consequent two)
    (no : CompleteExpression second alternative three) :
    CompleteExpression lead (.conditional span condition consequent alternative)
      (one ++ .symbol .question :: (two ++ .symbol .colon :: three)) := by
  refine ⟨fun rest level follows enough => ?_, fun rest level enough => ?_,
    fun joining rest level enough => ?_, head.starts.append (firstToken_cons.mpr rfl)⟩
  · have shape : one ++ .symbol .question :: (two ++ .symbol .colon :: three) ++ rest =
        one ++ (.symbol .question :: (two ++ (.symbol .colon :: (three ++ rest)))) := by
      simp only [List.append_assoc, List.cons_append]
    rw [shape] at enough
    have lengths : one.length + two.length + three.length + rest.length + 2 ≤ level := by
      simp only [List.length_append, List.length_cons] at enough
      omega
    have asked := reads_branches yes no follows (show _ ≤ level by omega)
    have both : Reads (do
          let condition ← (ofLevels level).operation
          let branches ← Rule.optional (ofLevels level).branches
          return (condition, branches))
        (one ++ ([.symbol .question] ++ (two ++ ([.symbol .colon] ++ three)))) rest
        (fun read => condition.Same read.1 ∧ ∃ branches, read.2 = some branches ∧
          consequent.Same branches.1 ∧ alternative.Same branches.2) := by
      refine Rule.reads_bind (head.reads _ level (endsOperation_of_question _) ?_) fun read same => ?_
      · simp only [List.length_append, List.length_cons, List.length_nil]
        omega
      · exact Rule.reads_map (Rule.reads_optional asked) fun branches is => ⟨same, is⟩
    have whole : Reads (ofLevels level).expressionRule
        (one ++ ([.symbol .question] ++ (two ++ ([.symbol .colon] ++ three))) ++ []) rest
        (Expression.Same (.conditional span condition consequent alternative)) := by
      refine Rule.reads_bind (Rule.reads_located both) ?_
      rintro ⟨⟨asked, branches⟩, place⟩ ⟨same, ⟨yes, no⟩, rfl, first, second⟩
      refine (Rule.reads_pure (Expression.conditional place asked yes no)).weaken fun read is => ?_
      unfold Expression.Same at same first second ⊢
      dsimp only at same first second
      rw [is, Expression.bare, Expression.bare, same, first, second]
    rwa [List.append_nil] at whole
  · rw [List.append_assoc, List.cons_append] at enough ⊢
    exact takes_expression (head.takes _ level enough)
  · rw [List.append_assoc, List.cons_append] at enough ⊢
    exact head.goesOn joining _ level enough

end Operations

end ScreenStudio.Source
