/- digest: What is accepted as a program has a derivation. -/

import ScreenStudio.Proofs.Source.Accepted
import ScreenStudio.Proofs.Source.Sound

set_option autoImplicit false
set_option relaxedAutoImplicit false

namespace ScreenStudio.Source

open Nested (ofLevels)
open Rule (Gives Steps Consumes Takes gives_pure gives_bind gives_map gives_orElse gives_optional
  gives_located gives_symbol gives_keyword gives_name gives_many)

/-- Where a statement with the ending has been read, there was nothing more to read for it. -/
def Ending.Ended (after : Cursor) : Ending → Prop
  | .closed => True
  | .value => Halted after
  | .bare => ∃ level, after.ahead.length ≤ level ∧ ((ofLevels level).expressionRule after).outcome = none

theorem Ending.Ended.parts {exact : Prop} {before ending : Ending} {lead : Lead} {value : Statement}
    {cursor : Cursor} {lexemes : List Lexeme} {rest : List Token} (ended : before.Ended cursor)
    (derived : Derives exact (.statement ending lead value) lexemes)
    (is : cursor.tokens = tokensOf lexemes ++ rest) : before.Parts lead := by
  have complete : CompleteStatement ending lead value (tokensOf lexemes) := derived.complete
  have fits : ∀ level, cursor.ahead.length ≤ level → (tokensOf lexemes ++ rest).length ≤ level := by
    intro level enough
    rw [← is, cursor.length_tokens]
    exact enough
  cases before with
  | closed => trivial
  | value =>
    obtain ⟨level, on⟩ := ended
    rintro rfl
    rcases complete.goesOn rfl rest level (fits level on.enough) with suffix | link
    · exact suffix cursor is on.suffix
    · exact link cursor is on.link
  | bare =>
    obtain ⟨level, enough, none⟩ := ended
    show lead = .keyword
    refine Decidable.byContradiction fun noKeyword => ?_
    exact complete.expression noKeyword rest level (fits level enough) cursor is none

abbrev SoundStatement (value : Statement) (lexemes : List Lexeme) (after : Cursor) : Prop :=
  ∃ ending lead, Derives True (.statement ending lead value) lexemes ∧ ending.Ended after

section Statements

variable {level : Nat}

theorem Sound.locate {rule : Rule (Span → Statement)}
    (sound : Sound rule level fun build lexemes after =>
      lexemes ≠ [] ∧ SoundStatement (build (extentOf lexemes)) lexemes after) :
    Sound (Nested.locate rule) level SoundStatement := by
  intro cursor value after few gives
  obtain ⟨read, given, is⟩ := gives_map gives
  obtain ⟨lexemes, covers, ⟨_, held⟩, place⟩ := sound.located (fun _ _ _ held => held.1) few given
  refine ⟨lexemes, covers, ?_⟩
  rw [is, place]
  exact held

theorem sound_binding (below : SoundBelow level) :
    Sound (ofLevels level).binding level fun build lexemes after =>
      lexemes ≠ [] ∧ SoundStatement (build (extentOf lexemes)) lexemes after := by
  intro cursor build after few gives
  obtain ⟨_, first, keyword, behind⟩ := gives_bind gives
  obtain ⟨word, second, named, behind⟩ := gives_bind behind
  obtain ⟨_, third, assigns, behind⟩ := gives_bind behind
  obtain ⟨value, given, rfl⟩ := gives_map behind
  have sign : ∃ sign, cursor.Covers [sign] first ∧
      (sign.token = .keyword .letBinding ∨ sign.token = .keyword .constBinding) := by
    rcases gives_orElse keyword with keyword | ⟨_, keyword⟩
    · obtain ⟨sign, covers, is⟩ := gives_keyword keyword
      exact ⟨sign, covers, .inl is⟩
    · obtain ⟨sign, covers, is⟩ := gives_keyword keyword
      exact ⟨sign, covers, .inr is⟩
  obtain ⟨sign, one, is⟩ := sign
  obtain ⟨name, two, named⟩ := gives_name named
  obtain ⟨assign, three, assigns⟩ := gives_symbol assigns
  have covers := one.cons (two.cons three)
  have fewer := Nat.le_trans covers.length_le few
  obtain ⟨inner, four, ⟨lead, within⟩, halted⟩ := sound_expressionRule below fewer given
  exact ⟨_, covers.append four, List.cons_ne_nil _ _, .value, .keyword,
    .binding _ sign name assign word is named assigns within fun _ => rfl, halted⟩

theorem sound_result (below : SoundBelow level) :
    Sound (ofLevels level).result level fun build lexemes after =>
      lexemes ≠ [] ∧ SoundStatement (build (extentOf lexemes)) lexemes after := by
  intro cursor build after few gives
  obtain ⟨_, middle, keyword, behind⟩ := gives_bind gives
  obtain ⟨value, tried, rfl⟩ := gives_map behind
  obtain ⟨sign, one, is⟩ := gives_keyword keyword
  have fewer := Nat.le_trans one.length_le few
  rcases gives_optional tried with ⟨value, rfl, given⟩ | ⟨none, rfl, rfl⟩
  · obtain ⟨inner, two, ⟨lead, within⟩, halted⟩ := sound_expressionRule below fewer given
    exact ⟨_, one.cons two, List.cons_ne_nil _ _, .value, .keyword,
      .resultValue _ sign is within fun _ => rfl, halted⟩
  · exact ⟨_, one, List.cons_ne_nil _ _, .bare, .keyword, .result _ sign is fun _ => rfl, level, fewer,
      none⟩

theorem sound_expressionStatement (below : SoundBelow level) :
    Sound (ofLevels level).expressionStatement level fun build lexemes after =>
      lexemes ≠ [] ∧ SoundStatement (build (extentOf lexemes)) lexemes after := by
  refine (sound_expressionRule below).map ?_
  rintro value lexemes after ⟨⟨lead, within⟩, halted⟩
  refine ⟨?_, .value, lead, .expression _ within fun _ => rfl, halted⟩
  rintro rfl
  have complete : CompleteExpression lead value [] := within.complete
  obtain ⟨_, _, is, _⟩ := complete.starts.begins
  cases is

theorem sound_otherwise (below : SoundBelow level) :
    Sound (Rule.optional (ofLevels level).otherwise) level fun alternative lexemes _ =>
      Derives True (.otherwise alternative) lexemes := by
  intro cursor alternative after few gives
  rcases gives_optional gives with ⟨statements, rfl, given⟩ | ⟨_, rfl, rfl⟩
  · obtain ⟨_, middle, keyword, behind⟩ := gives_bind given
    obtain ⟨sign, one, is⟩ := gives_keyword keyword
    have less : middle.ahead.length < level := by
      have := one.length
      rw [List.length_singleton] at this
      omega
    rcases gives_orElse behind with block | ⟨_, other⟩
    · obtain ⟨inner, two, within⟩ := sound_block below (Nat.le_of_lt less) block
      exact ⟨_, one.cons two, .otherwise sign is within⟩
    · obtain ⟨branch, read, rfl⟩ := gives_map other
      obtain ⟨inner, two, within⟩ := below.branch _ less (Nat.le_refl _) read
      exact ⟨_, one.cons two, .otherwiseBranch sign is within⟩
  · exact ⟨[], .nothing _, .nothing⟩

theorem sound_branchRule (below : SoundBelow level) :
    SoundBranch (ofLevels level).branchRule level := by
  intro cursor value after few gives
  obtain ⟨⟨read, span⟩, given, rfl⟩ := gives_map gives
  obtain ⟨given, place⟩ := gives_located given
  obtain ⟨_, first, keyword, behind⟩ := gives_bind given
  obtain ⟨condition, second, asked, behind⟩ := gives_bind behind
  obtain ⟨consequent, third, block, behind⟩ := gives_bind behind
  obtain ⟨alternative, tried, is⟩ := gives_map behind
  obtain ⟨sign, one, word⟩ := gives_keyword keyword
  have fewer := Nat.le_trans one.length_le few
  obtain ⟨_, two, opening, closing, inner, _, rfl, opens, closes, ⟨lead, head⟩, _⟩ :=
    Sound.between below.expression fewer asked
  have fewer := Nat.le_trans two.length_le fewer
  obtain ⟨others, three, yes⟩ := sound_block below fewer block
  obtain ⟨more, four, no⟩ := sound_otherwise below (Nat.le_trans three.length_le fewer) tried
  have covers := one.cons (two.append (three.append four))
  have shape : sign :: (opening :: (inner ++ [closing]) ++ (others ++ more)) =
      sign :: opening :: (inner ++ closing :: (others ++ more)) := by
    simp only [List.cons_append, List.append_assoc, List.nil_append]
  rw [shape] at covers
  refine ⟨_, covers, ?_⟩
  dsimp only at is place
  rw [is, place, covers.extent (List.cons_ne_nil _ _)]
  exact .branch _ sign opening closing word opens closes head yes no fun _ => rfl

theorem sound_statement (below : SoundBelow level) :
    Sound (ofLevels level).statement level SoundStatement := by
  refine Sound.orElse (sound_binding below).locate (Sound.orElse ?_ ?_)
  · exact (sound_branchRule below).weaken fun _ _ _ derived => ⟨.closed, .keyword, derived, trivial⟩
  · exact Sound.orElse (sound_result below).locate
      (Sound.orElse (sound_expressionStatement below).locate Sound.fail)

theorem sound_semicolons : Sound Nested.semicolons level fun _ lexemes _ => AreSemicolons lexemes := by
  intro cursor values after few gives
  have each : ∀ {cursor : Cursor} {value : Unit} {after : Cursor}, cursor.ahead.length ≤ level →
      Gives (Rule.symbol .semicolon) cursor value after → ∃ lexeme : Lexeme, () = value ∧
        cursor.Covers [lexeme] after ∧ lexeme.token = .symbol .semicolon := by
    intro cursor value after _ gives
    obtain ⟨lexeme, covers, is⟩ := gives_symbol gives
    exact ⟨lexeme, rfl, covers, is⟩
  have consumes : Consumes (Rule.symbol .semicolon) level := by
    intro cursor value after few gives
    obtain ⟨lexeme, _, covers, _⟩ := each few gives
    have := covers.length
    rw [List.length_singleton] at this
    omega
  have empty : Rule.Misses (Rule.symbol .semicolon) [] := Rule.misses_symbol fun is => by cases is
  obtain ⟨lexemes, _, covers, are⟩ := (gives_many consumes empty few gives).1.parts each few
  rw [← List.map_eq_flatMap, List.map_id'] at covers
  exact ⟨lexemes, covers, are⟩

private theorem sound_sentence (below : SoundBelow level) {cursor after : Cursor} {value : Statement}
    (few : cursor.ahead.length ≤ level) (gives : Gives (ofLevels level).sentence cursor value after) :
    ∃ sentence : Sentence, value = sentence.item.value ∧ cursor.Covers sentence.lexemes after ∧
      AreSemicolons sentence.semicolons ∧
      Derives True (.statement sentence.ending sentence.item.lead sentence.item.value)
        sentence.item.lexemes ∧
      (sentence.semicolons = [] → sentence.ending.Ended after) := by
  obtain ⟨read, middle, first, behind⟩ := gives_bind gives
  obtain ⟨_, given, rfl⟩ := gives_map behind
  obtain ⟨lexemes, one, ending, lead, derived, ended⟩ := sound_statement below few first
  obtain ⟨semicolons, two, are⟩ :=
    sound_semicolons (Nat.le_trans one.length_le few) given
  refine ⟨⟨ending, ⟨lead, value, lexemes⟩, semicolons⟩, rfl, one.append two, are, derived, ?_⟩
  rintro rfl
  exact two.eq_of_nothing ▸ ended

private theorem sentences_of_steps (below : SoundBelow level) {cursor after : Cursor}
    {values : List Statement} (steps : Steps (ofLevels level).sentence cursor values after)
    (few : cursor.ahead.length ≤ level) :
    ∃ sentences : List Sentence, values = sentences.map (fun sentence => sentence.item.value) ∧
      cursor.Covers (sentences.flatMap Sentence.lexemes) after ∧
      (∀ sentence ∈ sentences, AreSemicolons sentence.semicolons) ∧
      sentences.IsChain Sentence.Apart ∧
      (∀ sentence ∈ sentences, Derives True
        (.statement sentence.ending sentence.item.lead sentence.item.value) sentence.item.lexemes) ∧
      ∀ before : Sentence, (before.semicolons = [] → before.ending.Ended cursor) →
        (before :: sentences).IsChain Sentence.Apart := by
  induction steps with
  | done cursor =>
    exact ⟨[], rfl, .nothing cursor, List.forall_mem_nil _, .nil, List.forall_mem_nil _,
      fun before _ => .singleton before⟩
  | step first others ih =>
    obtain ⟨sentence, rfl, one, semicolons, derived, ended⟩ := sound_sentence below few first
    obtain ⟨sentences, rfl, two, are, _, each, behind⟩ := ih (Nat.le_trans one.length_le few)
    have apart := behind sentence ended
    refine ⟨sentence :: sentences, rfl, one.append two, List.forall_mem_cons.mpr ⟨semicolons, are⟩, apart,
      List.forall_mem_cons.mpr ⟨derived, each⟩, fun before endedBefore => ?_⟩
    refine List.isChain_cons_cons.mpr ⟨?_, apart⟩
    by_cases none : before.semicolons = []
    · have tokens := one.tokens
      unfold Sentence.lexemes at tokens
      rw [tokensOf_append, List.append_assoc] at tokens
      exact .inr ((endedBefore none).parts derived tokens)
    · exact .inl none

theorem sound_statementsRule (below : SoundBelow level) :
    SoundStatements (ofLevels level).statementsRule level := by
  intro cursor values after few gives
  obtain ⟨_, middle, first, given⟩ := gives_bind gives
  obtain ⟨leading, one, are⟩ := sound_semicolons few first
  have fewer := Nat.le_trans one.length_le few
  have consumes : Consumes (ofLevels level).sentence level := by
    intro cursor value after few gives
    obtain ⟨sentence, _, covers, _, derived, _⟩ := sound_sentence below few gives
    have complete : CompleteSentence sentence := derived.complete
    obtain ⟨_, _, is, _⟩ := complete.first
    have := congrArg List.length is
    unfold tokensOf at this
    rw [List.length_map, List.length_cons] at this
    have := covers.length
    unfold Sentence.lexemes at this
    rw [List.length_append] at this
    omega
  have empty : Rule.Misses (ofLevels level).sentence [] :=
    Rule.misses_bind (misses_statement fun _ is => by cases is)
  have many : Gives (Rule.many (ofLevels level).sentence) middle values after := given
  obtain ⟨sentences, rfl, two, ends, apart, each, _⟩ :=
    sentences_of_steps below (gives_many consumes empty fewer many).1 fewer
  exact ⟨_, one.append two, .statements leading sentences are ends apart each⟩

end Statements

theorem soundBelow (level : Nat) : SoundBelow level := by
  induction level with
  | zero =>
    have never : ∀ limit, ¬ limit < 0 := fun limit => Nat.not_lt_zero limit
    exact ⟨fun limit less => absurd less (never limit), fun limit less => absurd less (never limit),
      fun limit less => absurd less (never limit)⟩
  | succ level ih =>
    have enough : ∀ {few limit : Nat}, few ≤ limit → limit < level + 1 → few ≤ level :=
      fun few less => Nat.le_trans few (Nat.le_of_lt_succ less)
    refine ⟨fun limit less => ?_, fun limit less => ?_, fun limit less => ?_⟩
    · exact fun _ _ _ few gives => sound_expressionRule ih (enough few less) gives
    · exact fun _ _ _ few gives => sound_statementsRule ih (enough few less) gives
    · exact fun _ _ _ few gives => sound_branchRule ih (enough few less) gives

/-- A text that is accepted as a program is cut into lexemes, and without the comments the rules read all
of them. -/
theorem gives_of_program {source : String} {statements : List Statement}
    (accepted : program source = .ok statements) : ∃ lexemes behind, Cuts 0 source.toList lexemes ∧
      Gives (ofLevels (withoutComments lexemes).length).statementsRule ⟨withoutComments lexemes, 0⟩
        statements ⟨[], behind⟩ := by
  unfold program at accepted
  cases cut : Source.lexemes source with
  | error failure =>
    rw [cut] at accepted
    cases accepted
  | ok lexemes =>
    rw [cut] at accepted
    dsimp only at accepted
    refine ⟨lexemes, ?_⟩
    unfold withoutComments
    generalize lexemes.filter (fun lexeme => !lexeme.token.isComment) = others at accepted ⊢
    cases parsed : programOfLexemes (byteLength source.toList) others with
    | error failure =>
      rw [parsed] at accepted
      cases accepted
    | ok read =>
      rw [parsed] at accepted
      cases accepted
      unfold programOfLexemes at parsed
      dsimp only at parsed
      split at parsed
      · rename_i values behind outcome
        cases parsed
        have gives : Gives (ofLevels others.length).statementsRule ⟨others, 0⟩ statements ⟨[], behind⟩ :=
          outcome
        exact ⟨behind, lexemes_iff_cuts.mp cut, gives⟩
      · cases parsed

/-- A text that is accepted as a program is cut into lexemes, and without the comments they make up its
statements. -/
theorem derives_of_program {source : String} {statements : List Statement}
    (accepted : program source = .ok statements) : ∃ lexemes, Cuts 0 source.toList lexemes ∧
      Derives True (.statements statements) (withoutComments lexemes) := by
  obtain ⟨all, behind, cuts, gives⟩ := gives_of_program accepted
  obtain ⟨lexemes, covers, derived⟩ :=
    sound_statementsRule (soundBelow (withoutComments all).length) (Nat.le_refl _) gives
  have same : withoutComments all = lexemes := covers.ahead.trans (List.append_nil _)
  rw [← same] at derived
  exact ⟨all, cuts, derived⟩

end ScreenStudio.Source
