/- digest: What the rules read for an expression has a derivation. -/

import ScreenStudio.Proofs.Source.Derived
import ScreenStudio.Proofs.Source.Outcome

set_option autoImplicit false
set_option relaxedAutoImplicit false

namespace ScreenStudio.Source

open Nested (Suffix applySuffix applyPrefix ofLevels)
open Rule (Gives Steps Consumes Takes gives_pure gives_bind gives_map gives_orElse gives_optional
  gives_located gives_symbol gives_keyword gives_name gives_between gives_many gives_separated)

/-- On the level of nesting, which is enough for what lies ahead, no expression goes on. -/
structure HaltedOn (level : Nat) (cursor : Cursor) : Prop where
  enough : cursor.ahead.length ≤ level
  suffix : ((ofLevels level).suffix cursor).outcome = none
  link : ((ofLevels level).link cursor).outcome = none
  branches : ((ofLevels level).branches cursor).outcome = none

/-- No expression goes on here. -/
def Halted (cursor : Cursor) : Prop := ∃ level, HaltedOn level cursor

theorem Cursor.length_tokens (cursor : Cursor) : cursor.tokens.length = cursor.ahead.length :=
  List.length_map _

namespace Halted

variable {exact : Prop} {cursor : Cursor} {lexemes : List Lexeme} {rest : List Token}

theorem no_suffix {value : Suffix} (halted : Halted cursor)
    (derived : Derives exact (.suffix value) lexemes) : cursor.tokens ≠ tokensOf lexemes ++ rest := by
  obtain ⟨level, on⟩ := halted
  intro is
  have enough : (tokensOf lexemes ++ rest).length ≤ level := by
    rw [← is, cursor.length_tokens]
    exact on.enough
  have complete : CompleteSuffix value (tokensOf lexemes) := derived.complete
  exact (complete.reads rest level enough).takes cursor is on.suffix

theorem no_link {sign : Lexeme} {operator : BinaryOperator} {lead : Lead} {tail : Tail} {value : Operand}
    (halted : Halted cursor) (accepts : Nested.infixOperator.accepts? sign.token = some operator)
    (derived : Derives exact (.operand lead tail value) lexemes) :
    cursor.tokens ≠ sign.token :: (tokensOf lexemes ++ rest) := by
  obtain ⟨level, on⟩ := halted
  intro is
  have enough : (sign.token :: (tokensOf lexemes ++ rest)).length ≤ level := by
    rw [← is, cursor.length_tokens]
    exact on.enough
  have complete : CompleteOperand lead tail value (tokensOf lexemes) := derived.complete
  have operand := complete.takes rest level (Nat.le_of_succ_le enough)
  have link : Takes (ofLevels level).link ([sign.token] ++ (tokensOf lexemes ++ rest)) :=
    Rule.takes_bind_second (isToken_infixOperator.reads accepts) fun _ _ => Rule.takes_bind operand
  exact link cursor is on.link

theorem no_branches {question colon : Lexeme} {first second : Lead} {consequent alternative : Expression}
    {two three : List Lexeme} (halted : Halted cursor) (asks : question.token = .symbol .question)
    (parts : colon.token = .symbol .colon) (yes : Derives exact (.expression first consequent) two)
    (no : Derives exact (.expression second alternative) three) :
    cursor.tokens ≠ tokensOf (question :: (two ++ colon :: three)) ++ rest := by
  obtain ⟨level, on⟩ := halted
  rw [tokensOf_cons, tokensOf_append, tokensOf_cons, asks, parts]
  intro is
  have shape : Token.symbol .question :: (tokensOf two ++ Token.symbol .colon :: tokensOf three) ++ rest =
      [Token.symbol .question] ++
        (tokensOf two ++ ([Token.symbol .colon] ++ (tokensOf three ++ rest))) := by
    simp only [List.append_assoc, List.cons_append, List.nil_append]
  rw [shape] at is
  have enough := on.enough
  rw [← cursor.length_tokens, is] at enough
  simp only [List.length_append, List.length_cons, List.length_nil] at enough
  have yes : CompleteExpression first consequent (tokensOf two) := yes.complete
  have no : CompleteExpression second alternative (tokensOf three) := no.complete
  have colon : EndsExpression ([Token.symbol .colon] ++ (tokensOf three ++ rest)) :=
    endsExpression_of_first (firstToken_cons.mpr rfl)
  have branches : Takes (ofLevels level).branches ([Token.symbol .question] ++
      (tokensOf two ++ ([Token.symbol .colon] ++ (tokensOf three ++ rest)))) := by
    refine Rule.takes_bind_second (Rule.reads_symbol .question) fun _ _ => ?_
    refine Rule.takes_bind_second (reads_nested (fun level => yes.reads _ level colon) ?_) fun _ _ => ?_
    · simp only [List.length_append, List.length_cons, List.length_nil]
      omega
    refine Rule.takes_bind_second (Rule.reads_symbol .colon) fun _ _ => ?_
    refine Rule.takes_bind (takes_nested (fun level => no.takes rest level) ?_)
    rw [List.length_append]
    omega
  exact branches cursor is on.branches

end Halted

/-- With few enough tokens ahead, what the rule gives is good for the lexemes that it has read. -/
def Sound {α : Type} (rule : Rule α) (limit : Nat) (good : α → List Lexeme → Cursor → Prop) : Prop :=
  ∀ ⦃cursor : Cursor⦄ ⦃value : α⦄ ⦃after : Cursor⦄, cursor.ahead.length ≤ limit →
    Gives rule cursor value after → ∃ lexemes, cursor.Covers lexemes after ∧ good value lexemes after

namespace Sound

variable {α β : Type} {rule other : Rule α} {limit level : Nat}
  {good also : α → List Lexeme → Cursor → Prop}

theorem weaken (sound : Sound rule limit good)
    (weaker : ∀ value lexemes after, good value lexemes after → also value lexemes after) :
    Sound rule limit also := by
  intro cursor value after few gives
  obtain ⟨lexemes, covers, held⟩ := sound few gives
  exact ⟨lexemes, covers, weaker value lexemes after held⟩

theorem map {f : α → β} {fair : β → List Lexeme → Cursor → Prop} (sound : Sound rule limit good)
    (each : ∀ value lexemes after, good value lexemes after → fair (f value) lexemes after) :
    Sound (rule >>= fun value => pure (f value)) limit fair := by
  intro cursor value after few gives
  obtain ⟨read, first, rfl⟩ := gives_map gives
  obtain ⟨lexemes, covers, held⟩ := sound few first
  exact ⟨lexemes, covers, each read lexemes after held⟩

theorem orElse (one : Sound rule limit good) (two : Sound other limit good) :
    Sound (rule.orElse other) limit good := by
  intro cursor value after few gives
  rcases gives_orElse gives with first | ⟨_, second⟩
  · exact one few first
  · exact two few second

theorem fail : Sound (Rule.fail : Rule α) limit good :=
  fun _ _ _ _ gives => absurd gives Rule.not_gives_fail

theorem located (sound : Sound rule limit good)
    (nonempty : ∀ value lexemes after, good value lexemes after → lexemes ≠ []) :
    Sound (Rule.located rule) limit
      (fun read lexemes after => good read.1 lexemes after ∧ read.2 = extentOf lexemes) := by
  intro cursor read after few gives
  obtain ⟨given, place⟩ := gives_located gives
  obtain ⟨lexemes, covers, held⟩ := sound few given
  exact ⟨lexemes, covers, held, place.trans (covers.extent (nonempty _ _ _ held))⟩

theorem between {opening closing : Symbol} (inner : ∀ limit, limit < level → Sound rule limit good) :
    Sound (Rule.between opening rule closing) level (fun value lexemes _ =>
      ∃ first last inside outer, lexemes = first :: (inside ++ [last]) ∧ first.token = .symbol opening ∧
        last.token = .symbol closing ∧ good value inside outer) := by
  intro cursor value after few gives
  obtain ⟨first, last, middle, outer, opens, opened, given, closes, closed⟩ := gives_between gives
  have less : middle.ahead.length < level := by
    have := opens.length
    rw [List.length_singleton] at this
    omega
  obtain ⟨inside, covers, held⟩ := inner _ less (Nat.le_refl _) given
  exact ⟨_, opens.brackets covers closes, first, last, inside, outer, rfl, opened, closed, held⟩

theorem consumes (sound : Sound rule limit good)
    (nonempty : ∀ value lexemes after, good value lexemes after → lexemes ≠ []) : Consumes rule limit := by
  intro cursor value after few gives
  obtain ⟨lexemes, covers, held⟩ := sound few gives
  have positive := List.length_pos_iff.mpr (nonempty _ _ _ held)
  have := covers.length
  omega

end Sound

abbrev SoundExpression (rule : Rule Expression) (limit : Nat) : Prop :=
  Sound rule limit fun value lexemes after =>
    (∃ lead, Derives True (.expression lead value) lexemes) ∧ Halted after

abbrev SoundStatements (rule : Rule (List Statement)) (limit : Nat) : Prop :=
  Sound rule limit fun values lexemes _ => Derives True (.statements values) lexemes

abbrev SoundBranch (rule : Rule Statement) (limit : Nat) : Prop :=
  Sound rule limit fun value lexemes _ => Derives True (.statement .closed .keyword value) lexemes

/-- The rules of the next level of nesting are sound before fewer tokens than there are levels. -/
structure SoundBelow (level : Nat) : Prop where
  expression : ∀ limit, limit < level → SoundExpression (ofLevels level).expression limit
  statements : ∀ limit, limit < level → SoundStatements (ofLevels level).statements limit
  branch : ∀ limit, limit < level → SoundBranch (ofLevels level).branch limit

/-- An atom that ends with the body of an arrow function has taken all that could go on with it. -/
abbrev SoundAtom (value : Expression) (lexemes : List Lexeme) (after : Cursor) : Prop :=
  ∃ lead tail, Derives True (.atom lead tail value) lexemes ∧ (tail = .loose → Halted after)

private theorem exists_map {α β : Type} {f : β → α} {holds : β → Prop} {values : List α}
    (each : ∀ value ∈ values, ∃ part, f part = value ∧ holds part) :
    ∃ parts : List β, parts.map f = values ∧ ∀ part ∈ parts, holds part := by
  induction values with
  | nil => exact ⟨[], rfl, List.forall_mem_nil _⟩
  | cons value others ih =>
    obtain ⟨⟨part, rfl, held⟩, behind⟩ := List.forall_mem_cons.mp each
    obtain ⟨parts, rfl, all⟩ := ih behind
    exact ⟨part :: parts, rfl, List.forall_mem_cons.mpr ⟨held, all⟩⟩

section Atoms

variable {level limit : Nat}

theorem sound_items (below : SoundBelow level) (less : limit < level) :
    Sound (Rule.separated (ofLevels level).expression) limit (fun values lexemes _ =>
      ∃ (items : List (Item Expression)) (trailing : Bool), values = items.map Item.value ∧
        Listing items trailing lexemes ∧
        ∀ item ∈ items, Derives True (.expression item.lead item.value) item.lexemes) := by
  have each : ∀ {cursor : Cursor} {value : Expression} {after : Cursor}, cursor.ahead.length ≤ limit →
      Gives (ofLevels level).expression cursor value after → ∃ item : Item Expression,
        item.value = value ∧ cursor.Covers item.lexemes after ∧
          Derives True (.expression item.lead item.value) item.lexemes := by
    intro cursor value after few gives
    obtain ⟨lexemes, covers, ⟨lead, derived⟩, _⟩ := below.expression limit less few gives
    exact ⟨⟨lead, value, lexemes⟩, rfl, covers, derived⟩
  intro cursor values after few gives
  obtain ⟨items, trailing, lexemes, rfl, covers, listing, all⟩ := gives_separated each few gives
  exact ⟨lexemes, covers, items, trailing, rfl, listing, all⟩

theorem sound_parameters :
    Sound Nested.parameters level (fun names lexemes _ => ∃ lead, Parameters lead names lexemes) := by
  have single : Sound Rule.name level (fun word lexemes _ =>
      ∃ lexeme : Lexeme, lexemes = [lexeme] ∧ lexeme.token = .name word) := by
    intro cursor word after _ gives
    obtain ⟨lexeme, covers, is⟩ := gives_name gives
    exact ⟨[lexeme], covers, lexeme, rfl, is⟩
  have names : ∀ limit, limit < level → Sound (Rule.separated Rule.name) limit (fun names lexemes _ =>
      ∃ (items : List (Item String)) (trailing : Bool), names = items.map Item.value ∧
        Listing items trailing lexemes ∧
        ∀ item ∈ items, ∃ lexeme : Lexeme, item.lexemes = [lexeme] ∧ lexeme.token = .name item.value) := by
    intro limit less cursor names after few gives
    have each : ∀ {cursor : Cursor} {word : String} {after : Cursor}, cursor.ahead.length ≤ limit →
        Gives Rule.name cursor word after → ∃ item : Item String, item.value = word ∧
          cursor.Covers item.lexemes after ∧
            ∃ lexeme : Lexeme, item.lexemes = [lexeme] ∧ lexeme.token = .name item.value := by
      intro cursor word after few gives
      obtain ⟨lexemes, covers, found⟩ := single (Nat.le_trans few (Nat.le_of_lt less)) gives
      exact ⟨⟨.free, word, lexemes⟩, rfl, covers, found⟩
    obtain ⟨items, trailing, lexemes, rfl, covers, listing, all⟩ := gives_separated each few gives
    exact ⟨lexemes, covers, items, trailing, rfl, listing, all⟩
  refine (single.map ?_).orElse ((Sound.between names).weaken ?_)
  · rintro word _ _ ⟨lexeme, rfl, is⟩
    exact ⟨_, .single lexeme word is⟩
  · rintro _ _ _ ⟨opening, closing, inner, _, rfl, opens, closes, items, trailing, rfl, listing, each⟩
    exact ⟨_, .listed opening closing items trailing inner opens closes listing each⟩

theorem sound_block (below : SoundBelow level) :
    Sound (ofLevels level).block level
      (fun values lexemes _ => Derives True (.block values) lexemes) := by
  refine (Sound.between below.statements).weaken ?_
  rintro values _ _ ⟨opening, closing, inner, _, rfl, opens, closes, within⟩
  exact .block opening closing opens closes within

theorem sound_body (below : SoundBelow level) (less : limit < level) :
    Sound (ofLevels level).body limit (fun value lexemes after =>
      ∃ tail, Derives True (.body tail value) lexemes ∧ (tail = .loose → Halted after)) := by
  intro cursor value after few gives
  have enough := Nat.le_trans few (Nat.le_of_lt less)
  rcases gives_orElse gives with first | ⟨noBlock, second⟩
  · obtain ⟨statements, given, rfl⟩ := gives_map first
    obtain ⟨lexemes, covers, within⟩ := sound_block below enough given
    exact ⟨lexemes, covers, .firm, .bodyBlock within, fun is => by cases is⟩
  · obtain ⟨read, given, rfl⟩ := gives_map second
    obtain ⟨lexemes, covers, ⟨lead, within⟩, halted⟩ := below.expression limit less few given
    refine ⟨lexemes, covers, .loose, .bodyExpression (fun braces => ?_) within, fun _ => halted⟩
    have complete : CompleteExpression lead read (tokensOf lexemes) := within.complete
    have fits : (tokensOf lexemes ++ after.tokens).length ≤ level := by
      rw [← covers.tokens, cursor.length_tokens]
      exact enough
    have block : Takes (do let statements ← (ofLevels level).block; return Body.block statements)
        (tokensOf lexemes ++ after.tokens) :=
      Rule.takes_bind (complete.starts.block braces after.tokens level fits)
    exact block cursor covers.tokens noBlock

theorem sound_arrow (below : SoundBelow level) :
    Sound (ofLevels level).arrow level (fun build lexemes after =>
      ∀ span, SoundAtom (build span) lexemes after) := by
  intro cursor build after few gives
  obtain ⟨names, middle, listed, behind⟩ := gives_bind gives
  obtain ⟨_, inner, sign, last⟩ := gives_bind behind
  obtain ⟨body, given, rfl⟩ := gives_map last
  obtain ⟨parameters, one, lead, are⟩ := sound_parameters few listed
  obtain ⟨lexeme, two, is⟩ := gives_symbol sign
  have less : inner.ahead.length < level := by
    have := two.length
    have := one.length_le
    rw [List.length_singleton] at *
    omega
  obtain ⟨lexemes, three, tail, derived, halted⟩ := sound_body below less (Nat.le_refl _) given
  exact ⟨_, one.append (two.cons three), fun span =>
    ⟨lead, tail, .arrow span lexeme is are derived, halted⟩⟩

theorem sound_entries (below : SoundBelow level) (less : limit < level) :
    Sound (Rule.separated (ofLevels level).entry) limit (fun entries lexemes _ =>
      ∃ (fields : List Field) (trailing : Bool),
        entries = fields.map (fun field => (field.name, field.item.value)) ∧
        Listing (fields.map Field.entry) trailing lexemes ∧ ∀ field ∈ fields, field.Fits ∧
          Derives True (.expression field.item.lead field.item.value) field.item.lexemes) := by
  have each : ∀ {cursor : Cursor} {value : String × Expression} {after : Cursor},
      cursor.ahead.length ≤ limit → Gives (ofLevels level).entry cursor value after →
      ∃ item : Item (String × Expression), item.value = value ∧ cursor.Covers item.lexemes after ∧
        ∃ field : Field, field.entry = item ∧ (field.Fits ∧
          Derives True (.expression field.item.lead field.item.value) field.item.lexemes) := by
    intro cursor value after few gives
    obtain ⟨name, middle, first, behind⟩ := gives_bind gives
    obtain ⟨_, inner, second, last⟩ := gives_bind behind
    obtain ⟨value, given, rfl⟩ := gives_map last
    obtain ⟨key, one, named⟩ := isToken_key.gives first
    obtain ⟨colon, two, is⟩ := gives_symbol second
    have few := Nat.le_trans two.length_le (Nat.le_trans one.length_le few)
    obtain ⟨lexemes, three, ⟨lead, derived⟩, _⟩ := below.expression limit less few given
    exact ⟨_, rfl, one.cons (two.cons three), ⟨key, colon, name, lead, value, lexemes⟩, rfl,
      ⟨named, is⟩, derived⟩
  intro cursor entries after few gives
  obtain ⟨items, trailing, lexemes, rfl, covers, listing, all⟩ := gives_separated each few gives
  obtain ⟨fields, rfl, held⟩ := exists_map all
  refine ⟨lexemes, covers, fields, trailing, ?_, listing, held⟩
  rw [List.map_map]
  rfl

theorem sound_bareAtom (below : SoundBelow level) :
    Sound (ofLevels level).bareAtom level (fun build lexemes after =>
      SoundAtom (build (extentOf lexemes)) lexemes after) := by
  have firm : ∀ {value : Expression} {lexemes : List Lexeme} {after : Cursor} {lead : Lead},
      Derives True (.atom lead .firm value) lexemes → SoundAtom value lexemes after :=
    fun derived => ⟨_, .firm, derived, fun is => by cases is⟩
  refine Sound.orElse ((sound_arrow below).weaken fun _ _ _ each => each _) ?_
  refine Sound.orElse ?_ (Sound.orElse ?_ (Sound.orElse ?_ (Sound.orElse ?_ Sound.fail)))
  · intro cursor build after few gives
    obtain ⟨value, given, rfl⟩ := gives_map gives
    obtain ⟨lexeme, covers, is⟩ := isToken_literal.gives given
    exact ⟨[lexeme], covers, firm (.literal lexeme _ value is)⟩
  · refine (Sound.between fun limit => sound_items below).map ?_
    rintro _ _ _ ⟨opening, closing, inner, _, rfl, opens, closes, items, trailing, rfl, listing, each⟩
    exact firm (.array opening closing _ items trailing inner opens closes listing each)
  · refine (Sound.between fun limit => sound_entries below).map ?_
    rintro _ _ _ ⟨opening, closing, inner, _, rfl, opens, closes, fields, trailing, rfl, listing, each⟩
    exact firm (.object opening closing _ fields trailing inner opens closes listing
      (fun field member => (each field member).1) fun field member => (each field member).2)
  · intro cursor build after few gives
    obtain ⟨word, given, rfl⟩ := gives_map gives
    obtain ⟨lexeme, covers, is⟩ := gives_name given
    exact ⟨[lexeme], covers, firm (.name lexeme _ word is fun _ => rfl)⟩

theorem sound_atom (below : SoundBelow level) : Sound (ofLevels level).atom level SoundAtom := by
  refine Sound.orElse ?_ ((Sound.between below.expression).weaken ?_)
  · have nonempty : ∀ (build : Span → Expression) (lexemes : List Lexeme) (after : Cursor),
        SoundAtom (build (extentOf lexemes)) lexemes after → lexemes ≠ [] := by
      rintro build lexemes after ⟨lead, tail, derived, _⟩ rfl
      obtain ⟨_, _, is, _⟩ := derived.first_of_atom
      cases is
    intro cursor value after few gives
    obtain ⟨read, given, is⟩ := gives_map gives
    obtain ⟨lexemes, covers, held, place⟩ := (sound_bareAtom below).located nonempty few given
    refine ⟨lexemes, covers, ?_⟩
    rw [is, place]
    exact held
  · rintro value _ _ ⟨opening, closing, inner, _, rfl, opens, closes, ⟨lead, within⟩, _⟩
    exact ⟨_, .firm, .brackets opening closing opens closes within, fun is => by cases is⟩

theorem sound_suffix (below : SoundBelow level) :
    Sound (ofLevels level).suffix level
      (fun value lexemes _ => Derives True (.suffix value) lexemes) := by
  refine Sound.orElse ?_ (Sound.orElse ?_ (Sound.orElse ?_ Sound.fail))
  · refine (Sound.between fun limit => sound_items below).map ?_
    rintro _ _ _ ⟨opening, closing, inner, _, rfl, opens, closes, items, trailing, rfl, listing, each⟩
    exact .call opening closing items trailing inner opens closes listing each
  · intro cursor value after few gives
    obtain ⟨_, middle, first, last⟩ := gives_bind gives
    obtain ⟨word, given, rfl⟩ := gives_map last
    obtain ⟨dot, one, is⟩ := gives_symbol first
    obtain ⟨property, two, named⟩ := gives_name given
    exact ⟨_, one.cons two, .member dot property word is named⟩
  · refine (Sound.between below.expression).map ?_
    rintro value _ _ ⟨opening, closing, inner, _, rfl, opens, closes, ⟨lead, within⟩, _⟩
    exact .index opening closing opens closes within

end Atoms

section Operations

variable {level : Nat}

/-- A phrase that is loose has taken all that could go on with it, and any other all suffixes. -/
structure Settled (level : Nat) (tail : Tail) (after : Cursor) : Prop where
  loose : tail = .loose → Halted after
  suffix : ((ofLevels level).suffix after).outcome = none

abbrev SoundOperand (level : Nat) (value : Operand) (lexemes : List Lexeme) (after : Cursor) : Prop :=
  ∃ lead tail, Derives True (.operand lead tail value) lexemes ∧ Settled level tail after

private theorem nonempty_of_suffix {exact : Prop} {value : Suffix} {lexemes : List Lexeme}
    (derived : Derives exact (.suffix value) lexemes) : lexemes ≠ [] := by
  rintro rfl
  have complete : CompleteSuffix value [] := derived.complete
  obtain ⟨_, _, is, _⟩ := complete.opens
  cases is

theorem sound_chain (below : SoundBelow level) :
    Sound (ofLevels level).chain level (fun value lexemes after =>
      ∃ lead tail, Derives True (.chain lead tail value) lexemes ∧ Settled level tail after) := by
  intro cursor value after few gives
  obtain ⟨target, middle, first, behind⟩ := gives_bind gives
  obtain ⟨suffixes, given, rfl⟩ := gives_map behind
  obtain ⟨inner, one, lead, tail, atom, halted⟩ := sound_atom below few first
  have sound := (sound_suffix below).located fun _ _ _ => nonempty_of_suffix
  have fewer := Nat.le_trans one.length_le few
  have empty : Rule.Misses (Rule.located (ofLevels level).suffix) [] :=
    Rule.misses_located (misses_suffix (fun is => by cases is) (fun is => by cases is)
      (fun is => by cases is))
  have consumes := sound.consumes fun _ _ _ held => nonempty_of_suffix held.1
  obtain ⟨steps, ends⟩ := gives_many consumes empty fewer given
  have each : ∀ {cursor : Cursor} {value : Suffix × Span} {after : Cursor}, cursor.ahead.length ≤ level →
      Gives (Rule.located (ofLevels level).suffix) cursor value after → ∃ trailer : Trailer,
        trailer.suffix = value ∧ cursor.Covers trailer.lexemes after ∧
          Derives True (.suffix trailer.suffix.1) trailer.lexemes := by
    intro cursor value after few gives
    obtain ⟨lexemes, covers, derived, _⟩ := sound few gives
    exact ⟨⟨value, lexemes⟩, rfl, covers, derived⟩
  obtain ⟨trailers, rfl, two, derived⟩ := steps.parts each fewer
  have none : tail = .loose → trailers = [] := by
    intro loose
    cases trailers with
    | nil => rfl
    | cons trailer others =>
      have tokens := two.tokens
      rw [List.flatMap_cons, tokensOf_append, List.append_assoc] at tokens
      exact absurd tokens ((halted loose).no_suffix (derived trailer (List.mem_cons_self ..)))
  refine ⟨_, one.append two, lead, tail, .chain trailers atom none derived, fun loose => ?_,
    Option.map_eq_none_iff.mp ends⟩
  have covers : middle.Covers [] after := by
    rw [none loose] at two
    exact two
  rw [← covers.eq_of_nothing]
  exact halted loose

theorem sound_operand (below : SoundBelow level) :
    Sound (ofLevels level).operand level (SoundOperand level) := by
  intro cursor value after few gives
  obtain ⟨operators, middle, first, behind⟩ := gives_bind gives
  obtain ⟨read, given, rfl⟩ := gives_map behind
  have each : ∀ {cursor : Cursor} {operator : UnaryOperator × Span} {after : Cursor},
      cursor.ahead.length ≤ level →
      Gives (Rule.located Nested.prefixOperator) cursor operator after → ∃ sign : Sign,
        sign.operator = operator ∧ cursor.Covers [sign.lexeme] after ∧
          Nested.prefixOperator.accepts? sign.lexeme.token = some sign.operator.1 := by
    intro cursor operator after few gives
    obtain ⟨lexeme, covers, is⟩ := isToken_prefixOperator.gives (gives_located gives).1
    exact ⟨⟨operator, lexeme⟩, rfl, covers, is⟩
  have consumes : Consumes (Rule.located Nested.prefixOperator) level := by
    intro cursor operator after few gives
    obtain ⟨sign, _, covers, _⟩ := each few gives
    have := covers.length
    rw [List.length_singleton] at this
    omega
  have empty : Rule.Misses (Rule.located Nested.prefixOperator) [] :=
    Rule.misses_located (isToken_prefixOperator.misses fun _ is => by cases is)
  obtain ⟨signs, rfl, one, are⟩ := (gives_many consumes empty few first).1.parts each few
  rw [← List.map_eq_flatMap] at one
  obtain ⟨chained, place⟩ := gives_located given
  obtain ⟨inner, two, lead, tail, chain, settled⟩ :=
    sound_chain below (Nat.le_trans one.length_le few) chained
  exact ⟨_, one.append two, _, tail, .operand _ signs are chain, settled⟩

private theorem sound_link (below : SoundBelow level) :
    Sound (ofLevels level).link level (fun read lexemes after => ∃ link : Link,
      read = (link.operator, link.item.value) ∧ lexemes = link.sign :: link.item.lexemes ∧
      Nested.infixOperator.accepts? link.sign.token = some link.operator ∧
      Derives True (.operand link.item.lead link.tail link.item.value) link.item.lexemes ∧
      Settled level link.tail after) := by
  intro cursor read after few gives
  obtain ⟨operator, middle, first, behind⟩ := gives_bind gives
  obtain ⟨operand, given, rfl⟩ := gives_map behind
  obtain ⟨sign, one, accepts⟩ := isToken_infixOperator.gives first
  obtain ⟨inner, two, lead, tail, derived, settled⟩ :=
    sound_operand below (Nat.le_trans one.length_le few) given
  exact ⟨_, one.cons two, ⟨sign, operator, ⟨lead, operand, inner⟩, tail⟩, rfl, rfl, accepts, derived,
    settled⟩

private theorem links_of_steps (below : SoundBelow level) {cursor after : Cursor}
    {values : List (BinaryOperator × Operand)} (steps : Steps (ofLevels level).link cursor values after)
    (few : cursor.ahead.length ≤ level) {tail : Tail} (settled : Settled level tail cursor) :
    ∃ links : List Link, values = links.map (fun link => (link.operator, link.item.value)) ∧
      cursor.Covers (links.flatMap (fun link => link.sign :: link.item.lexemes)) after ∧
      (∀ link ∈ links, Nested.infixOperator.accepts? link.sign.token = some link.operator) ∧
      FirmBefore tail links ∧
      (∀ link ∈ links, Derives True (.operand link.item.lead link.tail link.item.value)
        link.item.lexemes) ∧
      Settled level (tailOfLinks tail links) after := by
  induction steps generalizing tail with
  | done cursor =>
    exact ⟨[], rfl, .nothing cursor, List.forall_mem_nil _, trivial, List.forall_mem_nil _, settled⟩
  | step first others ih =>
    obtain ⟨_, one, link, rfl, rfl, accepts, derived, behind⟩ := sound_link below few first
    obtain ⟨links, rfl, two, are, firm, each, last⟩ := ih (Nat.le_trans one.length_le few) behind
    refine ⟨link :: links, rfl, one.append two, List.forall_mem_cons.mpr ⟨accepts, are⟩, ⟨?_, firm⟩,
      List.forall_mem_cons.mpr ⟨derived, each⟩, last⟩
    cases is : tail with
    | firm => rfl
    | loose => exact absurd one.tokens ((settled.loose is).no_link accepts derived)

theorem sound_operation (below : SoundBelow level) :
    Sound (ofLevels level).operation level (fun value lexemes after =>
      ∃ lead tail, Derives True (.operation lead tail value) lexemes ∧ Settled level tail after ∧
        ((ofLevels level).link after).outcome = none) := by
  intro cursor value after few gives
  obtain ⟨head, middle, first, behind⟩ := gives_bind gives
  obtain ⟨values, given, rfl⟩ := gives_map behind
  obtain ⟨inner, one, lead, tail, derived, settled⟩ := sound_operand below few first
  have fewer := Nat.le_trans one.length_le few
  have consumes : Consumes (ofLevels level).link level := by
    refine (sound_link below).consumes ?_
    rintro _ _ _ ⟨link, _, rfl, _⟩
    exact List.cons_ne_nil _ _
  have empty : Rule.Misses (ofLevels level).link [] :=
    Rule.misses_bind (isToken_infixOperator.misses fun _ is => by cases is)
  have many : Gives (Rule.many (ofLevels level).link) middle values after := given
  obtain ⟨steps, ends⟩ := gives_many consumes empty fewer many
  obtain ⟨links, rfl, two, are, firm, each, last⟩ := links_of_steps below steps fewer settled
  exact ⟨_, one.append two, lead, _, .operation links are derived firm each, last, ends⟩

theorem sound_expressionRule (below : SoundBelow level) :
    SoundExpression (ofLevels level).expressionRule level := by
  intro cursor value after few gives
  obtain ⟨read, middle, first, last⟩ := gives_bind gives
  obtain ⟨condition, outer, given, behind⟩ := gives_bind (gives_located first).1
  obtain ⟨branches, tried, is⟩ := gives_map behind
  obtain ⟨inner, one, lead, tail, operation, settled, noLink⟩ := sound_operation below few given
  have fewer := Nat.le_trans one.length_le few
  obtain ⟨both, span⟩ := read
  subst is
  rcases gives_optional tried with ⟨branches, rfl, given⟩ | ⟨none, rfl, rfl⟩
  · obtain ⟨rfl, rfl⟩ := gives_pure last
    obtain ⟨_, second, question, rest⟩ := gives_bind given
    obtain ⟨consequent, third, yes, rest⟩ := gives_bind rest
    obtain ⟨_, fourth, colon, rest⟩ := gives_bind rest
    obtain ⟨alternative, no, rfl⟩ := gives_map rest
    obtain ⟨question, two, asks⟩ := gives_symbol question
    have less : second.ahead.length < level := by
      have := two.length
      rw [List.length_singleton] at this
      omega
    obtain ⟨lexemes, three, ⟨_, yes⟩, _⟩ := below.expression _ less (Nat.le_refl _) yes
    obtain ⟨colon, four, parts⟩ := gives_symbol colon
    have fits := Nat.le_trans four.length_le three.length_le
    obtain ⟨others, five, ⟨_, no⟩, halted⟩ := below.expression _ less fits no
    have covers := two.cons (three.append (four.cons five))
    have firm : tail = .firm := by
      cases is : tail with
      | firm => rfl
      | loose => exact absurd covers.tokens ((settled.loose is).no_branches asks parts yes no)
    rw [firm] at operation
    exact ⟨_, one.append covers, ⟨lead, .conditional _ question colon asks parts operation yes no⟩, halted⟩
  · obtain ⟨rfl, rfl⟩ := gives_pure last
    exact ⟨inner, one, ⟨lead, .plain operation⟩, level, fewer, settled.suffix, noLink, none⟩

end Operations

end ScreenStudio.Source
