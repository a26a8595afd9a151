/- digest: What rules have done where they have read something, one step behind the other. -/

import ScreenStudio.Proofs.Source.Derivation

set_option autoImplicit false
set_option relaxedAutoImplicit false

namespace ScreenStudio.Source

/-- From the first cursor to the second the lexemes are read. -/
structure Cursor.Covers (cursor : Cursor) (lexemes : List Lexeme) (after : Cursor) : Prop where
  ahead : cursor.ahead = lexemes ++ after.ahead
  behind : after.behind = stopOf cursor.behind lexemes

namespace Cursor.Covers

variable {cursor middle after : Cursor} {first second : List Lexeme}

theorem nothing (cursor : Cursor) : cursor.Covers [] cursor := ⟨rfl, rfl⟩

theorem eq_of_nothing (covers : cursor.Covers [] after) : cursor = after := by
  obtain ⟨ahead, behind⟩ := cursor
  obtain ⟨aheadAfter, behindAfter⟩ := after
  obtain ⟨same, stop⟩ := covers
  dsimp only [stopOf, List.nil_append] at same stop
  rw [same, stop]

theorem append (one : cursor.Covers first middle) (two : middle.Covers second after) :
    cursor.Covers (first ++ second) after := by
  refine ⟨?_, ?_⟩
  · rw [one.ahead, two.ahead, List.append_assoc]
  · rw [two.behind, one.behind, stopOf_append]

theorem cons {lexeme : Lexeme} (one : cursor.Covers [lexeme] middle) (two : middle.Covers second after) :
    cursor.Covers (lexeme :: second) after := one.append two

theorem brackets {opening closing : Lexeme} {inner outer : Cursor}
    (one : cursor.Covers [opening] inner) (two : inner.Covers second outer)
    (three : outer.Covers [closing] after) : cursor.Covers (opening :: (second ++ [closing])) after :=
  one.cons (two.append three)

theorem tokens (covers : cursor.Covers first after) : cursor.tokens = tokensOf first ++ after.tokens := by
  unfold Cursor.tokens
  rw [covers.ahead, List.map_append]
  rfl

theorem length (covers : cursor.Covers first after) :
    cursor.ahead.length = first.length + after.ahead.length := by
  rw [covers.ahead, List.length_append]

theorem length_le (covers : cursor.Covers first after) : after.ahead.length ≤ cursor.ahead.length := by
  rw [covers.length]
  exact Nat.le_add_left _ _

theorem extent (covers : cursor.Covers first after) (nonempty : first ≠ []) :
    (⟨cursor.start, after.behind⟩ : Span) = extentOf first := by
  obtain ⟨lexeme, rest, rfl⟩ := List.exists_cons_of_ne_nil nonempty
  unfold Cursor.start
  rw [covers.ahead, covers.behind]
  rfl

end Cursor.Covers

namespace Rule

variable {α β : Type} {rule other : Rule α} {next : α → Rule β} {cursor after : Cursor} {value : α}

/-- The rule reads on from the first cursor to the second and gives the value. -/
def Gives (rule : Rule α) (cursor : Cursor) (value : α) (after : Cursor) : Prop :=
  (rule cursor).outcome = some (value, after)

theorem gives_pure {read : α} (gives : Gives (pure value) cursor read after) :
    read = value ∧ after = cursor := by
  cases gives
  exact ⟨rfl, rfl⟩

theorem gives_bind {result : β} (gives : Gives (rule >>= next) cursor result after) :
    ∃ first middle, Gives rule cursor first middle ∧ Gives (next first) middle result after := by
  unfold Gives at gives
  cases outcome : (rule cursor).outcome with
  | none =>
    rw [outcome_bind_of_none outcome] at gives
    cases gives
  | some first =>
    rw [outcome_bind_of_some outcome] at gives
    exact ⟨first.1, first.2, outcome, gives⟩

theorem gives_map {f : α → β} {result : β}
    (gives : Gives (rule >>= fun read => pure (f read)) cursor result after) :
    ∃ read, Gives rule cursor read after ∧ result = f read := by
  obtain ⟨read, middle, first, last⟩ := gives_bind gives
  obtain ⟨rfl, rfl⟩ := gives_pure last
  exact ⟨read, first, rfl⟩

theorem gives_orElse (gives : Gives (rule.orElse other) cursor value after) :
    Gives rule cursor value after ∨ ((rule cursor).outcome = none ∧ Gives other cursor value after) := by
  unfold Gives at gives
  cases outcome : (rule cursor).outcome with
  | none =>
    rw [outcome_orElse_of_none outcome] at gives
    exact .inr ⟨rfl, gives⟩
  | some result =>
    rw [outcome_orElse_of_some outcome] at gives
    exact .inl (outcome.trans gives)

theorem not_gives_fail : ¬ Gives (fail : Rule α) cursor value after := fun gives => by cases gives

theorem gives_optional {read : Option α} (gives : Gives (optional rule) cursor read after) :
    (∃ value, read = some value ∧ Gives rule cursor value after) ∨
      ((rule cursor).outcome = none ∧ read = none ∧ after = cursor) := by
  rcases gives_orElse gives with first | ⟨none, last⟩
  · obtain ⟨value, given, is⟩ := gives_map first
    exact .inl ⟨value, is, given⟩
  · obtain ⟨is, same⟩ := gives_pure last
    refine .inr ⟨?_, is, same⟩
    cases outcome : (rule cursor).outcome with
    | none => rfl
    | some result =>
      have taken := none.symm.trans (outcome_bind_of_some outcome)
      cases taken

theorem gives_located {read : α × Span} (gives : Gives (located rule) cursor read after) :
    Gives rule cursor read.1 after ∧ read.2 = ⟨cursor.start, after.behind⟩ := by
  unfold Gives located at gives
  dsimp only at gives
  obtain ⟨result, outcome, is⟩ := Option.map_eq_some_iff.mp gives
  cases is
  exact ⟨outcome, rfl⟩

theorem IsToken.gives (single : IsToken rule) (given : Gives rule cursor value after) :
    ∃ lexeme, cursor.Covers [lexeme] after ∧ rule.accepts? lexeme.token = some value := by
  obtain ⟨expected, accept, rfl⟩ := single
  obtain ⟨ahead, behind⟩ := cursor
  cases ahead with
  | nil => cases given
  | cons lexeme rest =>
    unfold Gives token at given
    dsimp only at given
    cases accepted : accept lexeme.token with
    | none =>
      rw [accepted] at given
      cases given
    | some read =>
      rw [accepted] at given
      cases given
      refine ⟨lexeme, ⟨rfl, rfl⟩, ?_⟩
      unfold accepts? token
      dsimp only
      rw [accepted]
      rfl

theorem gives_symbol {mark : Symbol} {read : Unit} (gives : Gives (symbol mark) cursor read after) :
    ∃ lexeme, cursor.Covers [lexeme] after ∧ lexeme.token = .symbol mark := by
  obtain ⟨lexeme, covers, accepts⟩ := (isToken_symbol mark).gives gives
  refine ⟨lexeme, covers, Decidable.byContradiction fun different => ?_⟩
  rw [refuses_symbol different] at accepts
  cases accepts

theorem gives_keyword {word : Keyword} {read : Unit} (gives : Gives (keyword word) cursor read after) :
    ∃ lexeme, cursor.Covers [lexeme] after ∧ lexeme.token = .keyword word := by
  obtain ⟨lexeme, covers, accepts⟩ := (isToken_keyword word).gives gives
  refine ⟨lexeme, covers, Decidable.byContradiction fun different => ?_⟩
  rw [refuses_keyword different] at accepts
  cases accepts

theorem gives_name {word : String} (gives : Gives name cursor word after) :
    ∃ lexeme, cursor.Covers [lexeme] after ∧ lexeme.token = .name word := by
  obtain ⟨⟨token, span⟩, covers, accepts⟩ := isToken_name.gives gives
  refine ⟨⟨token, span⟩, covers, ?_⟩
  cases token with
  | name other =>
    cases accepts
    rfl
  | _ => cases accepts

theorem gives_between {opening closing : Symbol}
    (gives : Gives (between opening rule closing) cursor value after) :
    ∃ first last inner outer, cursor.Covers [first] inner ∧ first.token = .symbol opening ∧
      Gives rule inner value outer ∧ outer.Covers [last] after ∧ last.token = .symbol closing := by
  obtain ⟨_, inner, opens, behind⟩ := gives_bind gives
  obtain ⟨read, outer, given, ends⟩ := gives_bind behind
  obtain ⟨_, closes, rfl⟩ := gives_map ends
  obtain ⟨first, one, opened⟩ := gives_symbol opens
  obtain ⟨last, two, closed⟩ := gives_symbol closes
  exact ⟨first, last, inner, outer, one, opened, given, two, closed⟩

/-- The rule gives the values one behind the other. -/
inductive Steps (rule : Rule α) : Cursor → List α → Cursor → Prop
  | done (cursor : Cursor) : Steps rule cursor [] cursor
  | step {cursor middle after : Cursor} {value : α} {values : List α}
    (first : Gives rule cursor value middle) (others : Steps rule middle values after) :
    Steps rule cursor (value :: values) after

/-- Each time the rule reads something, it takes a token, as long as there are few enough ahead. -/
def Consumes (rule : Rule α) (limit : Nat) : Prop :=
  ∀ ⦃cursor : Cursor⦄ ⦃value : α⦄ ⦃after : Cursor⦄, cursor.ahead.length ≤ limit →
    Gives rule cursor value after → after.ahead.length < cursor.ahead.length

variable {limit : Nat}

private theorem steps_of_upTo (consumes : Consumes rule limit) (empty : Misses rule [])
    {spare : List Lexeme} {values : List α} (few : cursor.ahead.length ≤ limit)
    (enough : cursor.ahead.length ≤ spare.length) (gives : Gives (upTo rule spare) cursor values after) :
    Steps rule cursor values after ∧ (rule after).outcome = none := by
  induction spare generalizing cursor values with
  | nil =>
    have same : values = [] ∧ after = cursor := gives_pure gives
    obtain ⟨rfl, rfl⟩ := same
    have none : after.ahead = [] := List.length_eq_zero_iff.mp (Nat.le_zero.mp enough)
    exact ⟨.done _, empty after (congrArg (List.map Lexeme.token) none)⟩
  | cons _ spare ih =>
    unfold Gives upTo at gives
    dsimp only at gives
    cases outcome : (rule cursor).outcome with
    | none =>
      rw [outcome] at gives
      cases gives
      exact ⟨.done _, outcome⟩
    | some first =>
      rw [outcome] at gives
      obtain ⟨more, others, is⟩ := Option.map_eq_some_iff.mp gives
      cases is
      have fewer := consumes few outcome
      rw [List.length_cons] at enough
      obtain ⟨steps, last⟩ := ih (by omega) (by omega) others
      exact ⟨.step outcome steps, last⟩

theorem gives_many {values : List α} (consumes : Consumes rule limit) (empty : Misses rule [])
    (few : cursor.ahead.length ≤ limit) (gives : Gives (many rule) cursor values after) :
    Steps rule cursor values after ∧ (rule after).outcome = none :=
  steps_of_upTo consumes empty few (Nat.le_refl _) gives

theorem Steps.parts {γ : Type} {image : γ → α} {row : γ → List Lexeme} {holds : γ → Prop}
    (each : ∀ {cursor : Cursor} {value : α} {after : Cursor}, cursor.ahead.length ≤ limit →
      Gives rule cursor value after →
      ∃ part, image part = value ∧ cursor.Covers (row part) after ∧ holds part)
    {values : List α} (steps : Steps rule cursor values after) (few : cursor.ahead.length ≤ limit) :
    ∃ parts : List γ, parts.map image = values ∧ cursor.Covers (parts.flatMap row) after ∧
      ∀ part ∈ parts, holds part := by
  induction steps with
  | done cursor => exact ⟨[], rfl, .nothing cursor, List.forall_mem_nil _⟩
  | step first others ih =>
    obtain ⟨part, rfl, covers, held⟩ := each few first
    obtain ⟨parts, rfl, behind, all⟩ := ih (Nat.le_trans covers.length_le few)
    exact ⟨part :: parts, rfl, covers.append behind, List.forall_mem_cons.mpr ⟨held, all⟩⟩

theorem gives_separated {holds : Item α → Prop}
    (each : ∀ {cursor : Cursor} {value : α} {after : Cursor}, cursor.ahead.length ≤ limit →
      Gives rule cursor value after →
      ∃ item : Item α, item.value = value ∧ cursor.Covers item.lexemes after ∧ holds item)
    {values : List α} (few : cursor.ahead.length ≤ limit)
    (gives : Gives (separated rule) cursor values after) :
    ∃ (items : List (Item α)) (trailing : Bool) (lexemes : List Lexeme),
      items.map Item.value = values ∧ cursor.Covers lexemes after ∧ Listing items trailing lexemes ∧
        ∀ item ∈ items, holds item := by
  have behindComma : ∀ {cursor : Cursor} {value : α} {after : Cursor}, cursor.ahead.length ≤ limit →
      Gives (do symbol .comma; rule) cursor value after →
      ∃ part : Lexeme × Item α, part.2.value = value ∧ cursor.Covers (part.1 :: part.2.lexemes) after ∧
        (part.1.token = .symbol .comma ∧ holds part.2) := by
    intro cursor value after few gives
    obtain ⟨_, middle, comma, given⟩ := gives_bind gives
    obtain ⟨lexeme, covers, is⟩ := gives_symbol comma
    obtain ⟨item, same, behind, held⟩ := each (Nat.le_trans covers.length_le few) given
    exact ⟨(lexeme, item), same, covers.cons behind, is, held⟩
  obtain ⟨head, middle, first, rest⟩ := gives_bind gives
  rcases gives_optional first with ⟨value, rfl, given⟩ | ⟨_, rfl, rfl⟩
  · obtain ⟨others, outer, more, last⟩ := gives_bind rest
    obtain ⟨comma, closed, rfl⟩ := gives_map last
    obtain ⟨item, rfl, own, held⟩ := each few given
    have fewer := Nat.le_trans own.length_le few
    have consumes : Consumes (do symbol .comma; rule) limit := by
      intro cursor value after few gives
      obtain ⟨part, _, covers, _⟩ := behindComma few gives
      have length := covers.length
      rw [List.length_cons] at length
      omega
    have empty : Misses (do symbol .comma; rule) [] := misses_bind (misses_symbol fun is => by cases is)
    obtain ⟨parts, rfl, behind, all⟩ := (gives_many consumes empty fewer more).1.parts behindComma fewer
    have trailing : ∃ trailing : Option Lexeme, outer.Covers trailing.toList after ∧
        ∀ lexeme ∈ trailing, lexeme.token = .symbol .comma := by
      rcases gives_optional closed with ⟨_, _, given⟩ | ⟨_, _, rfl⟩
      · obtain ⟨lexeme, covers, is⟩ := gives_symbol given
        exact ⟨some lexeme, covers, fun other member => Option.some.inj member ▸ is⟩
      · exact ⟨none, .nothing _, fun _ member => by cases member⟩
    obtain ⟨trailing, ends, are⟩ := trailing
    refine ⟨item :: parts.map Prod.snd, trailing.isSome, _, ?_, own.append (behind.append ends),
      .row item parts trailing (fun other member => (all other member).1) are, ?_⟩
    · rw [List.map_cons, List.map_map]
      rfl
    · exact List.forall_mem_cons.mpr
        ⟨held, List.forall_mem_map.mpr fun other member => (all other member).2⟩
  · obtain ⟨rfl, rfl⟩ := gives_pure rest
    exact ⟨[], false, [], rfl, .nothing _, .empty, List.forall_mem_nil _⟩

end Rule

end ScreenStudio.Source
