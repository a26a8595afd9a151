/- digest: What rules read and what they miss depends on the tokens ahead alone. -/

import ScreenStudio.Proofs.Source.Bare

set_option autoImplicit false
set_option relaxedAutoImplicit false

namespace ScreenStudio.Source

/-- The tokens ahead without their places. -/
def Cursor.tokens (cursor : Cursor) : List Token := cursor.ahead.map Lexeme.token

namespace Rule

variable {α β γ : Type}

/-- In front of the others the rule reads just these tokens, with a good value. -/
def Reads (rule : Rule α) (tokens rest : List Token) (good : α → Prop) : Prop :=
  ∀ cursor : Cursor, cursor.tokens = tokens ++ rest →
    ∃ value after, (rule cursor).outcome = some (value, after) ∧ after.tokens = rest ∧ good value

/-- With these tokens ahead the rule fails. -/
def Misses (rule : Rule α) (ahead : List Token) : Prop :=
  ∀ cursor : Cursor, cursor.tokens = ahead → (rule cursor).outcome = none

/-- With these tokens ahead the rule reads something. -/
def Takes (rule : Rule α) (ahead : List Token) : Prop :=
  ∀ cursor : Cursor, cursor.tokens = ahead → (rule cursor).outcome ≠ none

/-- What the rule makes of a single token. -/
def accepts? (rule : Rule α) (found : Token) : Option α :=
  (rule ⟨[⟨found, nowhere⟩], 0⟩).outcome.map Prod.fst

/-- The rule looks at one token. -/
def IsToken (rule : Rule α) : Prop := ∃ expected accept, rule = token expected accept

variable {rule other : Rule α} {next : α → Rule β} {tokens more rest ahead : List Token}
  {good : α → Prop} {fine : β → Prop}

theorem Reads.takes (reads : Reads rule tokens rest good) : Takes rule (tokens ++ rest) := by
  intro cursor same
  obtain ⟨value, after, outcome, _⟩ := reads cursor same
  rw [outcome]
  exact fun is => by cases is

theorem Reads.weaken {also : α → Prop} (reads : Reads rule tokens rest good)
    (weaker : ∀ value, good value → also value) : Reads rule tokens rest also := by
  intro cursor same
  obtain ⟨value, after, outcome, behind, held⟩ := reads cursor same
  exact ⟨value, after, outcome, behind, weaker value held⟩

theorem reads_pure (value : α) : Reads (pure value) [] rest (fun read => read = value) :=
  fun cursor same => ⟨value, cursor, rfl, same, rfl⟩

section Tokens

theorem IsToken.reads (single : IsToken rule) {found : Token} {value : α}
    (accepts : rule.accepts? found = some value) :
    Reads rule [found] rest (fun read => read = value) := by
  obtain ⟨expected, accept, rfl⟩ := single
  rintro ⟨ahead, behind⟩ same
  cases ahead with
  | nil => cases same
  | cons lexeme others =>
    obtain ⟨rfl, rfl⟩ := List.cons.inj same
    have accepted : accept lexeme.token = some value := by
      unfold accepts? token at accepts
      dsimp only at accepts
      cases found : accept lexeme.token with
      | none =>
        rw [found] at accepts
        cases accepts
      | some other =>
        rw [found] at accepts
        exact accepts
    refine ⟨value, ⟨others, lexeme.span.stop⟩, ?_, rfl, rfl⟩
    unfold token
    dsimp only
    rw [accepted]
    rfl

theorem IsToken.misses (single : IsToken rule)
    (refuses : ∀ found, ahead.head? = some found → rule.accepts? found = none) : Misses rule ahead := by
  obtain ⟨expected, accept, rfl⟩ := single
  rintro ⟨lexemes, behind⟩ rfl
  cases lexemes with
  | nil => rfl
  | cons lexeme others =>
    have refused := refuses lexeme.token rfl
    have nothing : accept lexeme.token = none := by
      unfold accepts? token at refused
      dsimp only at refused
      cases found : accept lexeme.token with
      | none => rfl
      | some value =>
        rw [found] at refused
        cases refused
    unfold token
    dsimp only
    rw [nothing]
    rfl

theorem isToken_symbol (mark : Symbol) : IsToken (symbol mark) := ⟨_, _, rfl⟩

theorem isToken_keyword (word : Keyword) : IsToken (keyword word) := ⟨_, _, rfl⟩

theorem isToken_name : IsToken name := ⟨_, _, rfl⟩

theorem accepts_symbol (mark : Symbol) : (symbol mark).accepts? (.symbol mark) = some () := by
  unfold accepts? symbol token
  dsimp only
  rw [if_pos rfl]
  rfl

theorem accepts_keyword (word : Keyword) : (keyword word).accepts? (.keyword word) = some () := by
  unfold accepts? keyword token
  dsimp only
  rw [if_pos rfl]
  rfl

theorem accepts_name (word : String) : name.accepts? (.name word) = some word := rfl

theorem refuses_symbol {mark : Symbol} {found : Token} (different : found ≠ .symbol mark) :
    (symbol mark).accepts? found = none := by
  cases found with
  | symbol other =>
    unfold accepts? symbol token
    dsimp only
    rw [if_neg (fun same => different (congrArg Token.symbol same))]
    rfl
  | _ => rfl

theorem refuses_keyword {word : Keyword} {found : Token} (different : found ≠ .keyword word) :
    (keyword word).accepts? found = none := by
  cases found with
  | keyword other =>
    unfold accepts? keyword token
    dsimp only
    rw [if_neg (fun same => different (congrArg Token.keyword same))]
    rfl
  | _ => rfl

theorem refuses_name {found : Token} (different : ∀ word, found ≠ .name word) :
    name.accepts? found = none := by
  cases found with
  | name word => exact absurd rfl (different word)
  | _ => rfl

theorem reads_symbol (mark : Symbol) : Reads (symbol mark) [.symbol mark] rest (fun _ => True) :=
  ((isToken_symbol mark).reads (accepts_symbol mark)).weaken (fun _ _ => trivial)

theorem reads_keyword (word : Keyword) : Reads (keyword word) [.keyword word] rest (fun _ => True) :=
  ((isToken_keyword word).reads (accepts_keyword word)).weaken (fun _ _ => trivial)

theorem reads_name (word : String) : Reads name [.name word] rest (fun read => read = word) :=
  isToken_name.reads (accepts_name word)

theorem misses_symbol {mark : Symbol} (different : ahead.head? ≠ some (.symbol mark)) :
    Misses (symbol mark) ahead :=
  (isToken_symbol mark).misses fun _ is => refuses_symbol (fun same => different (same ▸ is))

theorem misses_keyword {word : Keyword} (different : ahead.head? ≠ some (.keyword word)) :
    Misses (keyword word) ahead :=
  (isToken_keyword word).misses fun _ is => refuses_keyword (fun same => different (same ▸ is))

theorem misses_name (different : ∀ word, ahead.head? ≠ some (.name word)) : Misses name ahead :=
  isToken_name.misses fun _ is => refuses_name (fun word same => different word (same ▸ is))

end Tokens

section Sequence

variable {cursor : Cursor}

theorem outcome_bind_of_some {value : α} {after : Cursor}
    (read : (rule cursor).outcome = some (value, after)) :
    ((rule >>= next) cursor).outcome = (next value after).outcome := by
  show (andThen rule next cursor).outcome = _
  unfold andThen
  dsimp only
  rw [read]

theorem outcome_bind_of_none (nothing : (rule cursor).outcome = none) :
    ((rule >>= next) cursor).outcome = none := by
  show (andThen rule next cursor).outcome = none
  unfold andThen
  dsimp only
  rw [nothing]

theorem reads_bind (first : Reads rule tokens (more ++ rest) good)
    (second : ∀ value, good value → Reads (next value) more rest fine) :
    Reads (rule >>= next) (tokens ++ more) rest fine := by
  intro cursor same
  obtain ⟨value, middle, outcome, between, held⟩ := first cursor (same.trans (List.append_assoc _ _ _))
  obtain ⟨result, after, ended, behind, fair⟩ := second value held middle between
  exact ⟨result, after, (outcome_bind_of_some outcome).trans ended, behind, fair⟩

theorem reads_map {f : α → β} (reads : Reads rule tokens rest good)
    (fair : ∀ value, good value → fine (f value)) :
    Reads (rule >>= fun value => pure (f value)) tokens rest fine := by
  have both : Reads (rule >>= fun value => pure (f value)) (tokens ++ []) rest fine :=
    reads_bind reads fun value held => (reads_pure (f value)).weaken fun _ is => is ▸ fair value held
  rwa [List.append_nil] at both

theorem misses_bind (misses : Misses rule ahead) : Misses (rule >>= next) ahead :=
  fun cursor same => outcome_bind_of_none (misses cursor same)

theorem misses_bind_second (first : Reads rule tokens rest good)
    (second : ∀ value, good value → Misses (next value) rest) :
    Misses (rule >>= next) (tokens ++ rest) := by
  intro cursor same
  obtain ⟨value, middle, outcome, between, held⟩ := first cursor same
  exact (outcome_bind_of_some outcome).trans (second value held middle between)

theorem takes_pure (value : α) (ahead : List Token) : Takes (pure value) ahead :=
  fun _ _ is => by cases is

theorem takes_bind_second (first : Reads rule tokens rest good)
    (second : ∀ value, good value → Takes (next value) rest) :
    Takes (rule >>= next) (tokens ++ rest) := by
  intro cursor same
  obtain ⟨value, middle, outcome, between, held⟩ := first cursor same
  rw [outcome_bind_of_some outcome]
  exact second value held middle between

theorem takes_bind_always (takes : Takes rule ahead)
    (always : ∀ value behind, Takes (next value) behind) : Takes (rule >>= next) ahead := by
  intro cursor same
  obtain ⟨⟨value, after⟩, outcome⟩ := Option.ne_none_iff_exists'.mp (takes cursor same)
  rw [outcome_bind_of_some outcome]
  exact always value _ after rfl

theorem takes_bind {f : α → β} (takes : Takes rule ahead) :
    Takes (rule >>= fun value => pure (f value)) ahead :=
  takes_bind_always takes fun value => takes_pure (f value)

end Sequence

section Alternatives

variable {cursor : Cursor}

theorem outcome_orElse_of_some {read : α × Cursor} (first : (rule cursor).outcome = some read) :
    (rule.orElse other cursor).outcome = some read := by
  unfold orElse
  dsimp only
  rw [first]
  exact first

theorem outcome_orElse_of_none (nothing : (rule cursor).outcome = none) :
    (rule.orElse other cursor).outcome = (other cursor).outcome := by
  unfold orElse
  dsimp only
  rw [nothing]

theorem reads_orElse (reads : Reads rule tokens rest good) : Reads (rule.orElse other) tokens rest good := by
  intro cursor same
  obtain ⟨value, after, outcome, behind, held⟩ := reads cursor same
  exact ⟨value, after, outcome_orElse_of_some outcome, behind, held⟩

theorem reads_orElse_second (misses : Misses rule (tokens ++ rest))
    (reads : Reads other tokens rest good) : Reads (rule.orElse other) tokens rest good := by
  intro cursor same
  obtain ⟨value, after, outcome, behind, held⟩ := reads cursor same
  exact ⟨value, after, (outcome_orElse_of_none (misses cursor same)).trans outcome, behind, held⟩

theorem misses_orElse (first : Misses rule ahead) (second : Misses other ahead) :
    Misses (rule.orElse other) ahead :=
  fun cursor same => (outcome_orElse_of_none (first cursor same)).trans (second cursor same)

theorem misses_fail : Misses (fail : Rule α) ahead := fun _ _ => rfl

theorem takes_orElse (takes : Takes rule ahead) : Takes (rule.orElse other) ahead := by
  intro cursor same
  obtain ⟨read, outcome⟩ := Option.ne_none_iff_exists'.mp (takes cursor same)
  rw [outcome_orElse_of_some outcome]
  exact fun is => by cases is

theorem takes_orElse_second (takes : Takes other ahead) : Takes (rule.orElse other) ahead := by
  intro cursor same
  cases outcome : (rule cursor).outcome with
  | none =>
    rw [outcome_orElse_of_none outcome]
    exact takes cursor same
  | some read =>
    rw [outcome_orElse_of_some outcome]
    exact fun is => by cases is

theorem takes_optional (rule : Rule α) (ahead : List Token) : Takes (optional rule) ahead :=
  takes_orElse_second (takes_pure none ahead)

theorem reads_optional (reads : Reads rule tokens rest good) :
    Reads (optional rule) tokens rest (fun read => ∃ value, read = some value ∧ good value) :=
  reads_orElse (reads_map reads fun value held => ⟨value, rfl, held⟩)

theorem reads_optional_none (misses : Misses rule rest) :
    Reads (optional rule) [] rest (fun read => read = none) :=
  reads_orElse_second (misses_bind misses) (reads_pure none)

end Alternatives

section Repetition

variable {image : α → γ}

/-- The tokens of some parts in a row. -/
def joined (parts : List (List Token × γ)) : List Token := parts.flatMap Prod.fst

/-- The rule reads the parts one behind the other, and then it misses. -/
def ReadsEach (rule : Rule α) (image : α → γ) : List (List Token × γ) → List Token → Prop
  | [], rest => Misses rule rest
  | part :: back, rest =>
    part.1 ≠ [] ∧ Reads rule part.1 (joined back ++ rest) (fun value => image value = part.2) ∧
      ReadsEach rule image back rest

private theorem reads_upTo (parts : List (List Token × γ)) (rest : List Token)
    (each : ReadsEach rule image parts rest) (spare : List Lexeme)
    (enough : (joined parts).length ≤ spare.length) :
    Reads (upTo rule spare) (joined parts) rest
      (fun values => values.map image = parts.map Prod.snd) := by
  induction parts generalizing spare with
  | nil =>
    intro cursor same
    refine ⟨[], cursor, ?_, same, rfl⟩
    cases spare with
    | nil => rfl
    | cons _ spare =>
      unfold upTo
      dsimp only
      rw [each cursor same]
  | cons part back ih =>
    obtain ⟨nonempty, reads, behind⟩ := each
    have length : (joined (part :: back)).length = part.1.length + (joined back).length :=
      List.length_append
    have positive := List.length_pos_iff.mpr nonempty
    cases spare with
    | nil =>
      exfalso
      rw [List.length_nil] at enough
      omega
    | cons _ spare =>
      intro cursor same
      obtain ⟨value, middle, outcome, between, is⟩ := reads cursor (same.trans (List.append_assoc _ _ _))
      have fits : (joined back).length ≤ spare.length := by
        rw [List.length_cons] at enough
        omega
      obtain ⟨values, after, others, last, are⟩ := ih behind spare fits middle between
      refine ⟨value :: values, after, ?_, last, ?_⟩
      · unfold upTo
        dsimp only
        rw [outcome]
        dsimp only
        rw [others]
        rfl
      · show image value :: values.map image = part.2 :: back.map Prod.snd
        rw [is, are]

theorem reads_many {parts : List (List Token × γ)} (each : ReadsEach rule image parts rest) :
    Reads (many rule) (joined parts) rest (fun values => values.map image = parts.map Prod.snd) := by
  intro cursor same
  have length : cursor.ahead.length = (joined parts ++ rest).length := by
    rw [← same]
    exact (List.length_map _).symm
  refine reads_upTo parts rest each cursor.ahead ?_ cursor same
  rw [length, List.length_append]
  exact Nat.le_add_right _ _

theorem readsEach_of_all {length : Nat} (parts : List (List Token × γ))
    (each : ∀ part ∈ parts, part.1 ≠ [] ∧ ∀ after : List Token, part.1.length + after.length ≤ length →
      Reads rule part.1 after (fun value => image value = part.2))
    (fits : (joined parts ++ rest).length ≤ length) (misses : Misses rule rest) :
    ReadsEach rule image parts rest := by
  induction parts with
  | nil => exact misses
  | cons part back ih =>
    obtain ⟨⟨nonempty, reads⟩, others⟩ := List.forall_mem_cons.mp each
    have split : (joined (part :: back) ++ rest).length =
        part.1.length + (joined back ++ rest).length := by
      show (part.1 ++ joined back ++ rest).length = _
      rw [List.append_assoc, List.length_append]
    exact ⟨nonempty, reads _ (by omega), ih others (by omega)⟩

theorem takes_many (rule : Rule α) (ahead : List Token) : Takes (many rule) ahead := by
  have upTo : ∀ (spare : List Lexeme) (cursor : Cursor), (upTo rule spare cursor).outcome ≠ none := by
    intro spare
    induction spare with
    | nil => exact fun _ is => by cases is
    | cons _ spare ih =>
      intro cursor
      unfold Rule.upTo
      dsimp only
      cases outcome : (rule cursor).outcome with
      | none => exact fun is => by cases is
      | some result =>
        obtain ⟨value, after⟩ := result
        intro is
        exact ih after (Option.map_eq_none_iff.mp is)
  exact fun cursor _ => upTo cursor.ahead cursor

end Repetition

section Brackets

variable {opening closing : Symbol}

theorem reads_between (reads : Reads rule tokens (.symbol closing :: rest) good) :
    Reads (between opening rule closing) (.symbol opening :: (tokens ++ [.symbol closing])) rest good := by
  have inner : Reads (rule >>= fun value => symbol closing >>= fun _ => pure value)
      (tokens ++ [.symbol closing]) rest good :=
    reads_bind reads fun value held => reads_map (reads_symbol closing) fun _ _ => held
  exact reads_bind (reads_symbol opening) fun _ _ => inner

theorem misses_between (different : ahead.head? ≠ some (.symbol opening)) :
    Misses (between opening rule closing) ahead := misses_bind (misses_symbol different)

theorem misses_between_second (reads : Reads rule tokens rest good)
    (different : rest.head? ≠ some (.symbol closing)) :
    Misses (between opening rule closing) (.symbol opening :: (tokens ++ rest)) :=
  misses_bind_second (reads_symbol opening) fun _ _ =>
    misses_bind_second reads fun _ _ => misses_bind (misses_symbol different)

theorem misses_between_first (misses : Misses rule ahead) :
    Misses (between opening rule closing) (.symbol opening :: ahead) :=
  misses_bind_second (reads_symbol opening) fun _ _ => misses_bind misses

variable {image : α → γ}

/-- A part behind a comma. -/
def behindComma (part : List Token × γ) : List Token × γ := (.symbol .comma :: part.1, part.2)

/-- Parts with commas between them, and one behind the last if there is a trailing one. -/
def listed : List (List Token × γ) → (trailing : Bool) → List Token
  | [], _ => []
  | first :: others, trailing =>
    first.1 ++ (joined (others.map behindComma) ++ if trailing then [.symbol .comma] else [])

/-- In front of a comma, or of what follows the list, the rule reads the part. -/
def ReadsListed (rule : Rule α) (image : α → γ) (length : Nat) (rest : List Token)
    (part : List Token × γ) : Prop :=
  part.1 ≠ [] ∧ ∀ after : List Token, part.1.length + after.length ≤ length →
    after.head? = some (.symbol .comma) ∨ after = rest →
    Reads rule part.1 after (fun value => image value = part.2)

private theorem readsEach_behindComma {ending : List Token} {length : Nat}
    (others : List (List Token × γ))
    (each : ∀ part ∈ others, ReadsListed rule image length rest part)
    (fits : (joined (others.map behindComma) ++ ending).length ≤ length)
    (ends : ending.head? = some (.symbol .comma) ∨ ending = rest)
    (misses : Misses (do symbol .comma; rule) ending) :
    ReadsEach (do symbol .comma; rule) image (others.map behindComma) ending := by
  induction others with
  | nil => exact misses
  | cons part back ih =>
    obtain ⟨⟨nonempty, reads⟩, others⟩ := List.forall_mem_cons.mp each
    have split : (joined ((part :: back).map behindComma) ++ ending).length =
        part.1.length + 1 + (joined (back.map behindComma) ++ ending).length := by
      show (.symbol .comma :: part.1 ++ joined (back.map behindComma) ++ ending).length = _
      simp only [List.length_append, List.length_cons]
      omega
    have next : (joined (back.map behindComma) ++ ending).head? = some (.symbol .comma) ∨
        joined (back.map behindComma) ++ ending = rest := by
      cases back with
      | nil => exact ends
      | cons other back => exact .inl rfl
    refine ⟨List.cons_ne_nil _ _, ?_, ih others (by omega)⟩
    exact reads_bind (reads_symbol .comma) fun _ _ => reads _ (by omega) next

theorem reads_separated {parts : List (List Token × γ)} {trailing : Bool}
    (each : ∀ part ∈ parts, ReadsListed rule image ((listed parts trailing ++ rest).length) rest part)
    (misses : Misses rule rest) (different : rest.head? ≠ some (.symbol .comma)) :
    Reads (separated rule) (listed parts trailing) rest
      (fun values => values.map image = parts.map Prod.snd) := by
  cases parts with
  | nil =>
    have none : Reads (separated rule) ([] ++ []) rest (fun values => values.map image = []) :=
      reads_bind (reads_optional_none misses) fun read is => by
        rw [is]
        exact (reads_pure []).weaken fun values is => by rw [is, List.map_nil]
    exact none
  | cons first others =>
    let comma : List Token := if trailing then [.symbol .comma] else []
    have ends : (comma ++ rest).head? = some (.symbol .comma) ∨ comma ++ rest = rest := by
      cases trailing with
      | true => exact .inl rfl
      | false => exact .inr rfl
    have last : Misses (do symbol .comma; rule) (comma ++ rest) := by
      cases trailing with
      | true => exact misses_bind_second (reads_symbol .comma) fun _ _ => misses
      | false => exact misses_bind (misses_symbol different)
    have closed : Reads (optional (symbol .comma)) comma rest (fun _ => True) := by
      cases trailing with
      | true => exact (reads_optional (reads_symbol .comma)).weaken fun _ _ => trivial
      | false => exact (reads_optional_none (misses_symbol different)).weaken fun _ _ => trivial
    have length : (listed (first :: others) trailing ++ rest).length =
        first.1.length + (joined (others.map behindComma) ++ (comma ++ rest)).length := by
      show (first.1 ++ (joined (others.map behindComma) ++ comma) ++ rest).length = _
      simp only [List.length_append]
      omega
    rw [length] at each
    obtain ⟨⟨_, reads⟩, behind⟩ := List.forall_mem_cons.mp each
    have next : (joined (others.map behindComma) ++ (comma ++ rest)).head? = some (.symbol .comma) ∨
        joined (others.map behindComma) ++ (comma ++ rest) = rest := by
      cases others with
      | nil => exact ends
      | cons other back => exact .inl rfl
    have head := reads _ (Nat.le_refl _) next
    have rows := readsEach_behindComma others behind (by omega) ends last
    have whole : Reads (separated rule) (first.1 ++ (joined (others.map behindComma) ++ comma)) rest
        (fun values => values.map image = first.2 :: others.map Prod.snd) := by
      rw [← List.append_assoc] at head
      refine reads_bind (reads_optional head) ?_
      rintro _ ⟨value, rfl, is⟩
      refine reads_bind (reads_many rows) fun values are => ?_
      refine reads_map closed fun _ _ => ?_
      have mapped : (others.map behindComma).map Prod.snd = others.map Prod.snd := List.map_map
      rw [List.map_cons, is, are, mapped]
    exact whole

end Brackets

theorem reads_located (reads : Reads rule tokens rest good) :
    Reads (located rule) tokens rest (fun read => good read.1) := by
  intro cursor same
  obtain ⟨value, after, outcome, behind, held⟩ := reads cursor same
  refine ⟨(value, ⟨cursor.start, after.behind⟩), after, ?_, behind, held⟩
  unfold located
  dsimp only
  rw [outcome]
  rfl

theorem misses_located (misses : Misses rule ahead) : Misses (located rule) ahead := by
  intro cursor same
  unfold located
  dsimp only
  rw [misses cursor same]
  rfl

theorem takes_located (takes : Takes rule ahead) : Takes (located rule) ahead := by
  intro cursor same
  have taken := takes cursor same
  unfold located
  dsimp only
  cases outcome : (rule cursor).outcome with
  | none => exact absurd outcome taken
  | some result => exact fun is => by cases is

end Rule

end ScreenStudio.Source
