/- digest: What the rules read stands in the lexemes that they have read, and places in a program nest. -/

import ScreenStudio.Proofs.Source.Parsed
import ScreenStudio.Proofs.Source.Parts

/-!
The span that a rule gives to an expression or a statement covers the lexemes it has read, apart from
brackets around the expression and from those around the target of a suffix. What stands below it has been
read from some of these lexemes, one part behind the other. So on every level of nesting the parts stand in
the lexemes, and the places of an accepted program nest.
-/

set_option autoImplicit false
set_option relaxedAutoImplicit false

namespace ScreenStudio.Source

open Nested (Suffix applySuffix applyPrefix ofLevels)
open ScreenStudio.Source.Part (Stand)
open Rule (Gives Steps gives_pure gives_bind gives_map gives_orElse gives_optional gives_located
  gives_symbol gives_keyword gives_name gives_separated)

theorem Rule.steps_of_many {α : Type} {rule : Rule α} {cursor after : Cursor} {values : List α}
    (gives : Gives (Rule.many rule) cursor values after) : Steps rule cursor values after := by
  have row : ∀ (spare : List Lexeme) {cursor : Cursor} {values : List α},
      Gives (Rule.upTo rule spare) cursor values after → Steps rule cursor values after := by
    intro spare
    induction spare with
    | nil =>
      intro cursor values gives
      obtain ⟨rfl, rfl⟩ : values = [] ∧ after = cursor := gives_pure gives
      exact .done _
    | cons _ spare ih =>
      intro cursor values gives
      unfold Gives Rule.upTo at gives
      dsimp only at gives
      cases outcome : (rule cursor).outcome with
      | none =>
        rw [outcome] at gives
        cases gives
        exact .done _
      | some first =>
        rw [outcome] at gives
        obtain ⟨more, others, is⟩ := Option.map_eq_some_iff.mp gives
        cases is
        exact .step outcome (ih others)
  exact row _ gives

theorem Part.Stand.flatMap {α : Type} {parts : α → List Part} {row : α → List Lexeme} {values : List α}
    (each : ∀ value ∈ values, Stand (parts value) (row value)) :
    Stand (values.flatMap parts) (values.flatMap row) := by
  induction values with
  | nil => exact .nothing _
  | cons value rest ih =>
    obtain ⟨first, others⟩ := List.forall_mem_cons.mp each
    exact first.append (ih others)

theorem Listing.stand {α : Type} {parts : α → List Part} {items : List (Item α)} {trailing : Bool}
    {lexemes : List Lexeme} (listing : Listing items trailing lexemes)
    (each : ∀ item ∈ items, Stand (parts item.value) item.lexemes) :
    Stand (items.flatMap fun item => parts item.value) lexemes := by
  cases listing with
  | empty => exact .nothing _
  | row first others trailing =>
    obtain ⟨head, rest⟩ := List.forall_mem_cons.mp each
    have behind : ∀ other ∈ others, Stand (parts other.2.value) (other.1 :: other.2.lexemes) :=
      fun other member => (rest other.2 (List.mem_map_of_mem member)).skip [other.1]
    rw [List.flatMap_cons, List.flatMap_map]
    exact head.append ((Stand.flatMap behind).behind _)

/-- What is read from the lexemes stands in them, and there are some. -/
structure Stands (parts : List Part) (lexemes : List Lexeme) : Prop where
  nonempty : lexemes ≠ []
  stand : Stand parts lexemes

namespace Sound

variable {α : Type} {rule : Rule α} {level limit : Nat} {opening closing : Symbol} {parts : α → List Part}

theorem stands_between
    (inner : ∀ limit, Sound rule limit fun value lexemes _ => Stand (parts value) lexemes) :
    Sound (Rule.between opening rule closing) level fun value lexemes _ => Stands (parts value) lexemes := by
  refine (Sound.between fun limit _ => inner limit).weaken ?_
  rintro value _ _ ⟨first, last, inside, _, rfl, _, _, stand⟩
  exact ⟨List.cons_ne_nil _ _, stand.brackets first last⟩

theorem stand_separated (parts : α → List Part)
    (sound : Sound rule limit fun value lexemes _ => Stand (parts value) lexemes) :
    Sound (Rule.separated rule) limit fun values lexemes _ => Stand (values.flatMap parts) lexemes := by
  intro cursor values after few gives
  have each : ∀ {cursor : Cursor} {value : α} {after : Cursor}, cursor.ahead.length ≤ limit →
      Gives rule cursor value after → ∃ item : Item α, item.value = value ∧
        cursor.Covers item.lexemes after ∧ Stand (parts item.value) item.lexemes := by
    intro cursor value after few gives
    obtain ⟨lexemes, covers, stand⟩ := sound few gives
    exact ⟨⟨.free, value, lexemes⟩, rfl, covers, stand⟩
  obtain ⟨items, trailing, lexemes, rfl, covers, listing, all⟩ := gives_separated each few gives
  refine ⟨lexemes, covers, ?_⟩
  dsimp only
  rw [List.flatMap_map]
  exact listing.stand all

end Sound

/-- What the rules of a level of nesting read stands in the lexemes that they have read. -/
structure StandBelow (level : Nat) : Prop where
  expression : ∀ limit, Sound (ofLevels level).expression limit fun value lexemes _ =>
    Stands [.expression value] lexemes
  statements : ∀ limit, Sound (ofLevels level).statements limit fun values lexemes _ =>
    Stand (values.map .statement) lexemes
  branch : ∀ limit, Sound (ofLevels level).branch limit fun value lexemes _ =>
    Stands [.statement value] lexemes

section Rules

variable {level limit : Nat}

theorem stand_items (below : StandBelow level) :
    Sound (Rule.separated (ofLevels level).expression) limit fun values lexemes _ =>
      Stand (values.map .expression) lexemes := by
  refine (Sound.stand_separated (fun value => [.expression value]) ?_).weaken ?_
  · exact (below.expression limit).weaken fun _ _ _ stands => stands.stand
  · intro values lexemes _ stand
    rw [List.map_eq_flatMap]
    exact stand

theorem stand_entries (below : StandBelow level) :
    Sound (Rule.separated (ofLevels level).entry) limit fun entries lexemes _ =>
      Stand (entries.map fun entry => .expression entry.2) lexemes := by
  refine (Sound.stand_separated (fun entry => [.expression entry.2]) ?_).weaken ?_
  · intro cursor value after few gives
    obtain ⟨name, middle, first, behind⟩ := gives_bind gives
    obtain ⟨_, inner, second, last⟩ := gives_bind behind
    obtain ⟨value, given, rfl⟩ := gives_map last
    obtain ⟨key, one, _⟩ := isToken_key.gives first
    obtain ⟨colon, two, _⟩ := gives_symbol second
    have fewer := Nat.le_trans two.length_le (Nat.le_trans one.length_le few)
    obtain ⟨lexemes, three, stands⟩ := below.expression limit fewer given
    exact ⟨_, one.cons (two.cons three), stands.stand.skip [key, colon]⟩
  · intro entries lexemes _ stand
    rw [List.map_eq_flatMap]
    exact stand

theorem stands_block (below : StandBelow level) :
    Sound (ofLevels level).block limit fun statements lexemes _ =>
      Stands (statements.map .statement) lexemes :=
  Sound.stands_between below.statements

theorem stand_body (below : StandBelow level) :
    Sound (ofLevels level).body limit fun body lexemes _ => Stand (Part.ofBody body) lexemes := by
  refine Sound.orElse ((stands_block below).map ?_) ((below.expression limit).map ?_)
  · exact fun _ _ _ stands => stands.stand
  · exact fun _ _ _ stands => stands.stand

theorem stands_arrow (below : StandBelow level) :
    Sound (ofLevels level).arrow limit fun build lexemes _ =>
      Stands [.expression (build (extentOf lexemes))] lexemes := by
  intro cursor build after few gives
  obtain ⟨names, middle, listed, behind⟩ := gives_bind gives
  obtain ⟨_, inner, sign, last⟩ := gives_bind behind
  obtain ⟨body, given, rfl⟩ := gives_map last
  obtain ⟨parameters, one, _⟩ := sound_parameters few listed
  obtain ⟨lexeme, two, _⟩ := gives_symbol sign
  have fewer := Nat.le_trans two.length_le (Nat.le_trans one.length_le few)
  obtain ⟨lexemes, three, stand⟩ := stand_body below fewer given
  have front : parameters ++ [lexeme] ≠ [] := List.append_ne_nil_of_right_ne_nil _ (List.cons_ne_nil _ _)
  have nonempty : parameters ++ [lexeme] ++ lexemes ≠ [] := List.append_ne_nil_of_left_ne_nil front _
  have covers := (one.append two).append three
  refine ⟨_, covers, nonempty, ?_⟩
  have own : Stand [.expression (.arrow (extentOf (parameters ++ [lexeme] ++ lexemes)) names body)]
      ([] ++ ((parameters ++ [lexeme] ++ lexemes) ++ [])) :=
    .part [] nonempty rfl (fun _ => front) stand (.nothing [])
  rw [List.append_nil] at own
  exact own

private theorem stands_built {α : Type} {rule : Rule α} {parts : α → List Part}
    {build : α → Span → Expression}
    (sound : Sound rule limit fun value lexemes _ => Stands (parts value) lexemes)
    (plain : ∀ value span, ¬ Part.IsArrow (.expression (build value span)))
    (spans : ∀ value span, (build value span).span = span)
    (inner : ∀ value span, Part.inner (.expression (build value span)) = parts value) :
    Sound (rule >>= fun value => pure (build value)) limit fun build lexemes _ =>
      Stands [.expression (build (extentOf lexemes))] lexemes := by
  refine sound.map fun value lexemes _ stands => ⟨stands.nonempty, ?_⟩
  exact .whole stands.nonempty (spans value _) (plain value _) (inner value _ ▸ stands.stand)

private theorem stands_token {α : Type} {rule : Rule α} (single : Rule.IsToken rule) :
    Sound rule limit fun _ lexemes _ => Stands [] lexemes := by
  intro cursor value after _ gives
  obtain ⟨lexeme, covers, _⟩ := single.gives gives
  exact ⟨[lexeme], covers, List.cons_ne_nil _ _, .nothing _⟩

theorem stands_bareAtom (below : StandBelow level) :
    Sound (ofLevels level).bareAtom limit fun build lexemes _ =>
      Stands [.expression (build (extentOf lexemes))] lexemes := by
  refine Sound.orElse (stands_arrow below) ?_
  refine Sound.orElse ?_ (Sound.orElse ?_ (Sound.orElse ?_ (Sound.orElse ?_ Sound.fail)))
  · exact stands_built (stands_token isToken_literal) (fun _ _ is => is) (fun _ _ => rfl) fun _ _ => rfl
  · exact stands_built (Sound.stands_between fun _ => stand_items below) (fun _ _ is => is) (fun _ _ => rfl)
      fun _ _ => rfl
  · exact stands_built (Sound.stands_between fun _ => stand_entries below) (fun _ _ is => is)
      (fun _ _ => rfl) fun _ _ => rfl
  · exact stands_built (stands_token Rule.isToken_name) (fun _ _ is => is) (fun _ _ => rfl) fun _ _ => rfl

theorem stands_atom (below : StandBelow level) :
    Sound (ofLevels level).atom limit fun value lexemes _ => Stands [.expression value] lexemes := by
  refine Sound.orElse ?_ (Sound.stands_between fun limit =>
    (below.expression limit).weaken fun _ _ _ stands => stands.stand)
  intro cursor value after few gives
  obtain ⟨read, given, is⟩ := gives_map gives
  obtain ⟨lexemes, covers, stands, place⟩ :=
    (stands_bareAtom below).located (fun _ _ _ stands => stands.nonempty) few given
  refine ⟨lexemes, covers, ?_⟩
  rw [is, place]
  exact stands

/-- The expressions in a suffix. -/
def Nested.Suffix.parts : Suffix → List Part
  | .call arguments => arguments.map .expression
  | .member _ => []
  | .index key => [.expression key]

theorem stands_suffix (below : StandBelow level) :
    Sound (ofLevels level).suffix limit fun value lexemes _ => Stands value.parts lexemes := by
  refine Sound.orElse ?_ (Sound.orElse ?_ (Sound.orElse ?_ Sound.fail))
  · exact (Sound.stands_between fun _ => stand_items below).map fun _ _ _ stands => stands
  · intro cursor value after few gives
    obtain ⟨_, middle, first, last⟩ := gives_bind gives
    obtain ⟨word, given, rfl⟩ := gives_map last
    obtain ⟨dot, one, _⟩ := gives_symbol first
    obtain ⟨property, two, _⟩ := gives_name given
    exact ⟨_, one.cons two, List.cons_ne_nil _ _, .nothing _⟩
  · exact (Sound.stands_between fun limit => (below.expression limit).weaken
      fun _ _ _ stands => stands.stand).map fun _ _ _ stands => stands

/-- An expression with a suffix starts where its target starts, behind the brackets around that. -/
theorem stand_applySuffix {target : Expression} {suffix : Suffix × Span} {first second : List Lexeme}
    (one : Stand [.expression target] first) (two : Stands suffix.1.parts second)
    (place : suffix.2 = extentOf second) :
    Stand [.expression (applySuffix target suffix)] (first ++ second) := by
  cases one with
  | @part _ _ before front inside behind nonempty own arrow below others =>
    have below : Stand (.expression target :: suffix.1.parts)
        ([] ++ ((front ++ inside) ++ (behind ++ second))) :=
      .part [] nonempty own arrow below (two.stand.skip behind)
    have ends : behind ++ second ≠ [] := List.append_ne_nil_of_right_ne_nil _ two.nonempty
    have span : (applySuffix target suffix).span = extentOf ((front ++ inside) ++ (behind ++ second)) := by
      rw [extentOf_append nonempty ends, stop_extentOf_append two.nonempty, ← own, ← place]
      unfold applySuffix
      split <;> rfl
    have inner : Part.inner (.expression (applySuffix target suffix)) =
        .expression target :: suffix.1.parts := by
      unfold applySuffix
      split <;> rename_i is <;> rw [is] <;> rfl
    have plain : ¬ Part.IsArrow (.expression (applySuffix target suffix)) := by
      unfold applySuffix
      split <;> exact fun is => is
    have whole : Stand [.expression (applySuffix target suffix)] ((front ++ inside) ++ (behind ++ second)) :=
      .whole (List.append_ne_nil_of_left_ne_nil nonempty _) span plain (inner ▸ below)
    rw [List.append_assoc, List.append_assoc _ behind second]
    exact whole.skip before

private theorem stand_suffixes (below : StandBelow level) {cursor after : Cursor}
    {suffixes : List (Suffix × Span)}
    (steps : Steps (Rule.located (ofLevels level).suffix) cursor suffixes after)
    (few : cursor.ahead.length ≤ limit) {target : Expression} {first : List Lexeme}
    (stand : Stand [.expression target] first) : ∃ lexemes, cursor.Covers lexemes after ∧
      Stand [.expression (suffixes.foldl applySuffix target)] (first ++ lexemes) := by
  induction steps generalizing target first with
  | done cursor =>
    refine ⟨[], .nothing cursor, ?_⟩
    rw [List.append_nil]
    exact stand
  | step given _ ih =>
    obtain ⟨one, covers, stands, place⟩ :=
      (stands_suffix below).located (fun _ _ _ stands => stands.nonempty) few given
    obtain ⟨two, behind, all⟩ :=
      ih (Nat.le_trans covers.length_le few) (stand_applySuffix stand stands place)
    rw [List.append_assoc] at all
    exact ⟨one ++ two, covers.append behind, all⟩

theorem stands_chain (below : StandBelow level) :
    Sound (ofLevels level).chain limit fun value lexemes _ => Stands [.expression value] lexemes := by
  intro cursor value after few gives
  obtain ⟨target, middle, first, behind⟩ := gives_bind gives
  obtain ⟨suffixes, given, rfl⟩ := gives_map behind
  obtain ⟨inner, one, stands⟩ := stands_atom below few first
  obtain ⟨lexemes, two, stand⟩ := stand_suffixes below (Rule.steps_of_many given)
    (Nat.le_trans one.length_le few) stands.stand
  exact ⟨_, one.append two, List.append_ne_nil_of_left_ne_nil stands.nonempty _, stand⟩

/-- The operand stands in the lexemes, and they are its extent. -/
structure Operand.Stands (operand : Operand) (lexemes : List Lexeme) : Prop where
  nonempty : lexemes ≠ []
  stand : Stand [.expression operand.expression] lexemes
  extent : operand.extent = extentOf lexemes

theorem Operand.Stands.applyPrefix {operand : Operand} {lexemes : List Lexeme} {sign : Lexeme}
    {operator : UnaryOperator × Span} (stands : operand.Stands lexemes)
    (start : operator.2.start = sign.span.start) :
    (Nested.applyPrefix operator operand).Stands (sign :: lexemes) := by
  have extent : (Nested.applyPrefix operator operand).extent = extentOf ([sign] ++ lexemes) := by
    rw [extentOf_append (List.cons_ne_nil _ _) stands.nonempty, ← stands.extent]
    unfold Nested.applyPrefix
    rw [start]
    rfl
  exact ⟨List.cons_ne_nil _ _, .whole (List.cons_ne_nil _ _) extent (fun is => is) (stands.stand.skip [sign]),
    extent⟩

private theorem stands_prefixes {cursor after : Cursor} {operators : List (UnaryOperator × Span)}
    (steps : Steps (Rule.located Nested.prefixOperator) cursor operators after) {operand : Operand}
    {inner : List Lexeme} (stands : operand.Stands inner) : ∃ lexemes, cursor.Covers lexemes after ∧
      (operators.foldr Nested.applyPrefix operand).Stands (lexemes ++ inner) := by
  induction steps with
  | done cursor => exact ⟨[], .nothing cursor, stands⟩
  | step given _ ih =>
    obtain ⟨given, place⟩ := gives_located given
    obtain ⟨sign, one, _⟩ := isToken_prefixOperator.gives given
    obtain ⟨signs, two, all⟩ := ih
    refine ⟨sign :: signs, one.cons two, all.applyPrefix ?_⟩
    rw [place, one.extent (List.cons_ne_nil _ _)]
    rfl

theorem stands_operand (below : StandBelow level) :
    Sound (ofLevels level).operand limit fun value lexemes _ => value.Stands lexemes := by
  intro cursor value after few gives
  obtain ⟨operators, middle, first, behind⟩ := gives_bind gives
  obtain ⟨read, given, rfl⟩ := gives_map behind
  have enough : middle.ahead.length ≤ middle.ahead.length := Nat.le_refl _
  obtain ⟨inner, two, stands, place⟩ :=
    (stands_chain below).located (fun _ _ _ stands => stands.nonempty) enough given
  have operand : Operand.Stands ⟨read.1, read.2⟩ inner := ⟨stands.nonempty, stands.stand, place⟩
  obtain ⟨signs, one, all⟩ := stands_prefixes (Rule.steps_of_many first) operand
  exact ⟨_, one.append two, all⟩

end Rules

namespace OperatorTree

/-- The operands of the tree stand in the lexemes, with one lexeme for each operator between them. -/
def Stands : OperatorTree → List Lexeme → Prop
  | .leaf operand, lexemes => operand.Stands lexemes
  | .node left _ right, lexemes =>
    ∃ one sign two, lexemes = one ++ sign :: two ∧ left.Stands one ∧ right.Stands two

variable {tree : OperatorTree} {lexemes first second : List Lexeme}

theorem Stands.toOperand (stands : tree.Stands lexemes) : tree.toOperand.Stands lexemes := by
  induction tree generalizing lexemes with
  | leaf operand => exact stands
  | node left operator right first second =>
    obtain ⟨one, sign, two, rfl, before, behind⟩ := stands
    have before := first before
    have behind := second behind
    have ends : [sign] ++ two ≠ [] := List.cons_ne_nil _ _
    have extent : (node left operator right).toOperand.extent = extentOf (one ++ ([sign] ++ two)) := by
      rw [extentOf_append before.nonempty ends, stop_extentOf_append behind.nonempty, ← before.extent,
        ← behind.extent]
      rfl
    have nonempty : one ++ ([sign] ++ two) ≠ [] := List.append_ne_nil_of_left_ne_nil before.nonempty _
    exact ⟨nonempty, .whole nonempty extent (fun is => is) (before.stand.append (behind.stand.skip [sign])),
      extent⟩

theorem Stands.push (stands : tree.Stands first) {operand : Operand} (behind : operand.Stands second)
    (operator : BinaryOperator) (sign : Lexeme) :
    (tree.push operator operand).Stands (first ++ sign :: second) := by
  induction tree generalizing first with
  | leaf => exact ⟨first, sign, second, rfl, stands, behind⟩
  | node left root right _ ih =>
    unfold OperatorTree.push
    split
    · obtain ⟨one, middle, two, rfl, before, last⟩ := stands
      refine ⟨one, middle, two ++ sign :: second, ?_, before, ih last⟩
      rw [List.append_assoc, List.cons_append]
    · exact ⟨first, sign, second, rfl, stands, behind⟩

end OperatorTree

section Rules

variable {level limit : Nat}

private theorem stands_links (below : StandBelow level) {cursor after : Cursor}
    {links : List (BinaryOperator × Operand)} (steps : Steps (ofLevels level).link cursor links after)
    {tree : OperatorTree} {first : List Lexeme} (stands : tree.Stands first) :
    ∃ lexemes, cursor.Covers lexemes after ∧
      (links.foldl (fun tree item => tree.push item.1 item.2) tree).Stands (first ++ lexemes) := by
  induction steps generalizing tree first with
  | done cursor =>
    refine ⟨[], .nothing cursor, ?_⟩
    rw [List.append_nil]
    exact stands
  | step given _ ih =>
    obtain ⟨operator, middle, first, behind⟩ := gives_bind given
    obtain ⟨operand, read, rfl⟩ := gives_map behind
    obtain ⟨sign, one, _⟩ := isToken_infixOperator.gives first
    obtain ⟨inner, two, operand⟩ := stands_operand below (Nat.le_refl _) read
    obtain ⟨others, three, all⟩ := ih (stands.push operand operator sign)
    rw [List.append_assoc] at all
    exact ⟨_, (one.cons two).append three, all⟩

theorem stands_operation (below : StandBelow level) :
    Sound (ofLevels level).operation limit fun value lexemes _ => Stands [.expression value] lexemes := by
  intro cursor value after few gives
  obtain ⟨head, middle, first, behind⟩ := gives_bind gives
  obtain ⟨links, given, rfl⟩ := gives_map behind
  obtain ⟨inner, one, operand⟩ := stands_operand below few first
  have row : Gives (Rule.many (ofLevels level).link) middle links after := given
  have leaf : OperatorTree.Stands (.leaf head) inner := operand
  obtain ⟨lexemes, two, all⟩ := stands_links below (Rule.steps_of_many row) leaf
  have whole := all.toOperand
  exact ⟨_, one.append two, whole.nonempty, whole.stand⟩

theorem stands_expressionRule (below : StandBelow level) :
    Sound (ofLevels level).expressionRule limit fun value lexemes _ =>
      Stands [.expression value] lexemes := by
  intro cursor value after few gives
  obtain ⟨⟨⟨condition, branches⟩, span⟩, middle, first, last⟩ := gives_bind gives
  obtain ⟨first, place⟩ := gives_located first
  obtain ⟨read, outer, given, behind⟩ := gives_bind first
  obtain ⟨tried, optional, is⟩ := gives_map behind
  cases is
  obtain ⟨one, covers, head⟩ := stands_operation below few given
  rcases gives_optional optional with ⟨⟨consequent, alternative⟩, rfl, given⟩ | ⟨_, rfl, rfl⟩
  · obtain ⟨rfl, rfl⟩ := gives_pure last
    obtain ⟨_, second, question, rest⟩ := gives_bind given
    obtain ⟨_, third, yes, rest⟩ := gives_bind rest
    obtain ⟨_, fourth, colon, rest⟩ := gives_bind rest
    obtain ⟨_, no, is⟩ := gives_map rest
    cases is
    obtain ⟨question, two, _⟩ := gives_symbol question
    obtain ⟨inner, three, yes⟩ := below.expression _ (Nat.le_refl _) yes
    obtain ⟨colon, four, _⟩ := gives_symbol colon
    obtain ⟨others, five, no⟩ := below.expression _ (Nat.le_refl _) no
    have all := covers.append (two.cons (three.append (four.cons five)))
    have nonempty := List.append_ne_nil_of_left_ne_nil head.nonempty (question :: (inner ++ colon :: others))
    have stand := head.stand.append ((yes.stand.append (no.stand.skip [colon])).skip [question])
    exact ⟨_, all, nonempty, .whole nonempty (place.trans (all.extent nonempty)) (fun is => is) stand⟩
  · obtain ⟨rfl, rfl⟩ := gives_pure last
    exact ⟨one, covers, head⟩

theorem stand_otherwise (below : StandBelow level) :
    Sound (Rule.optional (ofLevels level).otherwise) limit fun alternative lexemes _ =>
      Stand ((alternative.getD []).map .statement) lexemes := by
  intro cursor alternative after few gives
  rcases gives_optional gives with ⟨statements, rfl, given⟩ | ⟨_, rfl, rfl⟩
  · obtain ⟨_, middle, keyword, behind⟩ := gives_bind given
    obtain ⟨sign, one, _⟩ := gives_keyword keyword
    rcases gives_orElse behind with block | ⟨_, other⟩
    · obtain ⟨inner, two, stands⟩ := stands_block below (Nat.le_refl _) block
      exact ⟨_, one.cons two, stands.stand.skip [sign]⟩
    · obtain ⟨branch, read, rfl⟩ := gives_map other
      obtain ⟨inner, two, stands⟩ := below.branch _ (Nat.le_refl _) read
      exact ⟨_, one.cons two, stands.stand.skip [sign]⟩
  · exact ⟨[], .nothing _, .nothing _⟩

theorem stands_branchRule (below : StandBelow level) :
    Sound (ofLevels level).branchRule limit fun value lexemes _ => Stands [.statement value] lexemes := by
  intro cursor value after few gives
  obtain ⟨⟨read, span⟩, given, rfl⟩ := gives_map gives
  obtain ⟨given, place⟩ := gives_located given
  obtain ⟨_, first, keyword, behind⟩ := gives_bind given
  obtain ⟨condition, second, asked, behind⟩ := gives_bind behind
  obtain ⟨consequent, third, block, behind⟩ := gives_bind behind
  obtain ⟨alternative, tried, is⟩ := gives_map behind
  dsimp only at is place
  subst is
  obtain ⟨sign, one, _⟩ := gives_keyword keyword
  obtain ⟨inner, two, head⟩ := Sound.stands_between (fun limit =>
    (below.expression limit).weaken fun _ _ _ stands => stands.stand) (Nat.le_refl _) asked
  obtain ⟨others, three, yes⟩ := stands_block below (Nat.le_refl _) block
  obtain ⟨more, four, no⟩ := stand_otherwise below (Nat.le_refl _) tried
  have all := one.cons (two.append (three.append four))
  have stand := (head.stand.append (yes.stand.append no)).skip [sign]
  exact ⟨_, all, List.cons_ne_nil _ _,
    .whole (List.cons_ne_nil _ _) (place.trans (all.extent (List.cons_ne_nil _ _))) (fun is => is) stand⟩

theorem stands_locate {rule : Rule (Span → Statement)}
    (sound : Sound rule limit fun build lexemes _ => Stands [.statement (build (extentOf lexemes))] lexemes) :
    Sound (Nested.locate rule) limit fun value lexemes _ => Stands [.statement value] lexemes := by
  intro cursor value after few gives
  obtain ⟨read, given, is⟩ := gives_map gives
  obtain ⟨lexemes, covers, stands, place⟩ := sound.located (fun _ _ _ stands => stands.nonempty) few given
  refine ⟨lexemes, covers, ?_⟩
  rw [is, place]
  exact stands

theorem stands_binding (below : StandBelow level) :
    Sound (ofLevels level).binding limit fun build lexemes _ =>
      Stands [.statement (build (extentOf lexemes))] lexemes := by
  intro cursor build after few gives
  obtain ⟨_, first, keyword, behind⟩ := gives_bind gives
  obtain ⟨word, second, named, behind⟩ := gives_bind behind
  obtain ⟨_, third, assigns, behind⟩ := gives_bind behind
  obtain ⟨value, given, rfl⟩ := gives_map behind
  have sign : ∃ sign, cursor.Covers [sign] first := by
    rcases gives_orElse keyword with keyword | ⟨_, keyword⟩
    · exact (gives_keyword keyword).imp fun _ found => found.1
    · exact (gives_keyword keyword).imp fun _ found => found.1
  obtain ⟨sign, one⟩ := sign
  obtain ⟨name, two, _⟩ := gives_name named
  obtain ⟨assign, three, _⟩ := gives_symbol assigns
  obtain ⟨inner, four, stands⟩ := stands_expressionRule below (Nat.le_refl _) given
  exact ⟨_, (one.cons (two.cons three)).append four, List.cons_ne_nil _ _,
    .whole (List.cons_ne_nil _ _) rfl (fun is => is) (stands.stand.skip [sign, name, assign])⟩

theorem stands_result (below : StandBelow level) :
    Sound (ofLevels level).result limit fun build lexemes _ =>
      Stands [.statement (build (extentOf lexemes))] lexemes := by
  intro cursor build after few gives
  obtain ⟨_, middle, keyword, behind⟩ := gives_bind gives
  obtain ⟨value, tried, rfl⟩ := gives_map behind
  obtain ⟨sign, one, _⟩ := gives_keyword keyword
  rcases gives_optional tried with ⟨value, rfl, given⟩ | ⟨_, rfl, rfl⟩
  · obtain ⟨inner, two, stands⟩ := stands_expressionRule below (Nat.le_refl _) given
    exact ⟨_, one.cons two, List.cons_ne_nil _ _,
      .whole (List.cons_ne_nil _ _) rfl (fun is => is) (stands.stand.skip [sign])⟩
  · exact ⟨_, one, List.cons_ne_nil _ _,
      .whole (List.cons_ne_nil _ _) rfl (fun is => is) (.nothing _)⟩

theorem stands_statement (below : StandBelow level) :
    Sound (ofLevels level).statement limit fun value lexemes _ => Stands [.statement value] lexemes := by
  refine Sound.orElse (stands_locate (stands_binding below)) (Sound.orElse (stands_branchRule below) ?_)
  refine Sound.orElse (stands_locate (stands_result below)) (Sound.orElse (stands_locate ?_) Sound.fail)
  refine (stands_expressionRule below).map fun value lexemes _ stands => ⟨stands.nonempty, ?_⟩
  exact .whole stands.nonempty rfl (fun is => is) stands.stand

private theorem stand_sentences (below : StandBelow level) {cursor after : Cursor} {values : List Statement}
    (steps : Steps (ofLevels level).sentence cursor values after) :
    ∃ lexemes, cursor.Covers lexemes after ∧ Stand (values.map .statement) lexemes := by
  induction steps with
  | done cursor => exact ⟨[], .nothing cursor, .nothing _⟩
  | step given _ ih =>
    obtain ⟨statement, middle, first, behind⟩ := gives_bind given
    obtain ⟨_, semicolons, rfl⟩ := gives_map behind
    obtain ⟨inner, one, stands⟩ := stands_statement below (Nat.le_refl _) first
    obtain ⟨marks, two, _⟩ := sound_semicolons (Nat.le_refl _) semicolons
    obtain ⟨others, three, stand⟩ := ih
    exact ⟨_, (one.append two).append three, (stands.stand.behind marks).append stand⟩

theorem stand_statementsRule (below : StandBelow level) :
    Sound (ofLevels level).statementsRule limit fun values lexemes _ =>
      Stand (values.map .statement) lexemes := by
  intro cursor values after few gives
  obtain ⟨_, middle, first, given⟩ := gives_bind gives
  obtain ⟨leading, one, _⟩ := sound_semicolons few first
  have row : Gives (Rule.many (ofLevels level).sentence) middle values after := given
  obtain ⟨lexemes, two, stand⟩ := stand_sentences below (Rule.steps_of_many row)
  exact ⟨_, one.append two, stand.skip leading⟩

end Rules

theorem standBelow (level : Nat) : StandBelow level := by
  induction level with
  | zero => exact ⟨fun _ => Sound.fail, fun _ => Sound.fail, fun _ => Sound.fail⟩
  | succ level ih =>
    exact ⟨fun _ => stands_expressionRule ih, fun _ => stand_statementsRule ih, fun _ => stands_branchRule ih⟩

/-- The places of an accepted program nest, and its statements stand in the text one behind the other. -/
theorem nests_of_program {source : String} {statements : List Statement}
    (accepted : program source = .ok statements) : ∃ lexemes, Cuts 0 source.toList lexemes ∧
      Span.Row 0 (byteLength source.toList) ((statements.map Part.statement).map Part.span) ∧
      ∀ part ∈ statements.map Part.statement, part.Nests (withoutComments lexemes) := by
  obtain ⟨all, behind, cuts, gives⟩ := gives_of_program accepted
  obtain ⟨lexemes, covers, stand⟩ :=
    stand_statementsRule (standBelow (withoutComments all).length) (Nat.le_refl _) gives
  have same : withoutComments all = lexemes := covers.ahead.trans (List.append_nil _)
  rw [← same] at stand
  have high : ∀ lexeme ∈ withoutComments all, lexeme.span.stop ≤ byteLength source.toList := by
    intro lexeme member
    have stop := cuts.stop_le lexeme (List.mem_of_mem_filter member)
    rw [Nat.zero_add] at stop
    exact stop
  obtain ⟨row, each⟩ := stand.nests (cuts.inOrder.filter _) high
  exact ⟨all, cuts, row, each⟩

/-- The part stands at some depth in one of the statements. -/
def Part.Of (statements : List Statement) (part : Part) : Prop :=
  ∃ whole ∈ statements.map Part.statement, part.Within whole

theorem Part.Of.child {statements : List Statement} {part whole : Part} (within : whole.Of statements)
    (member : part ∈ whole.inner) : part.Of statements := by
  obtain ⟨top, among, below⟩ := within
  exact ⟨top, among, below.child member⟩

theorem arrow_eq_of_span {source : String} {statements : List Statement} {one two : Part}
    (accepted : program source = .ok statements) (first : one.IsArrow) (second : two.IsArrow)
    (here : one.Of statements) (there : two.Of statements) (same : one.span = two.span) : one = two := by
  obtain ⟨lexemes, _, row, each⟩ := nests_of_program accepted
  exact Part.eq_of_span row each first second same here there

/-- The spans of an accepted program nest. Its statements lie in the text, one behind the other. The span of
each statement and expression at any depth is not empty and goes from the start of a token to the end of
one. What stands directly below it lies in it, one behind the other, and what stands further below lies in it
as well. -/
theorem spans_nest {source : String} {statements : List Statement}
    (accepted : program source = .ok statements) :
    ∃ all, lexemes source = .ok all ∧
      Span.Row 0 (byteLength source.toList) (statements.map Statement.span) ∧
      ∀ part : Part, part.Of statements →
        part.span.IsPlace (withoutComments all) ∧
          Span.Row part.span.start part.span.stop (part.inner.map Part.span) ∧
          ∀ below : Part, below.Within part →
            part.span.start ≤ below.span.start ∧ below.span.stop ≤ part.span.stop := by
  obtain ⟨all, cuts, row, each⟩ := nests_of_program accepted
  rw [List.map_map] at row
  refine ⟨all, lexemes_iff_cuts.mpr cuts, row, ?_⟩
  rintro part ⟨whole, among, within⟩
  obtain ⟨nests, _⟩ := (each whole among).within within
  cases nests with
  | part place inner each =>
    refine ⟨place, inner.mono part.start_le_lead, fun below under => ?_⟩
    exact ((Part.Nests.part place inner each).within under).2

/-- A chain of branches, calls and members of something in brackets, and an arrow function. -/
theorem spans_nest_in_branches :
    ∃ statements, program "if(a){b}else if(c){(d)(1)(e).f}else{g=>h+(i)}" = .ok statements ∧
      (statements.map Part.statement).map (fun part => (part.span, part.inner.map Part.span)) =
        [(⟨0, 45⟩, [⟨3, 4⟩, ⟨6, 7⟩, ⟨13, 45⟩])] ∧
      ∀ part : Part, part.Of statements →
        Span.Row part.span.start part.span.stop (part.inner.map Part.span) := by
  have places : (program "if(a){b}else if(c){(d)(1)(e).f}else{g=>h+(i)}").toOption.map
      (fun statements => (statements.map Part.statement).map
        (fun part => (part.span, part.inner.map Part.span))) =
      some [(⟨0, 45⟩, [⟨3, 4⟩, ⟨6, 7⟩, ⟨13, 45⟩])] := by
    decide +kernel
  cases accepted : program "if(a){b}else if(c){(d)(1)(e).f}else{g=>h+(i)}" with
  | error failure =>
    rw [accepted] at places
    cases places
  | ok statements =>
    rw [accepted] at places
    obtain ⟨_, _, _, each⟩ := spans_nest accepted
    exact ⟨statements, rfl, Option.some.inj places, fun part inside => (each part inside).2.1⟩

end ScreenStudio.Source
