/- digest: Where semicolons can be put into the lexemes that statements are derived from. -/

import ScreenStudio.Proofs.Source.Blocks
import ScreenStudio.Proofs.Source.Derivation
import ScreenStudio.Proofs.Source.Derived

set_option autoImplicit false
set_option relaxedAutoImplicit false

namespace ScreenStudio.Source

open Nested (Suffix applySuffix applyPrefix)

theorem Derives.inexact {exact : Prop} {phrase : Phrase} {lexemes : List Lexeme}
    (derived : Derives exact phrase lexemes) : Derives False phrase lexemes := by
  have anywhere : ∀ {span other : Span}, False → span = other := fun never => never.elim
  induction derived with
  | literal lexeme span value is => exact .literal lexeme span value is
  | name lexeme span word is => exact .name lexeme span word is anywhere
  | array opening closing span items trailing inner opens closes listing _ ih =>
    exact .array opening closing span items trailing inner opens closes listing ih
  | object opening closing span fields trailing inner opens closes listing fits _ ih =>
    exact .object opening closing span fields trailing inner opens closes listing fits ih
  | arrow span sign is listed _ ih => exact .arrow span sign is listed ih
  | brackets opening closing opens closes _ ih => exact .brackets opening closing opens closes ih
  | call opening closing items trailing inner opens closes listing _ ih =>
    exact .call opening closing items trailing inner opens closes listing ih
  | member dot property word is named => exact .member dot property word is named
  | index opening closing opens closes _ ih => exact .index opening closing opens closes ih
  | chain trailers _ firm _ own ih => exact .chain trailers own firm ih
  | operand extent signs are _ ih => exact .operand extent signs are ih
  | operation links are _ firm _ own ih => exact .operation links are own firm ih
  | plain _ ih => exact .plain ih
  | conditional span question colon asks parts _ _ _ one two three =>
    exact .conditional span question colon asks parts one two three
  | bodyBlock _ ih => exact .bodyBlock ih
  | bodyExpression noBlock _ ih => exact .bodyExpression noBlock ih
  | block opening closing opens closes _ ih => exact .block opening closing opens closes ih
  | nothing => exact .nothing
  | otherwise sign is _ ih => exact .otherwise sign is ih
  | otherwiseBranch sign is _ ih => exact .otherwiseBranch sign is ih
  | binding span sign name assign word is named assigns _ _ ih =>
    exact .binding span sign name assign word is named assigns ih anywhere
  | expression span _ _ ih => exact .expression span ih anywhere
  | branch span sign opening closing is opens closes _ _ _ _ one two three =>
    exact .branch span sign opening closing is opens closes one two three anywhere
  | result span sign is => exact .result span sign is anywhere
  | resultValue span sign is _ _ ih => exact .resultValue span sign is ih anywhere
  | statements leading sentences are ends apart _ ih =>
    exact .statements leading sentences are ends apart ih

section Places

theorem stopOf_append_of_ne_nil {second : List Lexeme} (nonempty : second ≠ []) (behind : Nat)
    (first : List Lexeme) : stopOf behind (first ++ second) = stopOf 0 second := by
  obtain ⟨lexeme, rest, rfl⟩ := List.exists_cons_of_ne_nil nonempty
  exact stopOf_append behind first (lexeme :: rest)

theorem Derives.place {exact : Prop} (places : exact) {ending : Ending} {lead : Lead} {value : Statement}
    {lexemes : List Lexeme} (derived : Derives exact (.statement ending lead value) lexemes) :
    lexemes ≠ [] ∧ value.span = extentOf lexemes := by
  have complete : CompleteStatement ending lead value (tokensOf lexemes) := derived.complete
  refine ⟨?_, ?_⟩
  · rintro rfl
    obtain ⟨_, _, is, _⟩ := complete.first
    cases is
  · cases derived with
    | binding _ _ _ _ _ _ _ _ _ place => exact place places
    | expression _ _ place => exact place places
    | branch _ _ _ _ _ _ _ _ _ _ place => exact place places
    | result _ _ _ place => exact place places
    | resultValue _ _ _ _ place => exact place places

/-- The place lies between the lexemes, at the end of one or at the start of another. -/
inductive IsEdge : List Lexeme → List Lexeme → Nat → Prop
  | behind (before : List Lexeme) (lexeme : Lexeme) (after : List Lexeme) :
    IsEdge (before ++ [lexeme]) after lexeme.span.stop
  | before (before : List Lexeme) (lexeme : Lexeme) (after : List Lexeme) :
    IsEdge before (lexeme :: after) lexeme.span.start

theorem IsEdge.within {before after : List Lexeme} {place : Nat} (edge : IsEdge before after place)
    (front back : List Lexeme) : IsEdge (front ++ before) (after ++ back) place := by
  cases edge with
  | behind before lexeme after =>
    rw [← List.append_assoc]
    exact .behind _ lexeme _
  | before before lexeme after => exact .before _ lexeme _

/-- One of the blocks has an edge at the place. -/
def IsGap (place : Nat) (blocks : List (List Statement)) : Prop := ∃ block ∈ blocks, place ∈ edges block

theorem isGap_append {place : Nat} {first second : List (List Statement)} :
    IsGap place (first ++ second) ↔ IsGap place first ∨ IsGap place second := by
  unfold IsGap
  simp only [List.mem_append, or_and_right, exists_or]

theorem isGap_cons {place : Nat} {block : List Statement} {rest : List (List Statement)} :
    IsGap place (block :: rest) ↔ place ∈ edges block ∨ IsGap place rest := by
  unfold IsGap
  simp only [List.mem_cons, or_and_right, exists_or, exists_eq_left]

theorem isGap_flatMap {α : Type} {place : Nat} {parts : List α} {blocks : α → List (List Statement)} :
    IsGap place (parts.flatMap blocks) ↔ ∃ part ∈ parts, IsGap place (blocks part) := by
  constructor
  · rintro ⟨block, member, edge⟩
    obtain ⟨part, among, held⟩ := List.mem_flatMap.mp member
    exact ⟨part, among, block, held, edge⟩
  · rintro ⟨part, among, block, held, edge⟩
    exact ⟨block, List.mem_flatMap.mpr ⟨part, among, held⟩, edge⟩

theorem not_isGap_nil {place : Nat} : ¬ IsGap place [] := by
  rintro ⟨_, member, _⟩
  cases member

end Places

/-- The place lies between lexemes of the phrase, and the phrase is derived with semicolons there, too. -/
def Admits (phrase : Phrase) (lexemes : List Lexeme) (place : Nat) : Prop :=
  ∃ before after, lexemes = before ++ after ∧ IsEdge before after place ∧
    ∀ semicolons, AreSemicolons semicolons → Derives False phrase (before ++ (semicolons ++ after))

/-- What a part admits the whole does, if it can be derived with the part derived otherwise. -/
theorem Admits.within {part phrase : Phrase} {inner : List Lexeme} {place : Nat}
    (admits : Admits part inner place) (front back : List Lexeme)
    (build : ∀ lexemes, Derives False part lexemes →
      Derives False phrase (front ++ (lexemes ++ back))) :
    Admits phrase (front ++ (inner ++ back)) place := by
  obtain ⟨before, after, rfl, edge, derives⟩ := admits
  refine ⟨front ++ before, after ++ back, ?_, edge.within front back, fun semicolons are => ?_⟩
  · simp only [List.append_assoc]
  · have whole := build _ (derives semicolons are)
    simp only [List.append_assoc] at whole ⊢
    exact whole

theorem Admits.behind {part phrase : Phrase} {inner : List Lexeme} {place : Nat}
    (admits : Admits part inner place) (front : List Lexeme)
    (build : ∀ lexemes, Derives False part lexemes → Derives False phrase (front ++ lexemes)) :
    Admits phrase (front ++ inner) place := by
  have whole := admits.within front [] fun lexemes derived => by
    rw [List.append_nil]
    exact build lexemes derived
  rwa [List.append_nil] at whole

/-- The blocks of a phrase that ends at `stop`. -/
def Phrase.blocks (stop : Nat) : Phrase → List (List Statement)
  | .atom _ _ value => value.blocks
  | .suffix value => value.blocks
  | .chain _ _ value => value.blocks
  | .operand _ _ value => value.expression.blocks
  | .operation _ _ value => value.blocks
  | .expression _ value => value.blocks
  | .body _ value => value.blocks
  | .block values => values :: Statement.listBlocks values
  | .otherwise none => []
  | .otherwise (some alternative) => ownBlocks stop alternative ++ Statement.listBlocks alternative
  | .statement _ _ value => value.blocks
  | .statements values => values :: Statement.listBlocks values

section Rows

variable {α : Type}

theorem Listing.replace {front back : List (Item α)} {item : Item α} {trailing : Bool}
    {lexemes : List Lexeme} (listing : Listing (front ++ item :: back) trailing lexemes) :
    ∃ before after, lexemes = before ++ (item.lexemes ++ after) ∧ ∀ other : List Lexeme,
      Listing (front ++ ⟨item.lead, item.value, other⟩ :: back) trailing (before ++ (other ++ after)) := by
  generalize whole : front ++ item :: back = items at listing
  cases listing with
  | empty => cases List.append_eq_nil_iff.mp whole |>.2
  | row first others trailing commas last =>
    cases front with
    | nil =>
      obtain ⟨rfl, rfl⟩ := List.cons.inj whole
      refine ⟨[], _, rfl, fun other => ?_⟩
      exact .row ⟨item.lead, item.value, other⟩ others trailing commas last
    | cons head front =>
      obtain ⟨rfl, tail⟩ := List.cons.inj whole
      obtain ⟨one, two, rfl, rfl, behind⟩ := List.map_eq_append_iff.mp tail.symm
      obtain ⟨⟨comma, same⟩, three, rfl, rfl, rfl⟩ := List.map_eq_cons_iff.mp behind
      refine ⟨head.lexemes ++ (one.flatMap (fun other => other.1 :: other.2.lexemes) ++ [comma]),
        three.flatMap (fun other => other.1 :: other.2.lexemes) ++ trailing.toList, ?_, fun other => ?_⟩
      · simp only [List.flatMap_append, List.flatMap_cons, List.append_assoc, List.cons_append,
          List.nil_append]
      · have commas' : ∀ link ∈ one ++ (comma, Item.mk same.lead same.value other) :: three,
            link.1.token = .symbol .comma := by
          intro link member
          rcases List.mem_append.mp member with among | among
          · exact commas link (List.mem_append_left _ among)
          · rcases List.mem_cons.mp among with rfl | among
            · exact commas (comma, same) (List.mem_append_right _ (List.mem_cons_self ..))
            · exact commas link (List.mem_append_right _ (List.mem_cons_of_mem _ among))
        have built := Listing.row head _ trailing commas' last
        simp only [List.map_append, List.map_cons, List.flatMap_append, List.flatMap_cons,
          List.append_assoc, List.cons_append, List.nil_append] at built ⊢
        exact built

/-- What holds of all but one of some parts, and of another in its place, holds of all of them. -/
theorem forall_mem_replace {holds : α → Prop} {front back : List α} {part other : α}
    (each : ∀ one ∈ front ++ part :: back, holds one) (own : holds other) :
    ∀ one ∈ front ++ other :: back, holds one := by
  intro one member
  rcases List.mem_append.mp member with among | among
  · exact each one (List.mem_append_left _ among)
  · rcases List.mem_cons.mp among with rfl | among
    · exact own
    · exact each one (List.mem_append_right _ (List.mem_cons_of_mem _ among))

theorem isChain_replace {front back : List Sentence} {sentence other : Sentence}
    (lead : other.item.lead = sentence.item.lead)
    (behind : ∀ next, sentence.Apart next → other.Apart next)
    (chain : (front ++ sentence :: back).IsChain Sentence.Apart) :
    (front ++ other :: back).IsChain Sentence.Apart := by
  obtain ⟨one, two, between⟩ := List.isChain_append.mp chain
  refine List.isChain_append.mpr ⟨one, ?_, fun before last next first => ?_⟩
  · cases back with
    | nil => exact .singleton other
    | cons next back =>
      obtain ⟨apart, rest⟩ := List.isChain_cons_cons.mp two
      exact List.isChain_cons_cons.mpr ⟨behind next apart, rest⟩
  · cases first
    have apart := between before last sentence rfl
    unfold Sentence.Apart at apart ⊢
    rw [lead]
    exact apart

end Rows

section Phrases

variable {exact : Prop} {place : Nat}

theorem admits_items {phrase : Phrase} {items : List (Item Expression)} {trailing : Bool}
    {inner : List Lexeme} (listing : Listing items trailing inner)
    (each : ∀ item ∈ items, Derives exact (.expression item.lead item.value) item.lexemes)
    (admits : ∀ item ∈ items, IsGap place item.value.blocks →
      Admits (.expression item.lead item.value) item.lexemes place)
    (gap : IsGap place (Expression.listBlocks (items.map Item.value))) (front back : List Lexeme)
    (build : ∀ (others : List (Item Expression)) (row : List Lexeme),
      others.map Item.value = items.map Item.value → Listing others trailing row →
      (∀ item ∈ others, Derives False (.expression item.lead item.value) item.lexemes) →
      Derives False phrase (front ++ (row ++ back))) :
    Admits phrase (front ++ (inner ++ back)) place := by
  rw [Expression.listBlocks_eq, List.flatMap_map, isGap_flatMap] at gap
  obtain ⟨item, member, inside⟩ := gap
  obtain ⟨one, two, rfl⟩ := List.append_of_mem member
  obtain ⟨before, after, rfl, replaced⟩ := listing.replace
  have whole : Admits phrase ((front ++ before) ++ (item.lexemes ++ (after ++ back))) place := by
    refine (admits item member inside).within _ _ fun lexemes derived => ?_
    have built := build _ _ ?_ (replaced lexemes)
      (forall_mem_replace (fun item among => (each item among).inexact) derived)
    · simp only [List.append_assoc] at built ⊢
      exact built
    · rw [List.map_append, List.map_append, List.map_cons, List.map_cons]
  simp only [List.append_assoc] at whole ⊢
  exact whole

theorem admits_object (opening closing : Lexeme) (span : Span) {fields : List Field} {trailing : Bool}
    {inner : List Lexeme} (opens : opening.token = .symbol .curlyOpen)
    (closes : closing.token = .symbol .curlyClose)
    (listing : Listing (fields.map Field.entry) trailing inner) (fits : ∀ field ∈ fields, field.Fits)
    (each : ∀ field ∈ fields,
      Derives exact (.expression field.item.lead field.item.value) field.item.lexemes)
    (admits : ∀ field ∈ fields, IsGap place field.item.value.blocks →
      Admits (.expression field.item.lead field.item.value) field.item.lexemes place)
    (gap : IsGap place (Expression.entryBlocks
      (fields.map (fun field => (field.name, field.item.value))))) :
    Admits (.atom (if fields = [] then .braces else .free) .firm
        (.object span (fields.map (fun field => (field.name, field.item.value)))))
      (opening :: (inner ++ [closing])) place := by
  rw [Expression.entryBlocks_eq, List.flatMap_map, isGap_flatMap] at gap
  obtain ⟨field, member, inside⟩ := gap
  obtain ⟨one, two, rfl⟩ := List.append_of_mem member
  rw [List.map_append, List.map_cons] at listing
  obtain ⟨before, after, rfl, replaced⟩ := listing.replace
  have whole : Admits (.atom (if one ++ field :: two = [] then .braces else .free) .firm
        (.object span ((one ++ field :: two).map (fun field => (field.name, field.item.value)))))
      ((opening :: before ++ [field.key, field.colon]) ++ (field.item.lexemes ++ (after ++ [closing])))
      place := by
    refine (admits field member inside).within _ _ fun lexemes derived => ?_
    let other : Field := ⟨field.key, field.colon, field.name, field.item.lead, field.item.value, lexemes⟩
    have listed : Listing ((one ++ other :: two).map Field.entry) trailing
        (before ++ (field.key :: field.colon :: lexemes ++ after)) := by
      rw [List.map_append, List.map_cons]
      exact replaced (field.key :: field.colon :: lexemes)
    have own : other.Fits := ⟨(fits field member).key, (fits field member).colon⟩
    have built := Derives.object opening closing span _ trailing _ opens closes listed
      (forall_mem_replace fits own)
      (forall_mem_replace (fun field among => (each field among).inexact) derived)
    rw [if_neg (List.append_ne_nil_of_right_ne_nil _ (List.cons_ne_nil _ _))] at built ⊢
    rw [List.map_append, List.map_cons] at built ⊢
    simp only [List.append_assoc, List.cons_append, List.nil_append] at built ⊢
    exact built
  simp only [List.append_assoc, List.cons_append, List.nil_append] at whole ⊢
  exact whole

theorem admits_chain {lead : Lead} {tail : Tail} {target : Expression} {first : List Lexeme}
    (trailers : List Trailer) (atom : Derives exact (.atom lead tail target) first)
    (firm : tail = .loose → trailers = [])
    (each : ∀ trailer ∈ trailers, Derives exact (.suffix trailer.suffix.1) trailer.lexemes)
    (own : IsGap place target.blocks → Admits (.atom lead tail target) first place)
    (admits : ∀ trailer ∈ trailers, IsGap place trailer.suffix.1.blocks →
      Admits (.suffix trailer.suffix.1) trailer.lexemes place)
    (gap : IsGap place ((trailers.map Trailer.suffix).foldl applySuffix target).blocks) :
    Admits (.chain lead tail ((trailers.map Trailer.suffix).foldl applySuffix target))
      (first ++ trailers.flatMap Trailer.lexemes) place := by
  rw [Nested.blocks_applySuffixes, isGap_append, List.flatMap_map, isGap_flatMap] at gap
  rcases gap with inside | ⟨trailer, member, inside⟩
  · exact (own inside).within [] _ fun lexemes derived =>
      .chain trailers derived firm fun trailer among => (each trailer among).inexact
  · obtain ⟨one, two, rfl⟩ := List.append_of_mem member
    have whole : Admits
        (.chain lead tail (((one ++ trailer :: two).map Trailer.suffix).foldl applySuffix target))
        ((first ++ one.flatMap Trailer.lexemes) ++ (trailer.lexemes ++ two.flatMap Trailer.lexemes))
        place := by
      refine (admits trailer member inside).within _ _ fun lexemes derived => ?_
      have built := Derives.chain (one ++ ⟨trailer.suffix, lexemes⟩ :: two) atom.inexact
        (fun loose => absurd (firm loose) (List.append_ne_nil_of_right_ne_nil _ (List.cons_ne_nil _ _)))
        (forall_mem_replace (fun trailer among => (each trailer among).inexact) derived)
      rw [List.map_append, List.map_cons] at built ⊢
      simp only [List.flatMap_append, List.flatMap_cons, List.append_assoc] at built ⊢
      exact built
    simp only [List.flatMap_append, List.flatMap_cons, List.append_assoc] at whole ⊢
    exact whole

theorem firmBefore_replace {tail : Tail} {one two : List Link} {link other : Link}
    (same : other.tail = link.tail) (firm : FirmBefore tail (one ++ link :: two)) :
    FirmBefore tail (one ++ other :: two) ∧
      tailOfLinks tail (one ++ other :: two) = tailOfLinks tail (one ++ link :: two) := by
  induction one generalizing tail with
  | nil =>
    rw [List.nil_append, List.nil_append, FirmBefore, tailOfLinks, tailOfLinks, same]
    exact ⟨firm, rfl⟩
  | cons head rest ih =>
    obtain ⟨own, others⟩ := firm
    obtain ⟨others, tails⟩ := ih others
    exact ⟨⟨own, others⟩, tails⟩

theorem admits_operation {lead : Lead} {tail : Tail} {first : Operand} {inner : List Lexeme}
    (links : List Link)
    (are : ∀ link ∈ links, Nested.infixOperator.accepts? link.sign.token = some link.operator)
    (head : Derives exact (.operand lead tail first) inner) (firm : FirmBefore tail links)
    (each : ∀ link ∈ links,
      Derives exact (.operand link.item.lead link.tail link.item.value) link.item.lexemes)
    (own : IsGap place first.expression.blocks → Admits (.operand lead tail first) inner place)
    (admits : ∀ link ∈ links, IsGap place link.item.value.expression.blocks →
      Admits (.operand link.item.lead link.tail link.item.value) link.item.lexemes place)
    (gap : IsGap place (OperatorTree.ofSequence first
      (links.map (fun link => (link.operator, link.item.value)))).toOperand.expression.blocks) :
    Admits (.operation lead (tailOfLinks tail links) (OperatorTree.ofSequence first
        (links.map (fun link => (link.operator, link.item.value)))).toOperand.expression)
      (inner ++ links.flatMap (fun link => link.sign :: link.item.lexemes)) place := by
  rw [OperatorTree.blocks_ofSequence, isGap_append, List.flatMap_map, isGap_flatMap] at gap
  rcases gap with inside | ⟨link, member, inside⟩
  · exact (own inside).within [] _ fun lexemes derived =>
      .operation links are derived firm fun link among => (each link among).inexact
  · obtain ⟨one, two, rfl⟩ := List.append_of_mem member
    have whole : Admits (.operation lead (tailOfLinks tail (one ++ link :: two))
          (OperatorTree.ofSequence first ((one ++ link :: two).map
            (fun link => (link.operator, link.item.value)))).toOperand.expression)
        ((inner ++ (one.flatMap (fun link => link.sign :: link.item.lexemes) ++ [link.sign])) ++
          (link.item.lexemes ++ two.flatMap (fun link => link.sign :: link.item.lexemes))) place := by
      refine (admits link member inside).within _ _ fun lexemes derived => ?_
      let other : Link :=
        ⟨link.sign, link.operator, ⟨link.item.lead, link.item.value, lexemes⟩, link.tail⟩
      have accepts : Nested.infixOperator.accepts? other.sign.token = some other.operator :=
        are link member
      have same : other.tail = link.tail := rfl
      obtain ⟨stillFirm, tails⟩ := firmBefore_replace same firm
      have built := Derives.operation (one ++ other :: two) (forall_mem_replace are accepts) head.inexact
        stillFirm (forall_mem_replace (fun link among => (each link among).inexact) derived)
      rw [tails] at built
      rw [List.map_append, List.map_cons] at built ⊢
      simp only [List.flatMap_append, List.flatMap_cons, List.append_assoc, List.cons_append,
        List.nil_append] at built ⊢
      exact built
    simp only [List.flatMap_append, List.flatMap_cons, List.append_assoc, List.cons_append,
      List.nil_append] at whole ⊢
    exact whole

theorem admits_conditional (span : Span) (question colon : Lexeme) {lead first second : Lead}
    {condition consequent alternative : Expression} {one two three : List Lexeme}
    (asks : question.token = .symbol .question) (parts : colon.token = .symbol .colon)
    (head : Derives exact (.operation lead .firm condition) one)
    (yes : Derives exact (.expression first consequent) two)
    (no : Derives exact (.expression second alternative) three)
    (inHead : IsGap place condition.blocks → Admits (.operation lead .firm condition) one place)
    (inYes : IsGap place consequent.blocks → Admits (.expression first consequent) two place)
    (inNo : IsGap place alternative.blocks → Admits (.expression second alternative) three place)
    (gap : IsGap place (condition.blocks ++ (consequent.blocks ++ alternative.blocks))) :
    Admits (.expression lead (.conditional span condition consequent alternative))
      (one ++ question :: (two ++ colon :: three)) place := by
  rw [isGap_append, isGap_append] at gap
  rcases gap with inside | inside | inside
  · exact (inHead inside).within [] _ fun lexemes derived =>
      .conditional span question colon asks parts derived yes.inexact no.inexact
  · have whole := (inYes inside).within (one ++ [question]) (colon :: three) fun lexemes derived => by
      have built := Derives.conditional span question colon asks parts head.inexact derived no.inexact
      simpa only [List.append_assoc, List.cons_append, List.nil_append] using built
    simpa only [List.append_assoc, List.cons_append, List.nil_append] using whole
  · have whole := (inNo inside).behind (one ++ question :: (two ++ [colon])) fun lexemes derived => by
      have built := Derives.conditional span question colon asks parts head.inexact yes.inexact derived
      simpa only [List.append_assoc, List.cons_append, List.nil_append] using built
    simpa only [List.append_assoc, List.cons_append, List.nil_append] using whole

end Phrases

section Sentences

variable {exact : Prop} {place : Nat}

theorem exists_edge {ending : Ending} {lead : Lead} {value : Statement} {lexemes : List Lexeme}
    (places : exact) (derived : Derives exact (.statement ending lead value) lexemes) :
    (∀ before after, IsEdge before (lexemes ++ after) value.span.start) ∧
      ∀ before after, IsEdge (before ++ lexemes) after value.span.stop := by
  obtain ⟨nonempty, span⟩ := derived.place places
  rw [span]
  refine ⟨fun before after => ?_, fun before after => ?_⟩
  · obtain ⟨lexeme, rest, rfl⟩ := List.exists_cons_of_ne_nil nonempty
    exact .before before lexeme (rest ++ after)
  · obtain ⟨front, last, is⟩ := (List.eq_nil_or_concat lexemes).resolve_left nonempty
    rw [List.concat_eq_append] at is
    subst is
    have stop : (extentOf (front ++ [last])).stop = last.span.stop := by
      cases front with
      | nil => rfl
      | cons lexeme front => exact stopOf_append_of_ne_nil (List.cons_ne_nil last []) lexeme.span.stop front
    rw [stop, ← List.append_assoc]
    exact .behind (before ++ front) last after

variable {leading : List Lexeme} {sentences : List Sentence}

theorem admits_before {sentence : Sentence} {rest : List Sentence} (places : exact)
    (are : AreSemicolons leading)
    (ends : ∀ other ∈ sentence :: rest, AreSemicolons other.semicolons)
    (apart : (sentence :: rest).IsChain Sentence.Apart)
    (each : ∀ other ∈ sentence :: rest,
      Derives exact (.statement other.ending other.item.lead other.item.value) other.item.lexemes) :
    Admits (.statements ((sentence :: rest).map (fun other => other.item.value)))
      (leading ++ (sentence :: rest).flatMap Sentence.lexemes) sentence.item.value.span.start := by
  refine ⟨leading, _, rfl, ?_, fun semicolons also => ?_⟩
  · rw [List.flatMap_cons, Sentence.lexemes, List.append_assoc]
    exact (exists_edge places (each sentence (List.mem_cons_self ..))).1 leading _
  · have all : AreSemicolons (leading ++ semicolons) := fun lexeme member =>
      (List.mem_append.mp member).elim (are lexeme) (also lexeme)
    rw [← List.append_assoc]
    exact .statements _ _ all ends apart fun other member => (each other member).inexact

theorem Derives.behind_semicolons {values : List Statement} {lexemes semicolons : List Lexeme}
    (derived : Derives exact (.statements values) lexemes) (also : AreSemicolons semicolons) :
    Derives False (.statements values) (semicolons ++ lexemes) := by
  cases derived with
  | statements leading sentences are ends apart each =>
    have all : AreSemicolons (semicolons ++ leading) := fun lexeme member =>
      (List.mem_append.mp member).elim (also lexeme) (are lexeme)
    rw [← List.append_assoc]
    exact .statements _ _ all ends apart fun sentence member => (each sentence member).inexact

/-- One of the sentences can be another one with the same statement that stays apart as it does. -/
theorem derives_replace {front back : List Sentence} {sentence other : Sentence}
    (are : AreSemicolons leading)
    (ends : ∀ one ∈ front ++ sentence :: back, AreSemicolons one.semicolons)
    (apart : (front ++ sentence :: back).IsChain Sentence.Apart)
    (each : ∀ one ∈ front ++ sentence :: back,
      Derives exact (.statement one.ending one.item.lead one.item.value) one.item.lexemes)
    (semicolons : AreSemicolons other.semicolons)
    (derived : Derives False (.statement other.ending other.item.lead other.item.value)
      other.item.lexemes)
    (value : other.item.value = sentence.item.value) (lead : other.item.lead = sentence.item.lead)
    (behind : ∀ next, sentence.Apart next → other.Apart next) :
    Derives False (.statements ((front ++ sentence :: back).map (fun one => one.item.value)))
      ((leading ++ front.flatMap Sentence.lexemes) ++
        (other.lexemes ++ back.flatMap Sentence.lexemes)) := by
  have built := Derives.statements leading (front ++ other :: back) are
    (forall_mem_replace ends semicolons) (isChain_replace lead behind apart)
    (forall_mem_replace (fun one among => (each one among).inexact) derived)
  rw [List.map_append, List.map_cons] at built ⊢
  rw [value, List.flatMap_append, List.flatMap_cons] at built
  rw [List.append_assoc]
  exact built

theorem admits_behind (places : exact) (are : AreSemicolons leading)
    (ends : ∀ sentence ∈ sentences, AreSemicolons sentence.semicolons)
    (apart : sentences.IsChain Sentence.Apart)
    (each : ∀ sentence ∈ sentences,
      Derives exact (.statement sentence.ending sentence.item.lead sentence.item.value)
        sentence.item.lexemes) {sentence : Sentence} (member : sentence ∈ sentences) :
    Admits (.statements (sentences.map (fun other => other.item.value)))
      (leading ++ sentences.flatMap Sentence.lexemes) sentence.item.value.span.stop := by
  obtain ⟨front, back, rfl⟩ := List.append_of_mem member
  refine ⟨(leading ++ front.flatMap Sentence.lexemes) ++ sentence.item.lexemes,
    sentence.semicolons ++ back.flatMap Sentence.lexemes, ?_, ?_, fun semicolons also => ?_⟩
  · rw [List.flatMap_append, List.flatMap_cons, Sentence.lexemes]
    simp only [List.append_assoc]
  · exact (exists_edge places (each sentence member)).2 _ _
  · let other : Sentence := ⟨sentence.ending, sentence.item, semicolons ++ sentence.semicolons⟩
    have all : AreSemicolons other.semicolons := fun lexeme among =>
      (List.mem_append.mp among).elim (also lexeme) (ends sentence member lexeme)
    have behind : ∀ next, sentence.Apart next → other.Apart next := fun next apart =>
      apart.imp_left (List.append_ne_nil_of_right_ne_nil semicolons)
    have row : other.lexemes = sentence.item.lexemes ++ (semicolons ++ sentence.semicolons) := rfl
    have built := derives_replace are ends apart each all (each sentence member).inexact rfl rfl behind
    rw [row] at built
    simp only [List.append_assoc] at built ⊢
    exact built

theorem admits_inside (are : AreSemicolons leading)
    (ends : ∀ sentence ∈ sentences, AreSemicolons sentence.semicolons)
    (apart : sentences.IsChain Sentence.Apart)
    (each : ∀ sentence ∈ sentences,
      Derives exact (.statement sentence.ending sentence.item.lead sentence.item.value)
        sentence.item.lexemes) {sentence : Sentence} (member : sentence ∈ sentences)
    (admits : Admits (.statement sentence.ending sentence.item.lead sentence.item.value)
      sentence.item.lexemes place) :
    Admits (.statements (sentences.map (fun other => other.item.value)))
      (leading ++ sentences.flatMap Sentence.lexemes) place := by
  obtain ⟨front, back, rfl⟩ := List.append_of_mem member
  have whole : Admits (.statements ((front ++ sentence :: back).map (fun other => other.item.value)))
      ((leading ++ front.flatMap Sentence.lexemes) ++
        (sentence.item.lexemes ++ (sentence.semicolons ++ back.flatMap Sentence.lexemes))) place := by
    refine admits.within _ _ fun lexemes derived => ?_
    let other : Sentence :=
      ⟨sentence.ending, ⟨sentence.item.lead, sentence.item.value, lexemes⟩, sentence.semicolons⟩
    have semicolons : AreSemicolons other.semicolons := ends sentence member
    have row : other.lexemes = lexemes ++ sentence.semicolons := rfl
    have built := derives_replace are ends apart each semicolons derived rfl rfl fun _ apart => apart
    rw [row] at built
    simp only [List.append_assoc] at built ⊢
    exact built
  rw [List.flatMap_append, List.flatMap_cons, Sentence.lexemes]
  simp only [List.append_assoc] at whole ⊢
  exact whole

theorem admits_statements (places : exact) (are : AreSemicolons leading)
    (ends : ∀ sentence ∈ sentences, AreSemicolons sentence.semicolons)
    (apart : sentences.IsChain Sentence.Apart)
    (each : ∀ sentence ∈ sentences,
      Derives exact (.statement sentence.ending sentence.item.lead sentence.item.value)
        sentence.item.lexemes)
    (admits : ∀ sentence ∈ sentences, IsGap place sentence.item.value.blocks →
      Admits (.statement sentence.ending sentence.item.lead sentence.item.value)
        sentence.item.lexemes place)
    (gap : IsGap place (sentences.map (fun sentence => sentence.item.value) ::
      Statement.listBlocks (sentences.map (fun sentence => sentence.item.value)))) :
    Admits (.statements (sentences.map (fun sentence => sentence.item.value)))
      (leading ++ sentences.flatMap Sentence.lexemes) place := by
  rcases isGap_cons.mp gap with edge | inside
  · rcases List.mem_append.mp edge with start | stop
    · cases sentences with
      | nil => cases start
      | cons sentence rest =>
        cases List.mem_singleton.mp start
        exact admits_before places are ends apart each
    · rw [List.map_map] at stop
      obtain ⟨sentence, member, rfl⟩ := List.mem_map.mp stop
      exact admits_behind places are ends apart each member
  · rw [Statement.listBlocks_eq, List.flatMap_map, isGap_flatMap] at inside
    obtain ⟨sentence, member, inside⟩ := inside
    exact admits_inside are ends apart each member (admits sentence member inside)

theorem edge_of_ownBlocks {stop : Nat} {alternative : List Statement}
    (gap : IsGap place (ownBlocks stop alternative)) : place ∈ edges alternative := by
  unfold ownBlocks at gap
  split at gap
  · exact absurd gap not_isGap_nil
  · exact (isGap_cons.mp gap).resolve_right not_isGap_nil

theorem blocks_branch (span : Span) (condition : Expression) (consequent : List Statement)
    (alternative : Option (List Statement)) :
    (Statement.branch span condition consequent alternative).blocks =
      condition.blocks ++ ((Phrase.block consequent).blocks span.stop ++
        (Phrase.otherwise alternative).blocks span.stop) := by
  cases alternative with
  | none =>
    rw [Statement.blocks]
    exact congrArg _ (List.append_nil _).symm
  | some alternative =>
    rw [Statement.blocks, List.append_assoc]
    rfl

theorem admits_branch (places : exact) (span : Span) (sign opening closing : Lexeme) {lead : Lead}
    {condition : Expression} {consequent : List Statement} {alternative : Option (List Statement)}
    {one two three : List Lexeme} (is : sign.token = .keyword .ifBranch)
    (opens : opening.token = .symbol .roundOpen) (closes : closing.token = .symbol .roundClose)
    (head : Derives exact (.expression lead condition) one)
    (yes : Derives exact (.block consequent) two) (no : Derives exact (.otherwise alternative) three)
    (own : exact → span = extentOf (sign :: opening :: (one ++ closing :: (two ++ three))))
    (first : IsGap place condition.blocks → Admits (.expression lead condition) one place)
    (second : IsGap place ((Phrase.block consequent).blocks span.stop) →
      Admits (.block consequent) two place)
    (third : IsGap place ((Phrase.otherwise alternative).blocks (stopOf 0 three)) →
      Admits (.otherwise alternative) three place)
    (gap : IsGap place (Statement.branch span condition consequent alternative).blocks) :
    Admits (.statement .closed .keyword (.branch span condition consequent alternative))
      (sign :: opening :: (one ++ closing :: (two ++ three))) place := by
  have anywhere : ∀ {span other : Span}, False → span = other := fun never => never.elim
  rw [blocks_branch, isGap_append, isGap_append] at gap
  rcases gap with inside | inside | inside
  · exact (first inside).within [sign, opening] (closing :: (two ++ three)) fun lexemes derived =>
      .branch span sign opening closing is opens closes derived yes.inexact no.inexact anywhere
  · have whole := (second inside).within (sign :: opening :: (one ++ [closing])) three
      fun lexemes derived => by
        have built : Derives False (.statement .closed .keyword
            (.branch span condition consequent alternative)) _ :=
          .branch span sign opening closing is opens closes head.inexact derived no.inexact anywhere
        simpa only [List.append_assoc, List.cons_append, List.nil_append] using built
    simpa only [List.append_assoc, List.cons_append, List.nil_append] using whole
  · have stop : span.stop = stopOf 0 three := by
      have nonempty : three ≠ [] := by
        rintro rfl
        cases no with
        | nothing => exact not_isGap_nil inside
      have shape : sign :: opening :: (one ++ closing :: (two ++ three)) =
          sign :: (opening :: (one ++ closing :: two) ++ three) := by
        simp only [List.append_assoc, List.cons_append]
      rw [own places, shape]
      exact stopOf_append_of_ne_nil nonempty sign.span.stop (opening :: (one ++ closing :: two))
    rw [stop] at inside
    have whole := (third inside).behind (sign :: opening :: (one ++ closing :: two))
      fun lexemes derived => by
        have built : Derives False (.statement .closed .keyword
            (.branch span condition consequent alternative)) _ :=
          .branch span sign opening closing is opens closes head.inexact yes.inexact derived anywhere
        simpa only [List.append_assoc, List.cons_append] using built
    simpa only [List.append_assoc, List.cons_append] using whole

end Sentences

theorem Derives.admits {exact : Prop} (places : exact) {phrase : Phrase} {lexemes : List Lexeme}
    (derived : Derives exact phrase lexemes) {place : Nat}
    (gap : IsGap place (phrase.blocks (stopOf 0 lexemes))) : Admits phrase lexemes place := by
  have anywhere : ∀ {span other : Span}, False → span = other := fun never => never.elim
  induction derived with
  | literal | name | member | nothing | result => exact absurd gap not_isGap_nil
  | array opening closing span items trailing inner opens closes listing each ih =>
    refine admits_items listing each ih gap [opening] [closing] fun others row same listed derived => ?_
    have length : others.length = items.length := by
      rw [← List.length_map Item.value, same, List.length_map]
    have built := Derives.array opening closing span others trailing row opens closes listed derived
    rw [same, length] at built
    exact built
  | object opening closing span fields trailing inner opens closes listing fits each ih =>
    exact admits_object opening closing span opens closes listing fits each ih gap
  | @arrow span lead tail names value parameters inner sign is listed body ih =>
    have whole := (ih gap).behind (parameters ++ [sign]) fun lexemes derived => by
      have built : Derives False (.atom lead tail (.arrow span names value)) _ :=
        .arrow span sign is listed derived
      simpa only [List.append_assoc, List.cons_append, List.nil_append] using built
    simpa only [List.append_assoc, List.cons_append, List.nil_append] using whole
  | brackets opening closing opens closes within ih =>
    exact (ih gap).within [opening] [closing] fun lexemes derived =>
      .brackets opening closing opens closes derived
  | call opening closing items trailing inner opens closes listing each ih =>
    refine admits_items listing each ih gap [opening] [closing] fun others row same listed derived => ?_
    have built := Derives.call opening closing others trailing row opens closes listed derived
    rw [same] at built
    exact built
  | index opening closing opens closes within ih =>
    exact (ih gap).within [opening] [closing] fun lexemes derived =>
      .index opening closing opens closes derived
  | chain trailers atom firm each own ih => exact admits_chain trailers atom firm each own ih gap
  | @operand extent lead tail value inner signs are chain ih =>
    have inside : IsGap place value.blocks :=
      Nested.blocks_applyPrefixes ⟨value, extent⟩ (signs.map Sign.operator) ▸ gap
    exact (ih inside).behind (signs.map Sign.lexeme) fun lexemes derived =>
      .operand extent signs are derived
  | operation links are head firm each own ih =>
    exact admits_operation links are head firm each own ih gap
  | plain operation ih => exact (ih gap).behind [] fun lexemes derived => .plain derived
  | conditional span question colon asks parts head yes no ihHead ihYes ihNo =>
    exact admits_conditional span question colon asks parts head yes no ihHead ihYes ihNo gap
  | bodyBlock within ih => exact (ih gap).behind [] fun lexemes derived => .bodyBlock derived
  | bodyExpression noBlock within ih =>
    exact (ih gap).behind [] fun lexemes derived => .bodyExpression noBlock derived
  | block opening closing opens closes within ih =>
    exact (ih gap).within [opening] [closing] fun lexemes derived =>
      .block opening closing opens closes derived
  | otherwise sign is within ih =>
    refine (ih ?_).behind [sign] fun lexemes derived => .otherwise sign is derived
    rcases isGap_append.mp gap with edge | inside
    · exact isGap_cons.mpr (.inl (edge_of_ownBlocks edge))
    · exact isGap_cons.mpr (.inr inside)
  | @otherwiseBranch sign lead branch inner is within ih =>
    refine (ih ?_).behind [sign] fun lexemes derived => .otherwiseBranch sign is derived
    obtain ⟨nonempty, span⟩ := within.place places
    have stop : stopOf 0 (sign :: inner) = branch.span.stop := by
      obtain ⟨lexeme, rest, rfl⟩ := List.exists_cons_of_ne_nil nonempty
      rw [span]
      rfl
    rcases isGap_append.mp gap with edge | inside
    · rw [ownBlocks, if_pos (by rw [stop]; rfl)] at edge
      exact absurd edge not_isGap_nil
    · exact (isGap_append.mp inside).resolve_right not_isGap_nil
  | binding span sign name assign word is named assigns within place ih =>
    exact (ih gap).behind [sign, name, assign] fun lexemes derived =>
      .binding span sign name assign word is named assigns derived anywhere
  | expression span within place ih =>
    exact (ih gap).behind [] fun lexemes derived => .expression span derived anywhere
  | branch span sign opening closing is opens closes head yes no place ihHead ihYes ihNo =>
    exact admits_branch places span sign opening closing is opens closes head yes no place ihHead ihYes
      ihNo gap
  | resultValue span sign is within place ih =>
    exact (ih gap).behind [sign] fun lexemes derived => .resultValue span sign is derived anywhere
  | statements leading sentences are ends apart each ih =>
    exact admits_statements places are ends apart each ih gap

end ScreenStudio.Source
