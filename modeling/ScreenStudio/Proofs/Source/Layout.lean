/- digest: Layout and semicolons do not matter to a program. -/

import ScreenStudio.Proofs.Source.Parsed
import ScreenStudio.Proofs.Source.Separated

/-!
White space and comments can be put in at both ends of every token of a program, and semicolons at every
edge of its blocks. Neither changes what the tokens around are cut into: a slash of a program stands before
an operand, so that no comment behind it can close what it would open. Comments are dropped, and the
semicolons go where a derivation admits them.
-/

set_option autoImplicit false
set_option relaxedAutoImplicit false

namespace ScreenStudio.Source

section Signs

variable {exact : Prop}

theorem signed_cons {token : Token} {rest : List Token} (noSlash : token ≠ .symbol .slash)
    (others : Signed rest) : Signed (token :: rest) := ⟨fun slash => absurd slash noSlash, others⟩

theorem signed_of_forall {tokens : List Token} (none : ∀ token ∈ tokens, token ≠ .symbol .slash) :
    Signed tokens := by
  induction tokens with
  | nil => trivial
  | cons token rest ih =>
    obtain ⟨own, others⟩ := List.forall_mem_cons.mp none
    exact signed_cons own (ih others)

theorem signed_flatMap {α : Type} {parts : List α} {row : α → List Lexeme}
    (each : ∀ part ∈ parts, Signed (tokensOf (row part))) : Signed (tokensOf (parts.flatMap row)) := by
  induction parts with
  | nil => trivial
  | cons part rest ih =>
    obtain ⟨own, others⟩ := List.forall_mem_cons.mp each
    rw [List.flatMap_cons, tokensOf_append]
    exact signed_append own (ih others)

theorem signed_brackets {opening closing : Lexeme} {inner : List Lexeme} {first last : Symbol}
    (opens : opening.token = .symbol first) (closes : closing.token = .symbol last)
    (noSlash : first ≠ .slash ∧ last ≠ .slash) (within : Signed (tokensOf inner)) :
    Signed (tokensOf (opening :: (inner ++ [closing]))) := by
  rw [tokensOf_cons, tokensOf_append, tokensOf_cons, opens, closes]
  exact signed_cons (fun is => noSlash.1 (Token.symbol.inj is)) (signed_append within
    (signed_cons (fun is => noSlash.2 (Token.symbol.inj is)) trivial))

theorem Listing.signed {α : Type} {items : List (Item α)} {trailing : Bool} {lexemes : List Lexeme}
    (listing : Listing items trailing lexemes) (each : ∀ item ∈ items, Signed (tokensOf item.lexemes)) :
    Signed (tokensOf lexemes) := by
  cases listing with
  | empty => trivial
  | row first others trailing commas last =>
    obtain ⟨own, behind⟩ := List.forall_mem_cons.mp each
    rw [tokensOf_append, tokensOf_append]
    refine signed_append own (signed_append (signed_flatMap fun other member => ?_) ?_)
    · rw [tokensOf_cons, commas other member]
      exact signed_cons (fun is => by cases is) (behind _ (List.mem_map_of_mem member))
    · cases trailing with
      | none => trivial
      | some lexeme =>
        show Signed [lexeme.token]
        rw [last lexeme rfl]
        exact signed_cons (fun is => by cases is) trivial

theorem signed_semicolons {lexemes : List Lexeme} (are : AreSemicolons lexemes) :
    Signed (tokensOf lexemes) := by
  refine signed_of_forall fun token member => ?_
  obtain ⟨lexeme, among, rfl⟩ := List.mem_map.mp member
  rw [are lexeme among]
  exact fun is => by cases is

theorem Parameters.signed {lead : Lead} {names : List String} {lexemes : List Lexeme}
    (listed : Parameters lead names lexemes) : Signed (tokensOf lexemes) := by
  cases listed with
  | single lexeme word is =>
    rw [tokensOf_cons, is]
    exact signed_cons (fun is => by cases is) trivial
  | listed opening closing items trailing inner opens closes listing each =>
    refine signed_brackets opens closes (by decide) (listing.signed fun item member => ?_)
    obtain ⟨lexeme, is, named⟩ := each item member
    rw [is, tokensOf_cons, named]
    exact signed_cons (fun is => by cases is) trivial

theorem Derives.signed {phrase : Phrase} {lexemes : List Lexeme} (derived : Derives exact phrase lexemes) :
    Signed (tokensOf lexemes) := by
  have word : ∀ {token : Token} {word : Keyword} {rest : List Token}, token = .keyword word →
      Signed rest → Signed (token :: rest) := by
    rintro _ word rest rfl others
    exact signed_cons (fun is => by cases is) others
  induction derived with
  | literal lexeme span value is =>
    exact signed_cons ((begins_of_literal is).2.2 _) trivial
  | name lexeme span word is =>
    exact signed_cons (fun slash => by cases is.symm.trans slash) trivial
  | array opening closing span items trailing inner opens closes listing each ih =>
    exact signed_brackets opens closes (by decide) (listing.signed ih)
  | object opening closing span fields trailing inner opens closes listing fits each ih =>
    refine signed_brackets opens closes (by decide)
      (listing.signed (List.forall_mem_map.mpr fun field member => ?_))
    have key : field.key.token ≠ .symbol .slash := by
      rcases key_cases (fits field member).key with is | ⟨raw, is, _⟩ <;>
        exact fun slash => by cases is.symm.trans slash
    have colon : field.colon.token ≠ .symbol .slash := by
      rw [(fits field member).colon]
      exact fun is => by cases is
    exact signed_cons key (signed_cons colon (ih field member))
  | arrow span sign is listed body ih =>
    rw [tokensOf_append, tokensOf_cons, is]
    exact signed_append listed.signed (signed_cons (fun is => by cases is) ih)
  | brackets opening closing opens closes within ih =>
    exact signed_brackets opens closes (by decide) ih
  | call opening closing items trailing inner opens closes listing each ih =>
    exact signed_brackets opens closes (by decide) (listing.signed ih)
  | member dot property word is named =>
    rw [tokensOf_cons, tokensOf_cons, is, named]
    exact signed_cons (fun is => by cases is) (signed_cons (fun is => by cases is) trivial)
  | index opening closing opens closes within ih =>
    exact signed_brackets opens closes (by decide) ih
  | chain trailers atom firm each own ih =>
    rw [tokensOf_append]
    exact signed_append own (signed_flatMap ih)
  | operand extent signs are chain ih =>
    rw [tokensOf_append]
    refine signed_append (signed_of_forall fun token member => ?_) ih
    obtain ⟨lexeme, among, rfl⟩ := List.mem_map.mp member
    obtain ⟨sign, there, rfl⟩ := List.mem_map.mp among
    rcases prefix_cases (are sign there) with ⟨is, _⟩ | ⟨is, _⟩ <;> rw [is] <;> exact fun is => by cases is
  | operation links are head firm each own ih =>
    rw [tokensOf_append]
    refine signed_append own (signed_flatMap fun link member => ?_)
    -- the slash itself, in front of the operand behind it
    refine ⟨fun _ => ?_, ih link member⟩
    have complete : CompleteOperand link.item.lead link.tail link.item.value
        (tokensOf link.item.lexemes) := (each link member).complete
    exact complete.starts.begins
  | plain operation ih => exact ih
  | conditional span question colon asks parts head yes no ihHead ihYes ihNo =>
    rw [tokensOf_append, tokensOf_cons, tokensOf_append, tokensOf_cons, asks, parts]
    exact signed_append ihHead (signed_cons (fun is => by cases is)
      (signed_append ihYes (signed_cons (fun is => by cases is) ihNo)))
  | bodyBlock within ih => exact ih
  | bodyExpression noBlock within ih => exact ih
  | block opening closing opens closes within ih =>
    exact signed_brackets opens closes (by decide) ih
  | nothing => trivial
  | otherwise sign is within ih => exact word is ih
  | otherwiseBranch sign is within ih => exact word is ih
  | binding span sign name assign _ is named assigns within place ih =>
    rw [tokensOf_cons, tokensOf_cons, tokensOf_cons, named, assigns]
    rcases is with is | is <;>
      exact word is (signed_cons (fun is => by cases is) (signed_cons (fun is => by cases is) ih))
  | expression span within place ih => exact ih
  | branch span sign opening closing is opens closes head yes no place ihHead ihYes ihNo =>
    rw [tokensOf_cons, tokensOf_cons, tokensOf_append, tokensOf_cons, tokensOf_append, opens, closes]
    exact word is (signed_cons (fun is => by cases is) (signed_append ihHead
      (signed_cons (fun is => by cases is) (signed_append ihYes ihNo))))
  | result span sign is place => exact word is trivial
  | resultValue span sign is within place ih => exact word is ih
  | statements leading sentences are ends apart each ih =>
    rw [tokensOf_append]
    refine signed_append (signed_semicolons are) (signed_flatMap fun sentence member => ?_)
    rw [Sentence.lexemes, tokensOf_append]
    exact signed_append (ih sentence member) (signed_semicolons (ends sentence member))

end Signs

section Fillings

/-- What can stand between the tokens of a program without being one of them. -/
inductive IsLayout : List Char → Prop
  | blanks {cs : List Char} (blank : AreBlank cs) : IsLayout cs
  | block {content : List Char} (noEnd : ¬ ['*', '/'] <:+: content) :
    IsLayout (' ' :: '/' :: '*' :: (content ++ ['*', '/', ' ']))
  | line {content : List Char} (oneLine : ∀ c ∈ content, isLineEnd c = false) :
    IsLayout (' ' :: '/' :: '/' :: (content ++ ['\n']))

theorem blockEnd_content {content : List Char} (noEnd : ¬ ['*', '/'] <:+: content) (after : List Char) :
    blockEnd? (content ++ ['*', '/'] ++ after) = some (content ++ ['*', '/'], after) := by
  induction content with
  | nil => rfl
  | cons c rest ih =>
    have inner : ¬ ['*', '/'] <:+: rest := fun is => noEnd (is.trans (List.suffix_cons c rest).isInfix)
    have behind : ∀ others, c = '*' → rest ++ ['*', '/'] ++ after = '/' :: others → False := by
      rintro others rfl same
      cases rest with
      | nil => cases same
      | cons d rest =>
        obtain ⟨rfl, _⟩ := List.cons.inj same
        exact noEnd ⟨[], rest, rfl⟩
    rw [List.cons_append, List.cons_append, blockEnd?.eq_2 c _ behind, ih inner]
    rfl

private theorem blank_singleton {c : Char} (blank : Text.isBlank c = true) : AreBlank [c] :=
  List.forall_mem_cons.mpr ⟨blank, List.forall_mem_nil _⟩

theorem filling_blanks {cs : List Char} (blank : AreBlank cs) (nonempty : cs ≠ []) : Filling cs [] := by
  refine ⟨?_, fun cuts => ⟨[], cuts.behind_blanks blank, rfl⟩⟩
  obtain ⟨c, more, rfl⟩ := List.exists_cons_of_ne_nil nonempty
  refine ⟨c, more, rfl, ?_⟩
  unfold isSeparator
  rw [blank c (List.mem_cons_self ..)]
  rfl

theorem filling_token {token : Token} {lexeme : List Char} {last : Char}
    (blank : Text.isBlank last = true)
    (is : ∀ rest, scan? (lexeme ++ last :: rest) = some ⟨token, lexeme, last :: rest⟩) :
    Filling (' ' :: (lexeme ++ [last])) [token] := by
  refine ⟨⟨' ', _, rfl, rfl⟩, @fun offset rest lexemes cuts => ?_⟩
  have length : offset + byteLength (' ' :: (lexeme ++ [last])) =
      offset + byteLength [' '] + byteLength lexeme + byteLength [last] := by
    show offset + (_ + byteLength (lexeme ++ [last])) = offset + (_ + 0) + byteLength lexeme + _
    rw [byteLength_append]
    omega
  rw [length] at cuts
  have whole := Cuts.token (blank_singleton rfl) (is rest) (cuts.behind_blanks (blank_singleton blank))
  have shape : ' ' :: (lexeme ++ [last]) ++ rest = [' '] ++ (lexeme ++ last :: rest) := by
    simp only [List.cons_append, List.append_assoc, List.nil_append]
  rw [shape]
  exact ⟨[_], whole, rfl⟩

theorem filling_layout {text : List Char} (layout : IsLayout text) (nonempty : text ≠ []) :
    ∃ tokens, Filling text tokens ∧ ∀ token ∈ tokens, token.isComment = true := by
  have closed : ∀ {token : Token} {lexeme rest : List Char}, token.isComment = true →
      ¬ Scan.Unclosed ⟨token, lexeme, rest⟩ := by
    rintro token lexeme rest comment ⟨slash, _⟩
    dsimp only at slash
    subst slash
    cases comment
  have single : ∀ {content : String}, ∀ token ∈ [Token.comment content], token.isComment = true :=
    List.forall_mem_cons.mpr ⟨rfl, List.forall_mem_nil _⟩
  cases layout with
  | blanks blank => exact ⟨[], filling_blanks blank nonempty, List.forall_mem_nil _⟩
  | @block content noEnd =>
    refine ⟨[.comment (String.ofList ('/' :: '*' :: (content ++ ['*', '/'])))], ?_, single⟩
    have shape : '/' :: '*' :: (content ++ ['*', '/', ' ']) =
        '/' :: '*' :: (content ++ ['*', '/']) ++ [' '] := by
      simp only [List.cons_append, List.append_assoc, List.nil_append]
    rw [shape]
    exact filling_token rfl fun rest => (Scanned.block _ (blockEnd_content noEnd)).scan (closed rfl)
  | @line content oneLine =>
    refine ⟨[.comment (String.ofList ('/' :: '/' :: content))], ?_, single⟩
    have inside : ∀ c ∈ content, (!isLineEnd c) = true := fun c member => by
      rw [oneLine c member]
      rfl
    have shape : '/' :: '/' :: (content ++ ['\n']) = '/' :: '/' :: content ++ ['\n'] := rfl
    rw [shape]
    refine filling_token rfl fun rest => (Scanned.line inside fun c head => ?_).scan (closed rfl)
    cases head
    rfl

theorem filling_semicolons (count : Nat) :
    Filling (List.replicate (count + 1) ';') (List.replicate (count + 1) (.symbol .semicolon)) := by
  have scan : ∀ rest, scan? ([';'] ++ rest) = some ⟨.symbol .semicolon, [';'], rest⟩ := fun rest =>
    scan_of_symbol .semicolon fun _ _ member => by cases member
  have each : ∀ (count : Nat) {offset : Nat} {rest : List Char} {lexemes : List Lexeme},
      Cuts (offset + byteLength (List.replicate count ';')) rest lexemes →
      ∃ own, Cuts offset (List.replicate count ';' ++ rest) (own ++ lexemes) ∧
        tokensOf own = List.replicate count (.symbol .semicolon) := by
    intro count
    induction count with
    | zero => exact fun cuts => ⟨[], cuts, rfl⟩
    | succ count ih =>
      intro offset rest lexemes cuts
      rw [List.replicate_succ, byteLength, ← Nat.add_assoc] at cuts
      obtain ⟨own, whole, are⟩ := ih cuts
      have first : Cuts offset ([] ++ ([';'] ++ (List.replicate count ';' ++ rest))) _ :=
        .token (List.forall_mem_nil _) (scan _) whole
      refine ⟨_ :: own, first, ?_⟩
      rw [tokensOf_cons, are]
      rfl
  exact ⟨⟨';', _, rfl, rfl⟩, each (count + 1)⟩

end Fillings

section Insertion

/-- Put a text in where the characters reach the byte offset. -/
def insertChars (text : List Char) : List Char → Nat → List Char
  | [], _ => text
  | c :: rest, offset =>
    if offset = 0 then text ++ c :: rest else c :: insertChars text rest (offset - c.utf8Size)

/-- The source with a text put in at the byte offset. -/
def insertAt (offset : Nat) (text : List Char) (source : String) : String :=
  String.ofList (insertChars text source.toList offset)

theorem insertChars_append (text front back : List Char) :
    insertChars text (front ++ back) (byteLength front) = front ++ (text ++ back) := by
  induction front with
  | nil =>
    cases back with
    | nil => exact (List.append_nil text).symm
    | cons c back => exact if_pos rfl
  | cons c front ih =>
    have positive := byteLength_pos (List.cons_ne_nil c front)
    have less : byteLength (c :: front) - c.utf8Size = byteLength front := Nat.add_sub_cancel_left ..
    rw [List.cons_append, insertChars, if_neg (Nat.ne_of_gt positive), less, ih]
    rfl

theorem insertChars_nothing (cs : List Char) (offset : Nat) : insertChars [] cs offset = cs := by
  induction cs generalizing offset with
  | nil => rfl
  | cons c rest ih =>
    rw [insertChars]
    split
    · rfl
    · rw [ih]

/-- The source is accepted as these statements, up to places. -/
def AcceptedAs (source : String) (statements : List Statement) : Prop :=
  ∃ read, program source = .ok read ∧ Statement.bareList read = Statement.bareList statements

theorem tokensOf_withoutComments (lexemes : List Lexeme) :
    tokensOf (withoutComments lexemes) = (tokensOf lexemes).filter (fun token => !token.isComment) := by
  unfold tokensOf withoutComments
  rw [List.filter_map]
  rfl

variable {source : String} {statements : List Statement} {lexemes : List Lexeme} {place : Nat}

/-- What stands before an edge ends there or before, and what stands behind it ends later. -/
theorem IsEdge.filter {before after : List Lexeme} (edge : IsEdge before after place)
    (nonempty : ∀ lexeme ∈ before ++ after, lexeme.span.start < lexeme.span.stop)
    (ascending : (before ++ after).Pairwise (fun one two => one.span.stop ≤ two.span.start)) :
    (before ++ after).filter (fun lexeme => decide (lexeme.span.stop ≤ place)) = before ∧
      (before ++ after).filter (fun lexeme => !decide (lexeme.span.stop ≤ place)) = after := by
  have sides : (∀ lexeme ∈ before, lexeme.span.stop ≤ place) ∧
      ∀ lexeme ∈ after, place < lexeme.span.stop := by
    obtain ⟨one, two, apart⟩ := List.pairwise_append.mp ascending
    cases edge with
    | behind before last after =>
      have among : last ∈ before ++ [last] := List.mem_append_right _ (List.mem_singleton_self last)
      refine ⟨fun lexeme member => ?_, fun lexeme member => ?_⟩
      · rcases List.mem_append.mp member with earlier | same
        · have ends := (List.pairwise_append.mp one).2.2 lexeme earlier last (List.mem_singleton_self last)
          have := nonempty last (List.mem_append_left _ among)
          omega
        · exact Nat.le_of_eq (congrArg (fun lexeme => lexeme.span.stop) (List.mem_singleton.mp same))
      · have starts := apart last among lexeme member
        have := nonempty lexeme (List.mem_append_right _ member)
        omega
    | before before first after =>
      have among : first ∈ first :: after := List.mem_cons_self ..
      refine ⟨fun lexeme member => apart lexeme member first among, fun lexeme member => ?_⟩
      have own := nonempty first (List.mem_append_right _ among)
      rcases List.mem_cons.mp member with rfl | later
      · exact own
      · have starts := (List.pairwise_cons.mp two).1 lexeme later
        have := nonempty lexeme (List.mem_append_right _ member)
        omega
  obtain ⟨early, noneEarly⟩ := filter_of_ended sides.1
  obtain ⟨noneLate, late⟩ := filter_of_lasting sides.2
  rw [List.filter_append, List.filter_append, early, noneEarly, noneLate, late, List.append_nil,
    List.nil_append]
  exact ⟨rfl, rfl⟩

private theorem acceptedAs_insert (cuts : Cuts 0 source.toList lexemes)
    (signed : Signed (tokensOf (withoutComments lexemes))) {before after others : List Lexeme}
    (split : withoutComments lexemes = before ++ after) (edge : IsEdge before after place)
    {text : List Char} {tokens : List Token} (filling : Filling text tokens)
    (are : tokens.filter (fun token => !token.isComment) = tokensOf others)
    (derived : Derives False (.statements statements) (before ++ (others ++ after))) :
    AcceptedAs (insertAt place text source) statements := by
  have target : ∃ lexeme ∈ before ++ after, place = lexeme.span.start ∨ place = lexeme.span.stop := by
    cases edge with
    | behind before lexeme after =>
      have last : lexeme ∈ before ++ [lexeme] := List.mem_append_right _ (List.mem_singleton_self lexeme)
      exact ⟨lexeme, List.mem_append_left _ last, .inr rfl⟩
    | before before lexeme after =>
      exact ⟨lexeme, List.mem_append_right _ (List.mem_cons_self ..), .inl rfl⟩
  obtain ⟨lexeme, member, here⟩ := target
  rw [← split] at member
  obtain ⟨among, kept⟩ := List.mem_filter.mp member
  obtain ⟨front, back, all, whole, reached, _, cut, row⟩ :=
    cuts.insert filling signed among (Bool.not_eq_true' _ |>.mp kept) here
  have order := cuts.inOrder
  obtain ⟨early, late⟩ := edge.filter
    (fun lexeme member => order.nonempty lexeme (List.mem_filter.mp (split ▸ member)).1)
    (split ▸ order.ascending.sublist List.filter_sublist)
  have parts : ∀ keep : Lexeme → Bool, (tokensOf (lexemes.filter keep)).filter
      (fun token => !token.isComment) = tokensOf ((before ++ after).filter keep) := by
    intro keep
    rw [← tokensOf_withoutComments, ← split]
    unfold withoutComments
    rw [List.filter_filter, List.filter_filter]
    simp only [Bool.and_comm]
  have same : tokensOf (withoutComments all) = tokensOf (before ++ (others ++ after)) := by
    rw [tokensOf_withoutComments, row, List.filter_append, List.filter_append, parts, parts, early, late,
      are, tokensOf_append, tokensOf_append]
  have complete : CompleteStatements statements (tokensOf (before ++ (others ++ after))) :=
    derived.complete
  have chars : (insertAt place text source).toList = front ++ (text ++ back) := by
    rw [insertAt, String.toList_ofList, whole, ← reached, Nat.zero_add, insertChars_append]
  rw [← chars] at cut
  rw [← same] at complete
  exact program_of_complete cut complete

private theorem acceptedAs_nothing (accepted : program source = .ok statements) :
    AcceptedAs (insertAt place [] source) statements := by
  have chars : insertAt place [] source = source := by
    rw [insertAt, insertChars_nothing, String.ofList_toList]
  rw [chars]
  exact ⟨statements, accepted, rfl⟩

theorem acceptedAs_layout (accepted : program source = .ok statements)
    (cuts : Cuts 0 source.toList lexemes)
    (derived : Derives True (.statements statements) (withoutComments lexemes)) {lexeme : Lexeme}
    (member : lexeme ∈ lexemes) (noComment : lexeme.token.isComment = false) {text : List Char}
    (layout : IsLayout text) : AcceptedAs (insertAt lexeme.span.start text source) statements ∧
      AcceptedAs (insertAt lexeme.span.stop text source) statements := by
  by_cases empty : text = []
  · rw [empty]
    exact ⟨acceptedAs_nothing accepted, acceptedAs_nothing accepted⟩
  · obtain ⟨tokens, filling, comments⟩ := filling_layout layout empty
    have none : tokens.filter (fun token => !token.isComment) = tokensOf [] := by
      refine List.filter_eq_nil_iff.mpr fun token among => ?_
      rw [comments token among]
      exact Bool.false_ne_true
    have kept : lexeme ∈ withoutComments lexemes := by
      refine List.mem_filter.mpr ⟨member, ?_⟩
      rw [noComment]
      rfl
    obtain ⟨before, after, split⟩ := List.append_of_mem kept
    have whole := derived.inexact
    refine ⟨acceptedAs_insert cuts derived.signed split (.before before lexeme after) filling none
      (split ▸ whole), ?_⟩
    have behind : withoutComments lexemes = before ++ [lexeme] ++ after := by
      rw [split, List.append_assoc]
      rfl
    exact acceptedAs_insert cuts derived.signed behind (.behind before lexeme after) filling none
      (behind ▸ whole)

private theorem semicolons_replicate (count : Nat) :
    AreSemicolons (List.replicate count ⟨.symbol .semicolon, nowhere⟩) ∧
      (List.replicate count (Token.symbol .semicolon)).filter (fun token => !token.isComment) =
        tokensOf (List.replicate count ⟨.symbol .semicolon, nowhere⟩) := by
  refine ⟨fun lexeme member => by rw [List.eq_of_mem_replicate member], ?_⟩
  unfold tokensOf
  rw [List.map_replicate]
  exact List.filter_eq_self.mpr fun token member => by
    rw [List.eq_of_mem_replicate member]
    rfl

theorem acceptedAs_semicolons (cuts : Cuts 0 source.toList lexemes)
    (derived : Derives True (.statements statements) (withoutComments lexemes))
    (gap : IsGap place (statements :: Statement.listBlocks statements)) (count : Nat) :
    AcceptedAs (insertAt place (List.replicate (count + 1) ';') source) statements := by
  obtain ⟨are, tokens⟩ := semicolons_replicate (count + 1)
  obtain ⟨before, after, split, edge, derives⟩ := derived.admits trivial gap
  exact acceptedAs_insert cuts derived.signed split edge (filling_semicolons count) tokens (derives _ are)

theorem acceptedAs_first (cuts : Cuts 0 source.toList lexemes)
    (derived : Derives True (.statements statements) (withoutComments lexemes)) (count : Nat) :
    AcceptedAs (insertAt 0 (List.replicate (count + 1) ';') source) statements := by
  obtain ⟨are, tokens⟩ := semicolons_replicate (count + 1)
  obtain ⟨all, cut, row⟩ := (filling_semicolons count).before 0 cuts
  have chars : (insertAt 0 (List.replicate (count + 1) ';') source).toList =
      List.replicate (count + 1) ';' ++ source.toList := by
    rw [insertAt, String.toList_ofList]
    exact insertChars_append _ [] _
  have complete : CompleteStatements statements
      (tokensOf (List.replicate (count + 1) ⟨.symbol .semicolon, nowhere⟩ ++ withoutComments lexemes)) :=
    (derived.behind_semicolons are).complete
  have same : tokensOf (withoutComments all) =
      tokensOf (List.replicate (count + 1) ⟨.symbol .semicolon, nowhere⟩ ++ withoutComments lexemes) := by
    rw [tokensOf_withoutComments, row, List.filter_append, tokens, ← tokensOf_withoutComments,
      tokensOf_append]
  rw [← chars] at cut
  rw [← same] at complete
  exact program_of_complete cut complete

end Insertion

/-- A program is accepted as the same statements with layout at either end of a token that is no comment,
and with semicolons at its start, before the first statement of a block, or behind any statement. -/
theorem program_insert {source : String} {statements : List Statement}
    (accepted : program source = .ok statements) :
    (∀ tokens, lexemes source = .ok tokens → ∀ lexeme ∈ tokens, lexeme.token.isComment = false →
      ∀ text, IsLayout text → AcceptedAs (insertAt lexeme.span.start text source) statements ∧
        AcceptedAs (insertAt lexeme.span.stop text source) statements) ∧
    ∀ place ∈ gaps statements, ∀ count,
      AcceptedAs (insertAt place (List.replicate count ';') source) statements := by
  obtain ⟨all, cuts, derived⟩ := derives_of_program accepted
  refine ⟨fun tokens cut lexeme member noComment text layout => ?_, fun place gap count => ?_⟩
  · have same : tokens = all := Except.ok.inj (cut.symm.trans (lexemes_iff_cuts.mpr cuts))
    subst same
    exact acceptedAs_layout accepted cuts derived member noComment layout
  · cases count with
    | zero => exact acceptedAs_nothing accepted
    | succ count =>
      rcases List.mem_cons.mp gap with rfl | inside
      · exact acceptedAs_first cuts derived count
      · exact acceptedAs_semicolons cuts derived (List.mem_flatMap.mp inside) count

/-- A branch with a comment behind its first token, and with semicolons in front of it. -/
theorem program_insert_branch : ∃ statements, program "if(a){b}" = .ok statements ∧
    AcceptedAs (insertAt 2 " /* c */ ".toList "if(a){b}") statements ∧
    AcceptedAs (insertAt 0 [';', ';'] "if(a){b}") statements ∧
    ∀ place ∈ gaps statements, AcceptedAs (insertAt place [';'] "if(a){b}") statements := by
  have word : ∀ (word : String) (span : Span),
      Derives False (.expression .free (.name nowhere word)) [⟨.name word, span⟩] := by
    intro word span
    have atom : Derives False (.atom .free .firm (.name nowhere word)) [⟨.name word, span⟩] :=
      .name _ nowhere word rfl fun never => never.elim
    have chain : Derives False (.chain .free .firm (.name nowhere word)) [⟨.name word, span⟩] :=
      .chain [] atom (fun _ => rfl) (List.forall_mem_nil _)
    have operand : Derives False (.operand .free .firm ⟨.name nowhere word, nowhere⟩)
        [⟨.name word, span⟩] := .operand nowhere [] (List.forall_mem_nil _) chain
    exact .plain (.operation [] (List.forall_mem_nil _) operand trivial (List.forall_mem_nil _))
  have row : ∀ sentence : Sentence, sentence.semicolons = [] →
      Derives False (.statement sentence.ending sentence.item.lead sentence.item.value)
        sentence.item.lexemes →
      Derives False (.statements [sentence.item.value]) ([] ++ [sentence].flatMap Sentence.lexemes) := by
    intro sentence none derived
    refine .statements [] [sentence] (List.forall_mem_nil _)
      (List.forall_mem_cons.mpr ⟨?_, List.forall_mem_nil _⟩) (.singleton _)
      (List.forall_mem_cons.mpr ⟨derived, List.forall_mem_nil _⟩)
    rw [none]
    exact List.forall_mem_nil _
  have inner := row ⟨.value, ⟨.free, .expression nowhere (.name nowhere "b"), [⟨.name "b", 6, 7⟩]⟩, []⟩ rfl
    (.expression nowhere (word "b" ⟨6, 7⟩) fun never => never.elim)
  have branch : Derives False (.statement .closed .keyword (.branch nowhere (.name nowhere "a")
      [.expression nowhere (.name nowhere "b")] none)) _ :=
    .branch nowhere ⟨.keyword .ifBranch, 0, 2⟩ ⟨.symbol .roundOpen, 2, 3⟩ ⟨.symbol .roundClose, 4, 5⟩
      rfl rfl rfl (word "a" ⟨3, 4⟩)
      (.block ⟨.symbol .curlyOpen, 5, 6⟩ ⟨.symbol .curlyClose, 7, 8⟩ rfl rfl inner) .nothing
      fun never => never.elim
  have whole := row ⟨.closed, ⟨.keyword, _, _⟩, []⟩ rfl branch
  have cut : lexemes "if(a){b}" = .ok [⟨.keyword .ifBranch, 0, 2⟩, ⟨.symbol .roundOpen, 2, 3⟩,
      ⟨.name "a", 3, 4⟩, ⟨.symbol .roundClose, 4, 5⟩, ⟨.symbol .curlyOpen, 5, 6⟩, ⟨.name "b", 6, 7⟩,
      ⟨.symbol .curlyClose, 7, 8⟩] := rfl
  obtain ⟨read, accepted, _⟩ := program_of_complete (lexemes_iff_cuts.mp cut) whole.complete
  obtain ⟨layout, semicolons⟩ := program_insert accepted
  have comment : IsLayout (' ' :: '/' :: '*' :: ([' ', 'c', ' '] ++ ['*', '/', ' '])) := .block (by decide)
  exact ⟨read, accepted, (layout _ cut _ (List.mem_cons_self ..) rfl _ comment).2,
    semicolons 0 (List.mem_cons_self ..) 2, fun place gap => semicolons place gap 1⟩

end ScreenStudio.Source
