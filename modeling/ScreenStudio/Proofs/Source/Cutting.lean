/- digest: How a text is cut into tokens, and what becomes of them when something is put between. -/

import ScreenStudio.Proofs.Source.Derivation
import ScreenStudio.Proofs.Source.Ending
import ScreenStudio.Proofs.Source.Scanning

set_option autoImplicit false
set_option relaxedAutoImplicit false

namespace ScreenStudio.Source

theorem byteLength_append (first second : List Char) :
    byteLength (first ++ second) = byteLength first + byteLength second := by
  induction first with
  | nil => exact (Nat.zero_add _).symm
  | cons c rest ih =>
    show c.utf8Size + byteLength (rest ++ second) = _
    rw [ih, ← Nat.add_assoc]
    rfl

theorem byteLength_pos {cs : List Char} (nonempty : cs ≠ []) : 0 < byteLength cs := by
  obtain ⟨c, rest, rfl⟩ := List.exists_cons_of_ne_nil nonempty
  exact Nat.add_pos_left c.utf8Size_pos _

/-- All of the characters are white space. -/
def AreBlank (cs : List Char) : Prop := ∀ c ∈ cs, Text.isBlank c = true

/-- The characters, which start at the offset, are cut into the lexemes. -/
inductive Cuts : Nat → List Char → List Lexeme → Prop
  | done (offset : Nat) {blanks : List Char} (blank : AreBlank blanks) : Cuts offset blanks []
  | token {offset : Nat} {blanks lexeme rest : List Char} {token : Token} {lexemes : List Lexeme}
    (blank : AreBlank blanks) (is : scan? (lexeme ++ rest) = some ⟨token, lexeme, rest⟩)
    (others : Cuts (offset + byteLength blanks + byteLength lexeme) rest lexemes) :
    Cuts offset (blanks ++ (lexeme ++ rest))
      (⟨token, offset + byteLength blanks, offset + byteLength blanks + byteLength lexeme⟩ :: lexemes)

theorem head_of_scan {token : Token} {lexeme rest : List Char}
    (is : scan? (lexeme ++ rest) = some ⟨token, lexeme, rest⟩) :
    ∀ c, (lexeme ++ rest).head? = some c → Text.isBlank c = false := by
  obtain ⟨d, more, rfl⟩ := List.exists_cons_of_ne_nil (lexeme_ne_nil is)
  exact fun c head => Option.some.inj head ▸ no_blank_of_scan is

section Lexemes

variable {offset : Nat} {cs : List Char} {lexemes : List Lexeme}

theorem cuts_of_lexemesFrom {fuel : Nat} {unclosed : Bool}
    (is : lexemesFrom fuel unclosed offset cs = .ok lexemes) : Cuts offset cs lexemes := by
  induction fuel generalizing unclosed offset cs lexemes with
  | zero => cases is
  | succ fuel ih =>
    have split : cs = cs.takeWhile Text.isBlank ++ cs.dropWhile Text.isBlank :=
      List.takeWhile_append_dropWhile.symm
    have blank : AreBlank (cs.takeWhile Text.isBlank) := fun c member => List.mem_takeWhile_imp member
    rw [lexemesFrom] at is
    generalize cs.takeWhile Text.isBlank = blanks at split blank is
    generalize cs.dropWhile Text.isBlank = body at split is
    subst split
    cases body with
    | nil =>
      cases is
      rw [List.append_nil]
      exact .done offset blank
    | cons c more =>
      dsimp only at is
      cases scan : scan? (c :: more) with
      | none =>
        rw [scan] at is
        cases is
      | some found =>
        rw [scan] at is
        dsimp only at is
        split at is
        · cases is
        · rename_i others rest
          cases is
          have same := (scanned_of_scan scan).1
          rw [same] at scan ⊢
          exact .token blank scan (ih rest)

theorem lexemesFrom_of_cuts (cuts : Cuts offset cs lexemes) (unclosed : Bool) {fuel : Nat}
    (enough : cs.length < fuel) : lexemesFrom fuel unclosed offset cs = .ok lexemes := by
  induction cuts generalizing unclosed fuel with
  | @done offset blanks blank =>
    obtain ⟨fuel, rfl⟩ := Nat.exists_eq_add_one_of_ne_zero (Nat.ne_zero_of_lt enough)
    have all : blanks.dropWhile Text.isBlank = [] := List.dropWhile_eq_nil_iff.mpr blank
    rw [lexemesFrom]
    dsimp only
    rw [all]
  | @token offset blanks lexeme rest token lexemes blank is others ih =>
    obtain ⟨fuel, rfl⟩ := Nat.exists_eq_add_one_of_ne_zero (Nat.ne_zero_of_lt enough)
    obtain ⟨c, more, rfl⟩ := List.exists_cons_of_ne_nil (lexeme_ne_nil is)
    obtain ⟨take, drop⟩ := Text.run_append blank (head_of_scan is)
    have fits : rest.length < fuel := by
      simp only [List.length_append, List.length_cons] at enough
      omega
    rw [lexemesFrom]
    dsimp only
    rw [take, drop]
    rw [List.cons_append] at is ⊢
    dsimp only
    rw [is]
    dsimp only
    rw [ih _ fits]

theorem lexemes_iff_cuts {source : String} :
    Source.lexemes source = .ok lexemes ↔ Cuts 0 source.toList lexemes :=
  ⟨cuts_of_lexemesFrom, fun cuts => lexemesFrom_of_cuts cuts false (Nat.lt_succ_self _)⟩

end Lexemes

section Places

variable {offset : Nat} {cs : List Char} {lexemes : List Lexeme}

theorem Cuts.shift (cuts : Cuts offset cs lexemes) (other : Nat) :
    ∃ moved, Cuts other cs moved ∧ tokensOf moved = tokensOf lexemes := by
  induction cuts generalizing other with
  | done offset blank => exact ⟨[], .done other blank, rfl⟩
  | token blank is others ih =>
    obtain ⟨moved, cuts, same⟩ := ih _
    exact ⟨_, .token blank is cuts, congrArg (List.cons _) same⟩

theorem Cuts.behind_blanks {blanks : List Char} (blank : AreBlank blanks)
    (cuts : Cuts (offset + byteLength blanks) cs lexemes) : Cuts offset (blanks ++ cs) lexemes := by
  have both : ∀ {more : List Char}, AreBlank more → AreBlank (blanks ++ more) :=
    fun also c member => (List.mem_append.mp member).elim (blank c) (also c)
  generalize start : offset + byteLength blanks = place at cuts
  cases cuts with
  | done _ also => exact .done offset (both also)
  | @token _ more lexeme rest token others also is cuts =>
    subst start
    have ahead : byteLength (blanks ++ more) = byteLength blanks + byteLength more :=
      byteLength_append _ _
    rw [Nat.add_assoc offset, ← ahead] at cuts ⊢
    rw [← List.append_assoc]
    exact .token (both also) is cuts

theorem Cuts.of_nil (cuts : Cuts offset [] lexemes) : lexemes = [] := by
  generalize whole : [] = cs at cuts
  cases cuts with
  | done => rfl
  | token blank is =>
    obtain ⟨_, empty⟩ := List.append_eq_nil_iff.mp whole.symm
    exact absurd (List.append_eq_nil_iff.mp empty).1 (lexeme_ne_nil is)

/-- The lexemes of a text lie behind its start, one behind the other. -/
structure InOrder (offset : Nat) (lexemes : List Lexeme) : Prop where
  behind : ∀ lexeme ∈ lexemes, offset ≤ lexeme.span.start
  nonempty : ∀ lexeme ∈ lexemes, lexeme.span.start < lexeme.span.stop
  ascending : lexemes.Pairwise (fun one two => one.span.stop ≤ two.span.start)

theorem Cuts.inOrder (cuts : Cuts offset cs lexemes) : InOrder offset lexemes := by
  induction cuts with
  | done => exact ⟨List.forall_mem_nil _, List.forall_mem_nil _, .nil⟩
  | token blank is others ih =>
    have positive := byteLength_pos (lexeme_ne_nil is)
    refine ⟨List.forall_mem_cons.mpr ⟨Nat.le_add_right _ _, fun lexeme member => ?_⟩,
      List.forall_mem_cons.mpr ⟨Nat.lt_add_of_pos_right positive, ih.nonempty⟩,
      List.pairwise_cons.mpr ⟨ih.behind, ih.ascending⟩⟩
    have := ih.behind lexeme member
    omega

theorem InOrder.stop_lt {place : Nat} (order : InOrder offset lexemes) (before : place ≤ offset)
    {lexeme : Lexeme} (member : lexeme ∈ lexemes) : place < lexeme.span.stop := by
  have := order.behind lexeme member
  have := order.nonempty lexeme member
  omega

variable {place : Nat}

theorem filter_of_ended (early : ∀ lexeme ∈ lexemes, lexeme.span.stop ≤ place) :
    lexemes.filter (fun lexeme => decide (lexeme.span.stop ≤ place)) = lexemes ∧
      lexemes.filter (fun lexeme => !decide (lexeme.span.stop ≤ place)) = [] := by
  refine ⟨List.filter_eq_self.mpr fun lexeme member => ?_,
    List.filter_eq_nil_iff.mpr fun lexeme member => ?_⟩
  · exact decide_eq_true (early lexeme member)
  · rw [decide_eq_true (early lexeme member)]
    exact Bool.false_ne_true

theorem filter_of_lasting (late : ∀ lexeme ∈ lexemes, place < lexeme.span.stop) :
    lexemes.filter (fun lexeme => decide (lexeme.span.stop ≤ place)) = [] ∧
      lexemes.filter (fun lexeme => !decide (lexeme.span.stop ≤ place)) = lexemes := by
  have lasting : ∀ lexeme ∈ lexemes, decide (lexeme.span.stop ≤ place) = false :=
    fun lexeme member => decide_eq_false (Nat.not_le_of_gt (late lexeme member))
  refine ⟨List.filter_eq_nil_iff.mpr fun lexeme member => ?_,
    List.filter_eq_self.mpr fun lexeme member => ?_⟩
  · rw [lasting lexeme member]
    exact Bool.false_ne_true
  · rw [lasting lexeme member]
    rfl

theorem filter_cons_of_ended {first : Lexeme} (lexemes : List Lexeme) (early : first.span.stop ≤ place) :
    (first :: lexemes).filter (fun lexeme => decide (lexeme.span.stop ≤ place)) =
        first :: lexemes.filter (fun lexeme => decide (lexeme.span.stop ≤ place)) ∧
      (first :: lexemes).filter (fun lexeme => !decide (lexeme.span.stop ≤ place)) =
        lexemes.filter (fun lexeme => !decide (lexeme.span.stop ≤ place)) := by
  have held : decide (first.span.stop ≤ place) = true := decide_eq_true early
  refine ⟨List.filter_cons_of_pos held, List.filter_cons_of_neg ?_⟩
  rw [held]
  exact Bool.false_ne_true

end Places

/-- Every slash stands before a token with which an expression can begin. -/
def Signed : List Token → Prop
  | [] => True
  | token :: rest =>
    (token = .symbol .slash → ∃ next more, rest = next :: more ∧ next.begins = true) ∧ Signed rest

theorem signed_append {first second : List Token} (one : Signed first) (two : Signed second) :
    Signed (first ++ second) := by
  induction first with
  | nil => exact two
  | cons token rest ih =>
    refine ⟨fun slash => ?_, ih one.2⟩
    obtain ⟨next, more, rfl, begins⟩ := one.1 slash
    exact ⟨next, more ++ second, rfl, begins⟩

/-- The lexemes that are no comments. -/
def withoutComments (lexemes : List Lexeme) : List Lexeme :=
  lexemes.filter (fun lexeme => !lexeme.token.isComment)

/-- What can be put between tokens: it starts with a separator and is cut into the tokens in front of any
text. -/
structure Filling (text : List Char) (tokens : List Token) : Prop where
  separates : ∃ c more, text = c :: more ∧ isSeparator c = true
  cuts : ∀ {offset : Nat} {rest : List Char} {lexemes : List Lexeme},
    Cuts (offset + byteLength text) rest lexemes →
    ∃ own, Cuts offset (text ++ rest) (own ++ lexemes) ∧ tokensOf own = tokens

section Insertion

variable {text : List Char} {tokens : List Token}

theorem Filling.before (filling : Filling text tokens) (other : Nat) {offset : Nat} {rest : List Char}
    {lexemes : List Lexeme} (cuts : Cuts offset rest lexemes) :
    ∃ all, Cuts other (text ++ rest) all ∧ tokensOf all = tokens ++ tokensOf lexemes := by
  obtain ⟨moved, shifted, same⟩ := cuts.shift (other + byteLength text)
  obtain ⟨own, whole, are⟩ := filling.cuts shifted
  refine ⟨own ++ moved, whole, ?_⟩
  unfold tokensOf at are same ⊢
  rw [List.map_append, are, same]

/-- What follows a token starts alike if something is put in behind its beginning, or in its place. -/
theorem Filling.keeps (filling : Filling text tokens) (front back : List Char) :
    Keeps (front ++ back) (front ++ (text ++ back)) := by
  obtain ⟨c, more, rfl, separates⟩ := filling.separates
  cases front with
  | nil => exact .separator _ _ separates
  | cons d front =>
    refine .same d fun e head => ?_
    cases front with
    | nil =>
      cases head
      exact .inl separates
    | cons other front => exact .inr head

private theorem closed_of_signed {offset : Nat} {token : Token} {lexeme rest : List Char}
    {lexemes : List Lexeme} {span : Span} (others : Cuts offset rest lexemes)
    (signed : Signed (tokensOf (withoutComments (⟨token, span⟩ :: lexemes)))) :
    ¬ Scan.Unclosed ⟨token, lexeme, rest⟩ := by
  rintro ⟨slash, star⟩
  dsimp only at slash star
  subst slash
  obtain ⟨more, rfl⟩ := List.head?_eq_some_iff.mp star
  obtain ⟨next, later, is, begins⟩ := signed.1 rfl
  have asterisk : scan? ('*' :: more) = some ⟨.symbol .asterisk, ['*'], more⟩ :=
    scan_of_symbol .asterisk fun _ _ member => by cases member
  generalize whole : '*' :: more = cs at others
  cases others with
  | done _ blank =>
    subst whole
    cases blank '*' (List.mem_cons_self ..)
  | @token _ blanks lexeme rest token lexemes blank found =>
    cases blanks with
    | cons c blanks =>
      obtain ⟨rfl, _⟩ := List.cons.inj whole
      cases blank '*' (List.mem_cons_self ..)
    | nil =>
      rw [List.nil_append] at whole
      rw [← whole, asterisk] at found
      cases found
      cases is
      cases begins

private theorem Signed.tail {first : Lexeme} {lexemes : List Lexeme}
    (signed : Signed (tokensOf (withoutComments (first :: lexemes)))) :
    Signed (tokensOf (withoutComments lexemes)) := by
  unfold withoutComments at signed ⊢
  rw [List.filter_cons] at signed
  split at signed
  · exact signed.2
  · exact signed

theorem Cuts.insert {offset : Nat} {cs : List Char} {lexemes : List Lexeme}
    (cuts : Cuts offset cs lexemes) (filling : Filling text tokens)
    (signed : Signed (tokensOf (withoutComments lexemes))) {target : Lexeme} (member : target ∈ lexemes)
    (noComment : target.token.isComment = false) {place : Nat}
    (here : place = target.span.start ∨ place = target.span.stop) :
    ∃ front back all, cs = front ++ back ∧ offset + byteLength front = place ∧
      (front = [] → ∀ c, back.head? = some c → Text.isBlank c = false) ∧
      Cuts offset (front ++ (text ++ back)) all ∧
      tokensOf all = tokensOf (lexemes.filter (fun lexeme => decide (lexeme.span.stop ≤ place))) ++
        (tokens ++ tokensOf (lexemes.filter (fun lexeme => !decide (lexeme.span.stop ≤ place)))) := by
  induction cuts with
  | done => cases member
  | @token offset blanks lexeme rest token lexemes blank is others ih =>
    have nonempty : lexeme ≠ [] := lexeme_ne_nil is
    have closed : ¬ Scan.Unclosed ⟨token, lexeme, rest⟩ := closed_of_signed others signed
    let head : Lexeme :=
      ⟨token, offset + byteLength blanks, offset + byteLength blanks + byteLength lexeme⟩
    rcases List.mem_cons.mp member with rfl | among
    · rcases here with rfl | rfl
      · -- in front of the first token
        have own : Cuts (offset + byteLength blanks) ([] ++ (lexeme ++ rest)) (head :: lexemes) :=
          .token (fun _ none => by cases none) is others
        obtain ⟨all, whole, are⟩ := filling.before (offset + byteLength blanks) own
        obtain ⟨none, every⟩ := filter_of_lasting fun _ => own.inOrder.stop_lt (Nat.le_refl _)
        refine ⟨blanks, _, all, rfl, rfl, fun _ => head_of_scan is, whole.behind_blanks blank, ?_⟩
        rw [are, none, every]
        rfl
      · -- behind the first token, which is read as before
        obtain ⟨all, whole, are⟩ := filling.before _ others
        have again := scan_again is closed (filling.keeps [] rest) fun inside slashes =>
          nomatch noComment.symm.trans (line_of_scan is slashes).1
        obtain ⟨own, behind⟩ := filter_cons_of_ended lexemes (Nat.le_refl head.span.stop)
        obtain ⟨none, every⟩ := filter_of_lasting fun _ => others.inOrder.stop_lt (Nat.le_refl _)
        refine ⟨blanks ++ lexeme, rest, head :: all, (List.append_assoc _ _ _).symm, ?_, ?_, ?_, ?_⟩
        · rw [byteLength_append, Nat.add_assoc]
        · exact fun empty => absurd (List.append_eq_nil_iff.mp empty).2 nonempty
        · rw [List.append_assoc]
          exact .token blank again whole
        · rw [tokensOf_cons, are, own, behind, none, every]
          rfl
    · obtain ⟨front, back, all, rfl, reached, first, whole, are⟩ := ih signed.tail among
      -- a comment in front ends as before, since its line does
      have again := scan_again is closed (filling.keeps front back) fun inside slashes => by
        cases front with
        | cons c front => rfl
        | nil =>
          have blank := (line_of_scan is slashes).2
          cases back with
          | cons c back => exact nomatch (blank c rfl).symm.trans (first rfl c rfl)
          | nil => exact absurd among (others.of_nil ▸ List.not_mem_nil)
      have ended : head.span.stop ≤ place := reached ▸ Nat.le_add_right _ _
      obtain ⟨own, behind⟩ := filter_cons_of_ended lexemes ended
      refine ⟨blanks ++ (lexeme ++ front), back, head :: all, ?_, ?_, ?_, ?_, ?_⟩
      · simp only [List.append_assoc]
      · rw [byteLength_append, byteLength_append, ← reached]
        omega
      · intro empty
        exact absurd (List.append_eq_nil_iff.mp (List.append_eq_nil_iff.mp empty).2).1 nonempty
      · rw [List.append_assoc, List.append_assoc]
        exact .token blank again whole
      · rw [tokensOf_cons, are, own, behind]
        rfl

end Insertion

end ScreenStudio.Source
