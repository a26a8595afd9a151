/- digest: A token is found again when what follows it changes behind its next characters. -/

import Mathlib.Data.List.TakeWhile
import ScreenStudio.Proofs.Text.Pieces
import ScreenStudio.Source.Token

set_option autoImplicit false
set_option relaxedAutoImplicit false

namespace ScreenStudio.Source

open Number (isDigit ofPlainDigits)
open Text (run_append head_dropWhile)

/-- A character that no token goes on with: white space or a semicolon. -/
def isSeparator (c : Char) : Bool := Text.isBlank c || c == ';'

section Characters

variable {c : Char}

theorem isDigit_iff : isDigit c = true ↔ 48 ≤ c.toNat ∧ c.toNat ≤ 57 := by
  unfold isDigit
  rw [Bool.and_eq_true, decide_eq_true_eq, decide_eq_true_eq, Char.le_def, Char.le_def,
    UInt32.le_iff_toNat_le, UInt32.le_iff_toNat_le]
  rfl

theorem isAlpha_iff : c.isAlpha = true ↔
    65 ≤ c.toNat ∧ c.toNat ≤ 90 ∨ 97 ≤ c.toNat ∧ c.toNat ≤ 122 := by
  have upper : c.isUpper = true ↔ 65 ≤ c.toNat ∧ c.toNat ≤ 90 := decide_eq_true_iff
  have lower : c.isLower = true ↔ 97 ≤ c.toNat ∧ c.toNat ≤ 122 :=
    Bool.and_eq_true_iff.trans (and_congr decide_eq_true_iff decide_eq_true_iff)
  exact Bool.or_eq_true_iff.trans (or_congr upper lower)

theorem isBlank_lt_or (blank : Text.isBlank c = true) :
    c.toNat ≤ 32 ∨ 133 ≤ c.toNat := by
  unfold Text.isBlank at blank
  simp only [Bool.or_eq_true, Bool.and_eq_true, decide_eq_true_eq, beq_iff_eq] at blank
  omega

theorem separator_apart (separates : isSeparator c = true) :
    isDigit c = false ∧ isWordPart c = false ∧
      ∀ other ∈ ['.', '=', '>', '&', '|', '/', '*'], c ≠ other := by
  have code : c.toNat ≤ 32 ∨ c.toNat = 59 ∨ 133 ≤ c.toNat := by
    unfold isSeparator at separates
    rcases Bool.or_eq_true_iff.mp separates with blank | semicolon
    · have := isBlank_lt_or blank
      omega
    · rw [beq_iff_eq.mp semicolon]
      exact .inr (.inl rfl)
  refine ⟨?_, ?_, ?_⟩
  · rw [Bool.eq_false_iff]
    intro digit
    have := isDigit_iff.mp digit
    omega
  · rw [Bool.eq_false_iff]
    intro part
    have word : (c.isAlpha || c.isDigit || c == '_' || c == '$') = true := part
    simp only [Bool.or_eq_true, beq_iff_eq] at word
    rcases word with ((letter | digit) | rfl) | rfl
    · have := isAlpha_iff.mp letter
      omega
    · have : 48 ≤ c.toNat ∧ c.toNat ≤ 57 :=
        (Bool.and_eq_true_iff.mp digit).imp of_decide_eq_true of_decide_eq_true
      omega
    · revert code
      decide
    · revert code
      decide
  · intro other member same
    subst same
    revert code
    simp only [List.mem_cons, List.not_mem_nil, or_false] at member
    rcases member with rfl | rfl | rfl | rfl | rfl | rfl | rfl <;> decide

end Characters

/-- What follows a token is replaced: by what starts with a separator, or by what starts with the same
character and goes on with the same one or with a separator. -/
inductive Keeps : List Char → List Char → Prop
  | separator (rest : List Char) {c : Char} (more : List Char) (separates : isSeparator c = true) :
    Keeps rest (c :: more)
  | same (c : Char) {more later : List Char}
    (second : ∀ d, later.head? = some d → isSeparator d = true ∨ more.head? = some d) :
    Keeps (c :: more) (c :: later)

/-- What separators lack, and what the next character lacks, the new next character lacks. -/
theorem Keeps.head {p : Char → Bool} {rest after : List Char} (keeps : Keeps rest after)
    (separators : ∀ c, isSeparator c = true → p c = false)
    (stops : ∀ c, rest.head? = some c → p c = false) : ∀ c, after.head? = some c → p c = false := by
  cases keeps with
  | separator _ more separates =>
    intro c is
    cases is
    exact separators _ separates
  | same c second => exact fun d is => stops d is

section Numbers

/-- The digits of an integer without leading zero, in front of what follows them. -/
inductive Whole : List Char → List Char → Prop
  | zero (rest : List Char) : Whole ['0'] rest
  | digits {whole rest : List Char} (nonempty : whole ≠ []) (first : whole.head? ≠ some '0')
    (all : ∀ c ∈ whole, isDigit c = true) (stops : ∀ c, rest.head? = some c → isDigit c = false) :
    Whole whole rest

/-- The characters of a number, in front of what follows them. -/
inductive Numeral : List Char → List Char → Prop
  | whole {whole rest : List Char} (is : Whole whole rest)
    (noPoint : ∀ d more, rest = '.' :: d :: more → isDigit d = false) : Numeral whole rest
  | decimal {whole fraction rest : List Char} (is : Whole whole ('.' :: (fraction ++ rest)))
    (nonempty : fraction ≠ []) (all : ∀ c ∈ fraction, isDigit c = true)
    (stops : ∀ c, rest.head? = some c → isDigit c = false) : Numeral (whole ++ '.' :: fraction) rest

variable {whole rest after : List Char}

theorem separator_no_digit (c : Char) (separates : isSeparator c = true) : isDigit c = false :=
  (separator_apart separates).1

theorem Whole.again (is : Whole whole rest) (keeps : Keeps rest after) : Whole whole after := by
  cases is with
  | zero => exact .zero after
  | digits nonempty first all stops =>
    exact .digits nonempty first all (keeps.head separator_no_digit stops)

theorem Numeral.again {lexeme : List Char} (is : Numeral lexeme rest) (keeps : Keeps rest after) :
    Numeral lexeme after := by
  cases is with
  | whole is noPoint =>
    refine .whole (is.again keeps) fun d more follows => ?_
    cases keeps with
    | separator _ _ separates =>
      obtain ⟨rfl, _⟩ := List.cons.inj follows
      exact absurd rfl ((separator_apart separates).2.2 '.' (List.mem_cons_self ..))
    | same c second =>
      obtain ⟨rfl, rfl⟩ := List.cons.inj follows
      rcases second d rfl with separates | same
      · exact separator_no_digit d separates
      · obtain ⟨others, rfl⟩ := List.head?_eq_some_iff.mp same
        exact noPoint d others rfl
  | @decimal whole fraction _ is nonempty all stops =>
    have point : Keeps ('.' :: (fraction ++ rest)) ('.' :: (fraction ++ after)) := by
      refine .same '.' fun d head => .inr ?_
      obtain ⟨first, others, rfl⟩ := List.exists_cons_of_ne_nil nonempty
      exact head
    exact .decimal (is.again point) nonempty all (keeps.head separator_no_digit stops)

theorem Numeral.first {lexeme : List Char} (is : Numeral lexeme rest) :
    ∃ digit more, lexeme = digit :: more ∧ isDigit digit = true := by
  have whole : ∀ {whole behind : List Char}, Whole whole behind →
      ∃ digit more, whole = digit :: more ∧ isDigit digit = true := by
    intro whole behind digits
    cases digits with
    | zero => exact ⟨'0', [], rfl, rfl⟩
    | digits nonempty _ all =>
      obtain ⟨digit, more, rfl⟩ := List.exists_cons_of_ne_nil nonempty
      exact ⟨digit, more, rfl, all digit (List.mem_cons_self ..)⟩
  cases is with
  | whole is => exact whole is
  | decimal is =>
    obtain ⟨digit, more, rfl, held⟩ := whole is
    exact ⟨digit, _, rfl, held⟩

theorem wholeDigits_append (is : Whole whole rest) : wholeDigits (whole ++ rest) = (whole, rest) := by
  cases is with
  | zero => rfl
  | digits nonempty first all stops =>
    obtain ⟨digit, others, rfl⟩ := List.exists_cons_of_ne_nil nonempty
    obtain ⟨take, drop⟩ := run_append all stops
    have general : wholeDigits (digit :: others ++ rest) =
        ((digit :: others ++ rest).takeWhile isDigit, (digit :: others ++ rest).dropWhile isDigit) := by
      unfold wholeDigits
      split
      · rename_i same
        obtain ⟨rfl, _⟩ := List.cons.inj same
        exact absurd rfl first
      · rfl
    rw [general, take, drop]

theorem whole_of_wholeDigits {cs : List Char} (is : wholeDigits cs = (whole, rest))
    (nonempty : whole ≠ []) : cs = whole ++ rest ∧ Whole whole rest := by
  unfold wholeDigits at is
  split at is
  · obtain ⟨rfl, rfl⟩ := Prod.mk.inj is
    exact ⟨rfl, .zero _⟩
  · rename_i noZero
    obtain ⟨rfl, rfl⟩ := Prod.mk.inj is
    refine ⟨List.takeWhile_append_dropWhile.symm, .digits nonempty ?_ ?_ (head_dropWhile _ _)⟩
    · cases cs with
      | nil => exact fun same => by cases same
      | cons c rest =>
        intro same
        cases held : isDigit c with
        | true =>
          rw [List.takeWhile_cons_of_pos held] at same
          exact noZero rest (congrArg (· :: rest) (Option.some.inj same))
        | false =>
          rw [List.takeWhile_cons_of_neg (by rw [held]; exact Bool.false_ne_true)] at nonempty
          exact nonempty rfl
    · exact fun c member => List.mem_takeWhile_imp member

theorem scanNumber_of_numeral {lexeme : List Char} (is : Numeral lexeme rest) :
    scanNumber? (lexeme ++ rest) = some ⟨.number (ofPlainDigits lexeme), lexeme, rest⟩ := by
  cases is with
  | whole is noPoint =>
    unfold scanNumber?
    rw [wholeDigits_append is]
    split
    · rename_i same
      cases is with
      | zero => cases same
      | digits nonempty => exact absurd (Prod.mk.inj same).1 nonempty
    · rename_i more _ same
      obtain ⟨rfl, rfl⟩ := Prod.mk.inj same
      have none : more.takeWhile isDigit = [] := by
        cases more with
        | nil => rfl
        | cons d more =>
          exact List.takeWhile_cons_of_neg (by rw [noPoint d more rfl]; exact Bool.false_ne_true)
      rw [none]
    · rename_i same
      obtain ⟨rfl, rfl⟩ := Prod.mk.inj same
      rfl
  | @decimal whole fraction _ is nonempty all stops =>
    obtain ⟨take, drop⟩ := run_append all stops
    unfold scanNumber?
    rw [List.append_assoc, List.cons_append, wholeDigits_append is]
    split
    · rename_i same
      cases is with
      | zero => cases same
      | digits nonempty => exact absurd (Prod.mk.inj same).1 nonempty
    · rename_i more _ same
      obtain ⟨rfl, tail⟩ := Prod.mk.inj same
      obtain ⟨_, rfl⟩ := List.cons.inj tail
      rw [take, drop]
      split
      · exact absurd rfl nonempty
      · rfl
    · rename_i noPoint same
      obtain ⟨rfl, rfl⟩ := Prod.mk.inj same
      exact absurd rfl (noPoint _)

theorem numeral_of_scanNumber {cs : List Char} {found : Scan} (is : scanNumber? cs = some found) :
    cs = found.lexeme ++ found.rest ∧ Numeral found.lexeme found.rest ∧
      found.token = .number (ofPlainDigits found.lexeme) := by
  unfold scanNumber? at is
  split at is
  · cases is
  · rename_i whole more noWhole same
    obtain ⟨rfl, digits⟩ := whole_of_wholeDigits same noWhole
    split at is
    · rename_i none
      cases is
      refine ⟨rfl, .whole digits fun d others follows => ?_, rfl⟩
      obtain ⟨_, rfl⟩ := List.cons.inj follows
      cases held : isDigit d with
      | false => rfl
      | true =>
        rw [List.takeWhile_cons_of_pos held] at none
        cases none
    · rename_i nonempty
      cases is
      have split : more = more.takeWhile isDigit ++ more.dropWhile isDigit :=
        List.takeWhile_append_dropWhile.symm
      refine ⟨?_, .decimal ?_ nonempty (fun c member => List.mem_takeWhile_imp member)
        (head_dropWhile _ _), rfl⟩
      · dsimp only
        rw [List.append_assoc, List.cons_append, ← split]
      · rw [← split]
        exact digits
  · rename_i whole rest noWhole noPoint same
    obtain ⟨rfl, digits⟩ := whole_of_wholeDigits same noWhole
    cases is
    exact ⟨rfl, .whole digits fun d others follows => absurd follows (noPoint _), rfl⟩

end Numbers

section Texts

variable {quote : Char}

theorem quoteEnd_quote (plain : quote ≠ '\\') (rest : List Char) :
    quoteEnd? quote (quote :: rest) = some ([], rest) := by
  rw [quoteEnd?.eq_3 quote quote rest (fun _ _ same => absurd same plain), if_pos rfl]

theorem quoteEnd_escape (c : Char) (rest : List Char) :
    quoteEnd? quote ('\\' :: c :: rest) =
      (quoteEnd? quote rest).map (fun split => ('\\' :: c :: split.1, split.2)) := by
  rw [quoteEnd?]

theorem quoteEnd_other {c : Char} (noQuote : c ≠ quote) (noEscape : c ≠ '\\') (rest : List Char) :
    quoteEnd? quote (c :: rest) =
      (quoteEnd? quote rest).map (fun split => (c :: split.1, split.2)) := by
  rw [quoteEnd?.eq_3 quote c rest (fun _ _ same => absurd same noEscape), if_neg noQuote,
    if_neg noEscape]

/-- The characters do not close a text: every backslash has a character that it escapes, and every quote
is escaped. -/
inductive Unquoted (quote : Char) : List Char → Prop
  | nil : Unquoted quote []
  | escaped (c : Char) {more : List Char} (behind : Unquoted quote more) :
    Unquoted quote ('\\' :: c :: more)
  | plain {c : Char} {more : List Char} (noQuote : c ≠ quote) (noEscape : c ≠ '\\')
    (behind : Unquoted quote more) : Unquoted quote (c :: more)

theorem Unquoted.quoteEnd (plain : quote ≠ '\\') {raw : List Char} (is : Unquoted quote raw)
    (after : List Char) : quoteEnd? quote (raw ++ quote :: after) = some (raw, after) := by
  induction is with
  | nil => exact quoteEnd_quote plain after
  | escaped c _ ih =>
    rw [List.cons_append, List.cons_append, quoteEnd_escape, ih]
    rfl
  | plain noQuote noEscape _ ih =>
    rw [List.cons_append, quoteEnd_other noQuote noEscape, ih]
    rfl

theorem unquoted_of_quoteEnd (plain : quote ≠ '\\') {cs raw rest : List Char}
    (is : quoteEnd? quote cs = some (raw, rest)) : cs = raw ++ quote :: rest ∧ Unquoted quote raw := by
  induction cs using quoteEnd?.induct quote generalizing raw with
  | case1 => cases is
  | case2 c more ih =>
    rw [quoteEnd_escape, Option.map_eq_some_iff] at is
    obtain ⟨⟨inner, _⟩, found, same⟩ := is
    cases same
    obtain ⟨rfl, behind⟩ := ih found
    exact ⟨rfl, .escaped c behind⟩
  | case3 more noEscape =>
    rw [quoteEnd_quote plain] at is
    cases is
    exact ⟨rfl, .nil⟩
  | case4 more last noQuote =>
    rw [quoteEnd?.eq_3 quote _ more last, if_neg noQuote, if_pos rfl] at is
    cases is
  | case5 c more last noQuote noEscape ih =>
    rw [quoteEnd_other noQuote noEscape, Option.map_eq_some_iff] at is
    obtain ⟨⟨inner, _⟩, found, same⟩ := is
    cases same
    obtain ⟨rfl, behind⟩ := ih found
    exact ⟨rfl, .plain noQuote noEscape behind⟩

theorem blockEnd_again {cs inside rest : List Char} (is : blockEnd? cs = some (inside, rest)) :
    cs = inside ++ rest ∧ ∀ after, blockEnd? (inside ++ after) = some (inside, after) := by
  induction cs using blockEnd?.induct generalizing inside with
  | case1 more =>
    rw [blockEnd?] at is
    cases is
    exact ⟨rfl, fun after => by rw [List.cons_append, List.cons_append, blockEnd?]; rfl⟩
  | case2 c more last ih =>
    rw [blockEnd?.eq_2 c more last, Option.map_eq_some_iff] at is
    obtain ⟨⟨inner, _⟩, found, same⟩ := is
    cases same
    obtain ⟨rfl, again⟩ := ih found
    refine ⟨rfl, fun after => ?_⟩
    have behind : ∀ others, c = '*' → inner ++ after = '/' :: others → False := by
      intro others star same
      cases inner with
      | nil =>
        have ended := again []
        rw [List.nil_append, blockEnd?] at ended
        cases ended
      | cons d inner =>
        obtain ⟨rfl, _⟩ := List.cons.inj same
        exact last _ star rfl
    rw [List.cons_append, blockEnd?.eq_2 c _ behind, again after]
    rfl
  | case3 => cases is

end Texts

section Words

/-- The characters of a word, in front of what follows them. -/
structure Word (word rest : List Char) : Prop where
  first : ∃ c more, word = c :: more ∧ isWordStart c = true
  parts : ∀ c ∈ word, isWordPart c = true
  stops : ∀ c, rest.head? = some c → isWordPart c = false

variable {word rest after : List Char}

theorem isWordPart_of_start {c : Char} (start : isWordStart c = true) : isWordPart c = true := by
  unfold isWordStart at start
  unfold isWordPart Char.isAlphanum
  rcases Bool.or_eq_true_iff.mp start with start | dollar
  · rcases Bool.or_eq_true_iff.mp start with alpha | underscore
    · rw [alpha]
      rfl
    · rw [underscore, Bool.or_true]
      rfl
  · rw [dollar, Bool.or_true]

theorem isDigit_of_start {c : Char} (start : isWordStart c = true) : isDigit c = false := by
  rw [Bool.eq_false_iff]
  intro digit
  obtain ⟨low, high⟩ := isDigit_iff.mp digit
  have word : (c.isAlpha || c == '_' || c == '$') = true := start
  simp only [Bool.or_eq_true, beq_iff_eq] at word
  rcases word with (letter | rfl) | rfl
  · have := isAlpha_iff.mp letter
    omega
  · revert high
    decide
  · revert low
    decide

theorem Word.again (is : Word word rest) (keeps : Keeps rest after) : Word word after :=
  ⟨is.first, is.parts, keeps.head (fun _ separates => (separator_apart separates).2.1) is.stops⟩

theorem scanWord_of_word (is : Word word rest) :
    scanWord? (word ++ rest) = some ⟨.ofWord (String.ofList word), word, rest⟩ := by
  obtain ⟨⟨c, more, rfl, start⟩, parts, stops⟩ := is
  obtain ⟨take, drop⟩ := run_append (List.forall_mem_cons.mp parts).2 stops
  rw [List.cons_append, scanWord?, if_pos start, take, drop]

theorem word_of_scanWord {cs : List Char} {found : Scan} (is : scanWord? cs = some found) :
    cs = found.lexeme ++ found.rest ∧ Word found.lexeme found.rest ∧
      found.token = .ofWord (String.ofList found.lexeme) := by
  cases cs with
  | nil => cases is
  | cons c more =>
    rw [scanWord?] at is
    split at is
    · rename_i start
      cases is
      refine ⟨?_, ⟨⟨c, _, rfl, start⟩, ?_, head_dropWhile _ _⟩, rfl⟩
      · dsimp only
        rw [List.cons_append, List.takeWhile_append_dropWhile]
      · exact List.forall_mem_cons.mpr ⟨isWordPart_of_start start, fun c member =>
          List.mem_takeWhile_imp member⟩
    · cases is

end Words

section Symbols

/-- The characters that make another token of a symbol if they follow it. -/
def Symbol.extensions : Symbol → List Char
  | .assign => ['=', '>']
  | .looseEqual => ['=']
  | .not => ['=']
  | .looseNotEqual => ['=']
  | .less => ['=']
  | .greater => ['=']
  | .slash => ['/', '*']
  | _ => []

theorem separator_not_extension {c : Char} (separates : isSeparator c = true) (mark : Symbol) :
    c ∉ mark.extensions := by
  have among : mark.extensions.all (['.', '=', '>', '&', '|', '/', '*'].contains ·) = true := by
    cases mark <;> rfl
  intro member
  have listed := List.contains_iff_mem.mp (List.all_eq_true.mp among c member)
  exact (separator_apart separates).2.2 c listed rfl

private theorem scan_eq_scanSymbol {mark : Symbol} (noSlash : mark ≠ .slash) (rest : List Char) :
    scan? (mark.spelling ++ rest) = scanSymbol? (mark.spelling ++ rest) := by
  cases mark <;> first | rfl | exact absurd rfl noSlash

theorem scan_of_symbol (mark : Symbol) {rest : List Char}
    (ends : ∀ c, rest.head? = some c → c ∉ mark.extensions) :
    scan? (mark.spelling ++ rest) = some ⟨.symbol mark, mark.spelling, rest⟩ := by
  cases rest with
  | nil => cases mark <;> rfl
  | cons c more =>
    have apart : ∀ d ∈ mark.extensions, d ≠ c := by
      rintro d member rfl
      exact ends d rfl member
    clear ends
    cases mark
    case slash =>
      have none : scanComment? ('/' :: c :: more) = none := by
        unfold scanComment?
        split
        · rename_i same
          cases same
          exact absurd rfl (apart '/' (by decide))
        · rename_i same
          cases same
          exact absurd rfl (apart '*' (by decide))
        · rfl
      rw [Symbol.spelling, List.cons_append, List.nil_append, scan?, none]
      rfl
    case assign =>
      have noEqual := apart '=' (by decide)
      have noGreater := apart '>' (by decide)
      rw [scan_eq_scanSymbol (by decide)]
      simp +decide only [scanSymbol?, Symbol.all, Symbol.spelling, dropStart?, List.findSome?, noEqual,
        noGreater, if_true, if_false, List.cons_append, List.nil_append]
      rfl
    case looseEqual | less | greater | not | looseNotEqual =>
      have noEqual := apart '=' (by decide)
      rw [scan_eq_scanSymbol (by decide)]
      simp +decide only [scanSymbol?, Symbol.all, Symbol.spelling, dropStart?, List.findSome?, noEqual,
        if_true, if_false, List.cons_append, List.nil_append]
      rfl
    all_goals rfl

theorem dropStart_append {start cs rest : List Char} (is : dropStart? start cs = some rest) :
    cs = start ++ rest := by
  induction start generalizing cs with
  | nil => exact Option.some.inj is
  | cons s start ih =>
    cases cs with
    | nil => cases is
    | cons c cs =>
      rw [dropStart?] at is
      split at is
      · rename_i same
        rw [same, ih is]
        rfl
      · cases is

theorem symbol_of_scanSymbol {cs : List Char} {found : Scan} (is : scanSymbol? cs = some found) :
    ∃ mark : Symbol, found.token = .symbol mark ∧ found.lexeme = mark.spelling ∧
      cs = found.lexeme ++ found.rest := by
  obtain ⟨mark, _, is⟩ := List.exists_of_findSome?_eq_some is
  obtain ⟨rest, drops, rfl⟩ := Option.map_eq_some_iff.mp is
  exact ⟨mark, rfl, rfl, dropStart_append drops⟩

private theorem not_before_equal {mark : Symbol} (longer : Symbol) {more rest : List Char}
    (spelled : longer.spelling = mark.spelling ++ ['=']) (different : longer ≠ mark)
    (only : longer.extensions = ['=']) (is : scan? (mark.spelling ++ '=' :: more) = some ⟨.symbol mark,
      mark.spelling, rest⟩) : ∃ others, more = '=' :: others := by
  by_cases third : more.head? = some '='
  · exact List.head?_eq_some_iff.mp third
  · have ends : ∀ c, more.head? = some c → c ∉ longer.extensions := by
      intro c head member
      rw [only] at member
      exact third (List.mem_singleton.mp member ▸ head)
    have found := scan_of_symbol longer ends
    rw [spelled, List.append_assoc, List.singleton_append, is] at found
    exact absurd (Token.symbol.inj (Scan.mk.inj (Option.some.inj found)).1).symm different

/-- Where a character follows that makes another token of a symbol, the symbol is not found; a slash
before an asterisk may be. -/
theorem ends_of_scan {mark : Symbol} {rest : List Char}
    (is : scan? (mark.spelling ++ rest) = some ⟨.symbol mark, mark.spelling, rest⟩) :
    ∀ c, rest.head? = some c → c ∈ mark.extensions → mark = .slash ∧ c = '*' := by
  intro c first member
  obtain ⟨more, rfl⟩ := List.head?_eq_some_iff.mp first
  cases mark
  case assign =>
    rcases List.mem_cons.mp member with rfl | member
    · obtain ⟨others, rfl⟩ := not_before_equal .looseEqual rfl (by decide) rfl is
      cases is
    · cases List.mem_singleton.mp member
      cases is
  case not =>
    cases List.mem_singleton.mp member
    obtain ⟨others, rfl⟩ := not_before_equal .looseNotEqual rfl (by decide) rfl is
    cases is
  case slash =>
    rcases List.mem_cons.mp member with rfl | member
    · cases is
    · exact ⟨rfl, List.mem_singleton.mp member⟩
  case looseEqual | looseNotEqual | less | greater =>
    cases List.mem_singleton.mp member
    cases is
  all_goals cases member

end Symbols

/-- What the scan can find. -/
inductive Scanned : Scan → Prop
  | line {inside rest : List Char} (all : ∀ c ∈ inside, (!isLineEnd c) = true)
    (stops : ∀ c, rest.head? = some c → (!isLineEnd c) = false) :
    Scanned ⟨.comment (String.ofList ('/' :: '/' :: inside)), '/' :: '/' :: inside, rest⟩
  | block {inside : List Char} (rest : List Char)
    (ends : ∀ after, blockEnd? (inside ++ after) = some (inside, after)) :
    Scanned ⟨.comment (String.ofList ('/' :: '*' :: inside)), '/' :: '*' :: inside, rest⟩
  | number {lexeme rest : List Char} (is : Numeral lexeme rest) :
    Scanned ⟨.number (ofPlainDigits lexeme), lexeme, rest⟩
  | text {quote : Char} {raw : List Char} (rest : List Char) (mark : quote = '\'' ∨ quote = '"')
    (ends : ∀ after, quoteEnd? quote (raw ++ quote :: after) = some (raw, after)) :
    Scanned ⟨.text (String.ofList raw), quote :: (raw ++ [quote]), rest⟩
  | word {word rest : List Char} (is : Word word rest) :
    Scanned ⟨.ofWord (String.ofList word), word, rest⟩
  | symbol (mark : Symbol) {rest : List Char} (ends : ∀ c, rest.head? = some c → c ∉ mark.extensions) :
    Scanned ⟨.symbol mark, mark.spelling, rest⟩
  | unclosed (rest : List Char) : Scanned ⟨.symbol .slash, ['/'], '*' :: rest⟩

section Scans

variable {found : Scan} {cs : List Char}

/-- A slash in front of an asterisk, which opens a comment that does not end. -/
def Scan.Unclosed (found : Scan) : Prop :=
  found.token = .symbol .slash ∧ found.rest.head? = some '*'

theorem scanned_of_scanComment (is : scanComment? cs = some found) :
    cs = found.lexeme ++ found.rest ∧ Scanned found := by
  unfold scanComment? at is
  split at is
  · cases is
    refine ⟨?_, .line (fun c member => ?_) (head_dropWhile _ _)⟩
    · dsimp only
      rw [List.cons_append, List.cons_append, List.takeWhile_append_dropWhile]
    · have inside := List.mem_takeWhile_imp member
      exact inside
  · obtain ⟨⟨inside, rest⟩, split, same⟩ := Option.map_eq_some_iff.mp is
    cases same
    obtain ⟨rfl, again⟩ := blockEnd_again split
    exact ⟨rfl, .block rest again⟩
  · cases is

theorem scanned_of_scanText (is : scanText? cs = some found) :
    cs = found.lexeme ++ found.rest ∧ Scanned found := by
  cases cs with
  | nil => cases is
  | cons quote more =>
    rw [scanText?] at is
    split at is
    · rename_i marks
      obtain ⟨⟨raw, rest⟩, split, same⟩ := Option.map_eq_some_iff.mp is
      cases same
      have mark : quote = '\'' ∨ quote = '"' := by
        rcases Bool.or_eq_true_iff.mp marks with single | double
        · exact .inl (decide_eq_true_iff.mp single)
        · exact .inr (decide_eq_true_iff.mp double)
      have plain : quote ≠ '\\' := by
        rcases mark with rfl | rfl <;> decide
      obtain ⟨rfl, unquoted⟩ := unquoted_of_quoteEnd plain split
      refine ⟨?_, .text rest mark (unquoted.quoteEnd plain)⟩
      dsimp only
      rw [List.cons_append, List.append_assoc, List.singleton_append]
    · cases is

theorem scanned_of_scan (is : scan? cs = some found) :
    cs = found.lexeme ++ found.rest ∧ Scanned found := by
  have whole := is
  unfold scan? at is
  cases comment : scanComment? cs with
  | some first =>
    rw [comment] at is
    cases is
    exact scanned_of_scanComment comment
  | none =>
    rw [comment] at is
    cases number : scanNumber? cs with
    | some first =>
      rw [number] at is
      cases is
      obtain ⟨same, numeral, token⟩ := numeral_of_scanNumber number
      obtain ⟨kind, lexeme, rest⟩ := found
      dsimp only at token
      subst token
      exact ⟨same, .number numeral⟩
    | none =>
      rw [number] at is
      cases text : scanText? cs with
      | some first =>
        rw [text] at is
        cases is
        exact scanned_of_scanText text
      | none =>
        rw [text] at is
        cases word : scanWord? cs with
        | some first =>
          rw [word] at is
          cases is
          obtain ⟨same, spelled, token⟩ := word_of_scanWord word
          obtain ⟨kind, lexeme, rest⟩ := found
          dsimp only at token
          subst token
          exact ⟨same, .word spelled⟩
        | none =>
          rw [word] at is
          obtain ⟨mark, token, lexeme, same⟩ := symbol_of_scanSymbol is
          obtain ⟨kind, spelled, rest⟩ := found
          dsimp only at token lexeme
          subst token lexeme
          refine ⟨same, ?_⟩
          rw [same] at whole
          cases rest with
          | nil => exact .symbol mark fun _ none => by cases none
          | cons c more =>
            by_cases member : c ∈ mark.extensions
            · obtain ⟨rfl, rfl⟩ := ends_of_scan whole c rfl member
              exact .unclosed more
            · exact .symbol mark fun d head => Option.some.inj head ▸ member

theorem scanComment_of_first {c : Char} (different : c ≠ '/') (rest : List Char) :
    scanComment? (c :: rest) = none := by
  unfold scanComment?
  split
  · rename_i same
    exact absurd (List.cons.inj same).1 different
  · rename_i same
    exact absurd (List.cons.inj same).1 different
  · rfl

theorem scanNumber_of_first {c : Char} (different : isDigit c = false) (rest : List Char) :
    scanNumber? (c :: rest) = none := by
  cases found : scanNumber? (c :: rest) with
  | none => rfl
  | some scan =>
    obtain ⟨same, numeral, _⟩ := numeral_of_scanNumber found
    obtain ⟨digit, more, lexeme, held⟩ := numeral.first
    rw [lexeme] at same
    obtain ⟨rfl, _⟩ := List.cons.inj same
    exact nomatch different.symm.trans held

theorem Scanned.scan (scanned : Scanned found) (closed : ¬ found.Unclosed) :
    scan? (found.lexeme ++ found.rest) = some found := by
  cases scanned with
  | line all stops =>
    obtain ⟨take, drop⟩ := run_append all stops
    dsimp only
    rw [List.cons_append, List.cons_append, scan?, scanComment?, take, drop]
    rfl
  | block rest ends =>
    dsimp only
    rw [List.cons_append, List.cons_append, scan?, scanComment?, ends rest]
    rfl
  | @number lexeme rest is =>
    obtain ⟨digit, more, same, first⟩ := is.first
    have number := scanNumber_of_numeral is
    have comment : scanComment? (lexeme ++ rest) = none := by
      rw [same, List.cons_append]
      refine scanComment_of_first ?_ _
      rintro rfl
      cases first
    dsimp only
    rw [scan?, comment, number]
    rfl
  | @text quote raw rest mark ends =>
    have text : scanText? (quote :: (raw ++ quote :: rest)) =
        some ⟨.text (String.ofList raw), quote :: (raw ++ [quote]), rest⟩ := by
      rw [scanText?, ends rest]
      rcases mark with rfl | rfl <;> rfl
    have comment : scanComment? (quote :: (raw ++ quote :: rest)) = none :=
      scanComment_of_first (by rcases mark with rfl | rfl <;> decide) _
    have number : scanNumber? (quote :: (raw ++ quote :: rest)) = none :=
      scanNumber_of_first (by rcases mark with rfl | rfl <;> rfl) _
    dsimp only
    rw [List.cons_append, List.append_assoc, List.singleton_append, scan?, comment, number, text]
    rfl
  | @word word rest is =>
    obtain ⟨c, more, same, start⟩ := is.first
    have different : ∀ d : Char, isWordStart d = false → c ≠ d := by
      rintro d none rfl
      exact nomatch none.symm.trans start
    have spelled := scanWord_of_word is
    have comment : scanComment? (word ++ rest) = none := by
      rw [same, List.cons_append]
      exact scanComment_of_first (different _ (by decide)) _
    have number : scanNumber? (word ++ rest) = none := by
      rw [same, List.cons_append]
      exact scanNumber_of_first (isDigit_of_start start) _
    have text : scanText? (word ++ rest) = none := by
      rw [same, List.cons_append, scanText?, if_neg]
      rw [Bool.or_eq_true_iff, decide_eq_true_iff, decide_eq_true_iff]
      rintro (single | double)
      · exact different _ (by decide) single
      · exact different _ (by decide) double
    dsimp only
    rw [scan?, comment, number, text, spelled]
    rfl
  | symbol mark ends => exact scan_of_symbol mark ends
  | unclosed rest => exact absurd ⟨rfl, rfl⟩ closed

/-- The same token is found if what follows it is replaced by what starts alike, or by what starts with a
separator, unless it is a comment to the end of the line. -/
theorem scan_again (is : scan? cs = some found) (closed : ¬ found.Unclosed) {after : List Char}
    (keeps : Keeps found.rest after)
    (line : ∀ inside, found.lexeme = '/' :: '/' :: inside → after.head? = found.rest.head?) :
    scan? (found.lexeme ++ after) = some ⟨found.token, found.lexeme, after⟩ := by
  have still : ¬ Scan.Unclosed ⟨found.token, found.lexeme, after⟩ := by
    rintro ⟨slash, star⟩
    have noStar := keeps.head (p := (· == '*'))
      (fun c separates => beq_eq_false_iff_ne.mpr ((separator_apart separates).2.2 '*' (by decide)))
      (fun c head => beq_eq_false_iff_ne.mpr fun same => closed ⟨slash, same ▸ head⟩)
    exact nomatch noStar '*' star
  have scanned : Scanned ⟨found.token, found.lexeme, after⟩ := by
    obtain ⟨_, scanned⟩ := scanned_of_scan is
    cases scanned with
    | line all stops =>
      have same := line _ rfl
      dsimp only at same
      exact .line all fun c head => stops c (same ▸ head)
    | block rest ends => exact .block after ends
    | number numeral => exact .number (numeral.again keeps)
    | text rest mark ends => exact .text after mark ends
    | word word => exact .word (word.again keeps)
    | unclosed rest => exact absurd ⟨rfl, rfl⟩ closed
    | symbol mark ends =>
      have outside := keeps.head (p := (mark.extensions.contains ·))
        (fun d separates => Bool.eq_false_iff.mpr fun within =>
          separator_not_extension separates mark (List.contains_iff_mem.mp within))
        (fun d head => Bool.eq_false_iff.mpr fun within =>
          ends d head (List.contains_iff_mem.mp within))
      refine .symbol mark fun c head member => ?_
      exact nomatch (List.contains_iff_mem.mpr member).symm.trans (outside c head)
  exact scanned.scan still

theorem lexeme_ne_nil (is : scan? cs = some found) : found.lexeme ≠ [] := by
  obtain ⟨_, scanned⟩ := scanned_of_scan is
  cases scanned with
  | number numeral =>
    obtain ⟨_, _, rfl, _⟩ := numeral.first
    exact List.cons_ne_nil _ _
  | word word =>
    obtain ⟨_, _, rfl, _⟩ := word.first
    exact List.cons_ne_nil _ _
  | symbol mark => cases mark <;> exact List.cons_ne_nil _ _
  | _ => exact List.cons_ne_nil _ _

theorem no_blank_of_scan {c : Char} {more : List Char} (is : scan? (c :: more) = some found) :
    Text.isBlank c = false := by
  rw [Bool.eq_false_iff]
  intro blank
  have separates : isSeparator c = true := by
    unfold isSeparator
    rw [blank]
    rfl
  obtain ⟨noDigit, noPart, others⟩ := separator_apart separates
  obtain ⟨same, scanned⟩ := scanned_of_scan is
  have first : ∀ {d : Char} {later : List Char}, found.lexeme = d :: later → c = d := by
    intro d later lexeme
    rw [lexeme] at same
    exact (List.cons.inj same).1
  cases scanned with
  | line => exact others '/' (by decide) (first rfl)
  | block => exact others '/' (by decide) (first rfl)
  | unclosed => exact others '/' (by decide) (first rfl)
  | text rest mark =>
    cases first rfl
    rcases mark with rfl | rfl <;> cases blank
  | number numeral =>
    obtain ⟨digit, _, lexeme, held⟩ := numeral.first
    cases first lexeme
    exact nomatch noDigit.symm.trans held
  | word word =>
    obtain ⟨d, _, lexeme, start⟩ := word.first
    cases first lexeme
    exact nomatch noPart.symm.trans (isWordPart_of_start start)
  | symbol mark =>
    cases mark <;> cases first rfl <;> cases blank

theorem line_of_scan {inside : List Char} (is : scan? cs = some found)
    (slashes : found.lexeme = '/' :: '/' :: inside) :
    found.token.isComment = true ∧ ∀ c, found.rest.head? = some c → Text.isBlank c = true := by
  obtain ⟨_, scanned⟩ := scanned_of_scan is
  have lineEnd : ∀ c : Char, (!isLineEnd c) = false → Text.isBlank c = true := by
    intro c ends
    rw [Bool.not_eq_false'] at ends
    unfold isLineEnd at ends
    simp only [Bool.or_eq_true, beq_iff_eq] at ends
    rcases ends with (((((rfl | rfl) | rfl) | rfl) | rfl) | rfl) | rfl <;> rfl
  cases scanned with
  | line all stops => exact ⟨rfl, fun c head => lineEnd c (stops c head)⟩
  | block => cases (List.cons.inj (List.cons.inj slashes).2).1
  | unclosed => cases slashes
  | text rest mark =>
    cases (List.cons.inj slashes).1
    rcases mark with same | same <;> cases same
  | number numeral =>
    obtain ⟨digit, _, lexeme, held⟩ := numeral.first
    cases (List.cons.inj (lexeme.symm.trans slashes)).1
    cases held
  | word word =>
    obtain ⟨d, _, lexeme, start⟩ := word.first
    cases (List.cons.inj (lexeme.symm.trans slashes)).1
    cases start
  | symbol mark => cases mark <;> cases slashes

end Scans

end ScreenStudio.Source
