/- digest: A number that is put into the text of an action is read back as the number. -/

import ScreenStudio.Proofs.Action.Composition
import ScreenStudio.Proofs.Action.ReadBack
import ScreenStudio.Proofs.Number.Printed
import ScreenStudio.Proofs.Source.Members
import ScreenStudio.Proofs.Value.Data

/-!
The text of a finite number is an optional minus sign and digits with at most one point. The scan finds one
number in the digits and stops behind them. So the text is an expression, a number or the negative of one,
and its value is the number. Behind a name and an equals sign it is the only statement of an action, and
this action stores the number under the name.
-/

set_option autoImplicit false
set_option relaxedAutoImplicit false

namespace ScreenStudio

open Number (IsPlain IsWhole isDigit ofPlainDigits display signed)

namespace Number

variable {digits : List Char}

theorem IsPlain.characters (negative : Bool) (plain : IsPlain digits) :
    ∀ c ∈ signed negative digits, isDigit c = true ∨ c = '.' ∨ c = '-' := by
  have unsigned : ∀ c ∈ digits, isDigit c = true ∨ c = '.' ∨ c = '-' := by
    intro c member
    cases plain with
    | whole start => exact .inl (start.all c member)
    | point start nonempty all =>
      rcases List.mem_append.mp member with before | behind
      · exact .inl (start.all c before)
      · rcases List.mem_cons.mp behind with point | after
        · exact .inr (.inl point)
        · exact .inl (all c after)
  cases negative with
  | false => exact unsigned
  | true => exact List.forall_mem_cons.mpr ⟨.inr (.inr rfl), unsigned⟩

theorem IsPlain.ne_nil (plain : IsPlain digits) : digits ≠ [] := by
  cases plain with
  | whole start =>
    obtain ⟨first, more, rfl, _⟩ := start
    exact List.cons_ne_nil first more
  | point => exact List.append_ne_nil_of_right_ne_nil _ (List.cons_ne_nil _ _)

end Number

namespace Source

open Nested (applyPrefix)

variable {digits : List Char}

theorem numeral_of_isPlain (plain : IsPlain digits) : Numeral digits [] := by
  have before : ∀ {whole rest : List Char}, IsWhole whole →
      (∀ c, rest.head? = some c → isDigit c = false) → Whole whole rest := by
    rintro whole rest ⟨first, more, rfl, zero, all⟩ stops
    by_cases leading : first = '0'
    · rw [zero leading, leading]
      exact .zero rest
    · refine .digits (List.cons_ne_nil first more) (fun head => ?_) all stops
      exact leading (Option.some.inj head)
  cases plain with
  | whole start => exact .whole (before start fun _ none => by cases none) fun _ _ none => by cases none
  | @point whole fraction start nonempty all =>
    refine .decimal (before start fun c head => ?_) nonempty all fun _ none => by cases none
    cases head
    rfl

theorem cuts_of_isPlain (plain : IsPlain digits) (offset : Nat) :
    Cuts offset digits [⟨.number (ofPlainDigits digits), offset, offset + byteLength digits⟩] := by
  have scan := (Scanned.number (numeral_of_isPlain plain)).scan fun unclosed => by cases unclosed.1
  have whole : Cuts offset ([] ++ (digits ++ [])) _ :=
    .token (List.forall_mem_nil _) scan (.done _ (List.forall_mem_nil _))
  rw [List.nil_append, List.append_nil] at whole
  exact whole

/-- The lexemes of a signed number. -/
def signedLexemes (negative : Bool) (digits : List Char) : List Lexeme :=
  if negative then
    [⟨.symbol .minus, 0, 1⟩, ⟨.number (ofPlainDigits digits), 1, 1 + byteLength digits⟩]
  else [⟨.number (ofPlainDigits digits), 0, byteLength digits⟩]

/-- Digits, with a minus sign or without it, are cut into the number, with the sign before it. -/
theorem lexemes_signed (negative : Bool) (plain : IsPlain digits) :
    lexemes (String.ofList (signed negative digits)) = .ok (signedLexemes negative digits) := by
  rw [lexemes_iff_cuts, String.toList_ofList]
  cases negative with
  | false =>
    have whole := cuts_of_isPlain plain 0
    rw [Nat.zero_add] at whole
    exact whole
  | true =>
    have minus : scan? (Symbol.minus.spelling ++ digits) =
        some ⟨.symbol .minus, Symbol.minus.spelling, digits⟩ :=
      scan_of_symbol .minus fun _ _ member => by cases member
    exact .token (List.forall_mem_nil _ : AreBlank []) minus (cuts_of_isPlain plain 1)

theorem isTrimmed_signed (negative : Bool) (plain : IsPlain digits) :
    Text.IsTrimmed (signed negative digits) ∧ ';' ∉ signed negative digits := by
  have apart : ∀ c ∈ signed negative digits, isSeparator c = false := by
    intro c member
    rw [Bool.eq_false_iff]
    intro separates
    rcases plain.characters negative c member with digit | rfl | rfl
    · exact nomatch digit.symm.trans (separator_no_digit c separates)
    · cases separates
    · cases separates
  refine ⟨Text.isTrimmed_of_no_blank ?_ fun c member => (Bool.or_eq_false_iff.mp (apart c member)).1,
    fun member => nomatch apart ';' member⟩
  cases negative with
  | false => exact plain.ne_nil
  | true => exact List.cons_ne_nil _ _

/-- The expression that a signed number is read as, up to its places. -/
def signedExpression (negative : Bool) (value : Float) : Expression :=
  if negative then .unary nowhere .negate (.literal nowhere (.number value))
  else .literal nowhere (.number value)

theorem expression_signed (negative : Bool) (plain : IsPlain digits) :
    ∃ read, expression (String.ofList (signed negative digits)) = .ok read ∧
      read.bare = signedExpression negative (ofPlainDigits digits) := by
  let sign : Lexeme := ⟨.symbol .minus, 0, 1⟩
  have number : ∀ span : Span, Derives False
      (.chain .free .firm (.literal nowhere (.number (ofPlainDigits digits))))
      [⟨.number (ofPlainDigits digits), span⟩] := fun span =>
    .chain [] (.literal _ nowhere _ rfl) (fun loose => by cases loose) (List.forall_mem_nil _)
  cases negative with
  | false => exact expression_of_derives (lexemes_signed false plain) (number _).alone
  | true =>
    have signed : Derives False (.operand .joining .firm
        (applyPrefix (.negate, nowhere) ⟨.literal nowhere (.number (ofPlainDigits digits)), nowhere⟩))
        (signedLexemes true digits) :=
      .operand nowhere [⟨(.negate, nowhere), sign⟩] (List.forall_mem_singleton.mpr rfl) (number _)
    have operation := Derives.operation [] (List.forall_mem_nil _) signed trivial (List.forall_mem_nil _)
    exact expression_of_derives (lexemes_signed true plain) (.plain operation)

end Source

namespace Evaluation

open Source (signedExpression)

theorem evaluate_signed (call : Caller) (scope : Scope) {negative : Bool} {value : Float}
    {read : Source.Expression} (is : read.bare = signedExpression negative value) (machine : Machine) :
    evaluate call scope read machine = (.ok (.number (if negative then -value else value)), machine) := by
  cases negative with
  | false =>
    cases read with
    | literal span literal =>
      cases is
      rfl
    | _ => cases is
  | true =>
    cases read with
    | unary span operator operand =>
      obtain ⟨_, rfl, inner⟩ := Source.Expression.unary.inj is
      cases operand with
      | literal span literal =>
        cases inner
        rfl
      | _ => cases inner
    | _ => cases is

theorem singleExpression_signed (negative : Bool) {digits : List Char} (plain : IsPlain digits) (state : Json)
    (host : Recording) :
    singleExpression (String.ofList (signed negative digits)) state host =
      (.ok (.number (if negative then -ofPlainDigits digits else ofPlainDigits digits)), host) := by
  obtain ⟨read, accepted, is⟩ := Source.expression_signed negative plain
  rw [singleExpression, accepted]
  dsimp only
  rw [evaluate_signed _ _ is]
  rfl

end Evaluation

namespace Action

open Evaluation (applyBinary singleExpression)
open Source (IsName tokensOf)

variable {key source : String}

section Names

theorem not_blank_of_wordPart {c : Char} (part : Source.isWordPart c = true) : Text.isBlank c = false := by
  rw [Bool.eq_false_iff]
  intro blank
  have separates : Source.isSeparator c = true := Bool.or_eq_true_iff.mpr (.inl blank)
  exact nomatch part.symm.trans (Source.separator_apart separates).2.1

theorem isTrimmed_name (named : IsName key) : Text.IsTrimmed key.toList := by
  obtain ⟨first, more, shape, _⟩ := named.spelled.first
  refine Text.isTrimmed_of_no_blank ?_ fun c member => not_blank_of_wordPart (named.spelled.parts c member)
  rw [shape]
  exact List.cons_ne_nil first more

/-- A name with blanks behind it is trimmed to the name, and it is a path of this one key. -/
theorem trim_name (named : IsName key) {blanks : String} (blank : ∀ c ∈ blanks.toList, Text.isBlank c = true) :
    Text.trim (key ++ blanks) = key ∧ segments? (key ++ blanks) = some [key] := by
  have trims := @Text.trim_around "" key blanks (List.forall_mem_nil _) blank (isTrimmed_name named)
  rw [String.empty_append] at trims
  have noDot : '.' ∉ (key ++ blanks).toList := by
    rw [String.toList_append]
    intro member
    rcases List.mem_append.mp member with inside | behind
    · exact absurd (named.spelled.parts '.' inside) (by decide)
    · cases blank '.' behind
  refine ⟨trims, ?_⟩
  unfold segments?
  dsimp only
  rw [Text.split_of_not_mem noDot, List.map_singleton, trims, List.any_cons, (isTrimmed_name named).isEmpty]
  rfl

theorem segments?_name (named : IsName key) : segments? key = some [key] := by
  have bare := (@trim_name key named "" (List.forall_mem_nil _)).2
  rw [String.append_empty] at bare
  exact bare

end Names

section Assignments

variable {state : Json} {value : Value} {json : Json}

theorem isTrimmed_assignment (named : IsName key) (trimmed : Text.IsTrimmed source.toList) :
    Text.IsTrimmed (key ++ " = " ++ source).toList := by
  obtain ⟨first, more, shape, _⟩ := named.spelled.first
  obtain ⟨last, ends⟩ : ∃ last, source.toList.getLast? = some last :=
    ⟨_, List.getLast?_eq_some_getLast trimmed.filled⟩
  rw [String.toList_append, String.toList_append]
  refine ⟨?_, fun c head => ?_, fun c found => ?_⟩
  · rw [shape]
    exact List.cons_ne_nil _ _
  · rw [shape] at head
    refine (isTrimmed_name named).first c ?_
    rw [shape]
    exact head
  · rw [List.getLast?_append, ends] at found
    exact trimmed.last c (ends.trans found)

theorem isStatement_assignment (named : IsName key) (trimmed : Text.IsTrimmed source.toList)
    (single : ';' ∉ source.toList) : IsStatement (key ++ " = " ++ source) := by
  have whole := isTrimmed_assignment named trimmed
  refine ⟨fun empty => whole.filled (congrArg String.toList empty), ?_, fun member => ?_⟩
  · have same := @Text.trim_around "" _ "" (List.forall_mem_nil _) (List.forall_mem_nil _) whole
    rw [String.empty_append, String.append_empty] at same
    exact same
  · rw [String.toList_append, String.toList_append] at member
    rcases List.mem_append.mp member with before | behind
    · rcases List.mem_append.mp before with inside | sign
      · exact absurd (named.spelled.parts ';' inside) (by decide)
      · exact absurd sign (by decide)
    · exact single behind

theorem splitAssignment?_assignment (named : IsName key) (trimmed : Text.IsTrimmed source.toList) :
    splitAssignment? (key ++ " = " ++ source) = some (key, source) := by
  obtain ⟨trims, path⟩ := @trim_name key named " " (List.forall_mem_singleton.mpr rfl)
  have cut := splitAssignment?_of_names path (List.forall_mem_singleton.mpr named) (" " ++ source)
  have text : key ++ " " ++ "=" ++ (" " ++ source) = key ++ " = " ++ source := by
    rw [String.append_assoc, String.append_assoc, String.append_assoc]
    rfl
  have ahead := @Text.trim_around " " source "" (List.forall_mem_singleton.mpr rfl) (List.forall_mem_nil _)
    trimmed
  rw [String.append_empty] at ahead
  rw [text, trims, ahead] at cut
  exact cut

/-- A source without blanks at its ends that is one expression for data is stored under a name by the action
that assigns it. -/
theorem execute_assignment (named : IsName key) (trimmed : Text.IsTrimmed source.toList)
    (single : ';' ∉ source.toList) (evaluated : (singleExpression source state .empty).1 = .ok value)
    (data : value.toJson = .ok json) :
    execute (key ++ " = " ++ source) state =
      ⟨.object (Dictionary.insert key json (state.entries?.getD [])), true, []⟩ := by
  have evaluates : evaluate (key ++ " = " ++ source) state = .ok ([key], json) := by
    rw [evaluate, splitAssignment?_assignment named trimmed]
    dsimp only
    rw [(isTrimmed_name named).isEmpty, trimmed.isEmpty, segments?_name named, evaluated]
    dsimp only
    rw [data]
    rfl
  have alone := isStatement_assignment named trimmed single
  rw [execute, statements_of_isStatement alone, List.foldl_cons, step, apply_of_ok evaluates]
  rfl

end Assignments

/-- A finite number is read back from its text. The text is an optional minus sign and digits that are cut
into one number; as an expression it has the number as its value in every document. Put behind a name and
an equals sign, as joining texts does it, it makes an action that succeeds and stores the data of the number
under the name. The negative zero is read back as zero. -/
theorem printed_number_reads_back {x : Float} (finite : Number.isFinite x = true) (named : IsName key) :
    (∃ (negative : Bool) (digits : List Char) (value : Float),
      display x = String.ofList (signed negative digits) ∧
        Source.lexemes (String.ofList digits) = .ok [⟨.number value, 0, Source.byteLength digits⟩] ∧
        (Source.lexemes (display x)).map tokensOf =
          .ok ((if negative then [.symbol .minus] else []) ++ [.number value]) ∧
        (if negative then -value else value) = if x = -0 then 0 else x) ∧
      (∀ state host, singleExpression (display x) state host =
        (.ok (.number (if x = -0 then 0 else x)), host)) ∧
      applyBinary .add (.text (key ++ " = ")) (.number x) = .text (key ++ " = " ++ display x) ∧
      (∀ state, execute (key ++ " = " ++ display x) state =
        ⟨.object (Dictionary.insert key (Json.ofFloat x) (state.entries?.getD [])), true, []⟩) ∧
      (x = -0 → Json.ofFloat x = .integer 0) := by
  obtain ⟨negative, digits, displayed, plain, equal⟩ := Number.display_read finite
  have evaluated : ∀ state host, singleExpression (display x) state host =
      (.ok (.number (if x = -0 then 0 else x)), host) := by
    intro state host
    rw [displayed, Evaluation.singleExpression_signed negative plain, equal]
  have zero : x = -0 → Json.ofFloat x = .integer 0 := by
    rintro rfl
    exact Json.ofFloat_of_toInt? (by decide +kernel) (Nat.two_pow_pos 53)
  refine ⟨⟨negative, digits, ofPlainDigits digits, displayed, ?_, ?_, equal⟩, evaluated, rfl,
    fun state => ?_, zero⟩
  · exact Source.lexemes_signed false plain
  · rw [displayed, Source.lexemes_signed negative plain]
    cases negative <;> rfl
  · obtain ⟨trimmed, single⟩ := Source.isTrimmed_signed negative plain
    rw [← String.toList_ofList (l := signed negative digits), ← displayed] at trimmed single
    refine execute_assignment named trimmed single (congrArg Prod.fst (evaluated state .empty)) ?_
    split
    · rename_i negativeZero
      rw [zero negativeZero]
      exact congrArg Except.ok (Json.ofFloat_of_toInt? (by decide +kernel) (Nat.two_pow_pos 53))
    · rfl

/-- A negative number that is written with fewer digits than it has. -/
theorem printed_negative_tenth_reads_back :
    let x := Float.ofBits 0xbfb999999999999a
    display x = "-0.1" ∧ (∀ host, singleExpression "-0.1" .null host = (.ok (.number x), host)) ∧
      execute "total = -0.1" .null = ⟨.object [("total", .double x)], true, []⟩ := by
  intro x
  have finite : Number.isFinite x = true := by decide +kernel
  have named : IsName "total" := by decide
  have displayed : display x = "-0.1" := by decide +kernel
  have other : x ≠ -0 := by decide +kernel
  have stored : Json.ofFloat x = .double x := by
    have part : Number.toInt? x = none := by decide +kernel
    rw [Json.ofFloat, finite, part]
    rfl
  obtain ⟨_, evaluated, _, executed, _⟩ := printed_number_reads_back finite named
  rw [displayed, if_neg other] at evaluated
  have after := executed .null
  rw [displayed, stored] at after
  exact ⟨displayed, evaluated .null, after⟩

end Action

end ScreenStudio
