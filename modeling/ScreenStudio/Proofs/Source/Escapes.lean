/- digest: Between quotes every escape is resolved once, and an escaped text is read as itself. -/

import ScreenStudio.Proofs.Source.Template
import ScreenStudio.Proofs.Source.Tiling

/-!
What stands between quotes is a row of glyphs: a glyph is a character that is no backslash, or a backslash with
the character that it escapes. The scan for the closing quote, the resolution of the escapes and the search for
an escape without a character all go from glyph to glyph, so they pair the backslashes in the same way. The
escapes of a quoted name are made to be resolved into the name.
-/

set_option autoImplicit false
set_option relaxedAutoImplicit false

namespace ScreenStudio.Source

/-- A character as it stands between quotes: as it is, or escaped. -/
inductive Glyph
  | plain (c : Char) (bare : c ≠ '\\')
  | escaped (c : Char)

namespace Glyph

def spelling : Glyph → List Char
  | .plain c _ => [c]
  | .escaped c => ['\\', c]

/-- The character that is meant: some letters stand for characters that cannot be seen. -/
def meaning : Glyph → Char
  | .plain c _ => c
  | .escaped c =>
    match c with
    | 'n' => '\n'
    | 't' => '\t'
    | 'r' => '\r'
    | '0' => '\x00'
    | other => other

/-- The characters of a row of glyphs. -/
def write (row : List Glyph) : List Char := row.flatMap spelling

theorem write_plain {c : Char} (bare : c ≠ '\\') (row : List Glyph) :
    write (.plain c bare :: row) = c :: write row := rfl

theorem write_escaped (c : Char) (row : List Glyph) :
    write (.escaped c :: row) = '\\' :: c :: write row := rfl

theorem write_injective : Function.Injective write := by
  intro one other same
  induction one generalizing other with
  | nil =>
    cases other with
    | nil => rfl
    | cons glyph rest => cases glyph <;> cases same
  | cons first rest ih =>
    cases other with
    | nil => cases first <;> cases same
    | cons second rest' =>
      cases first with
      | plain c bare =>
        cases second with
        | plain d bare' =>
          obtain ⟨rfl, behind⟩ := List.cons.inj same
          rw [ih behind]
        | escaped d => exact absurd (List.cons.inj same).1 bare
      | escaped c =>
        cases second with
        | plain d bare' => exact absurd (List.cons.inj same).1.symm bare'
        | escaped d =>
          obtain ⟨rfl, behind⟩ := List.cons.inj (List.cons.inj same).2
          rw [ih behind]

theorem unescape_write (row : List Glyph) : unescape (write row) = row.map meaning := by
  induction row with
  | nil => rfl
  | cons glyph rest ih =>
    cases glyph with
    | plain c bare =>
      rw [write_plain, unescape_plain bare, ih]
      rfl
    | escaped c =>
      show (escaped c).meaning :: unescape (write rest) = _
      rw [ih]
      rfl

theorem endsInEscape_write (row : List Glyph) : endsInEscape (write row) = false := by
  induction row with
  | nil => rfl
  | cons glyph rest ih =>
    cases glyph with
    | plain c bare =>
      rw [write_plain, endsInEscape.eq_4 c (write rest) (fun same _ => bare same)
        (fun _ _ same _ => bare same)]
      exact ih
    | escaped c =>
      rw [write_escaped, endsInEscape]
      exact ih

end Glyph

section Rows

variable {quote : Char}

theorem exists_glyphs_of_unquoted {raw : List Char} (is : Unquoted quote raw) :
    ∃ row, raw = Glyph.write row ∧ ∀ glyph ∈ row, glyph.spelling ≠ [quote] := by
  induction is with
  | nil => exact ⟨[], rfl, List.forall_mem_nil _⟩
  | escaped c _ ih =>
    obtain ⟨row, rfl, none⟩ := ih
    have pair : (Glyph.escaped c).spelling ≠ [quote] := by
      intro same
      cases same
    exact ⟨.escaped c :: row, rfl, List.forall_mem_cons.mpr ⟨pair, none⟩⟩
  | @plain c _ noQuote noEscape _ ih =>
    obtain ⟨row, rfl, none⟩ := ih
    exact ⟨.plain c noEscape :: row, rfl,
      List.forall_mem_cons.mpr ⟨fun same => noQuote (List.cons.inj same).1, none⟩⟩

/-- A text token stands between two quotes of one kind, and between them a row of glyphs. -/
theorem exists_glyphs_of_scan {cs lexeme rest : List Char} {raw : String}
    (is : scan? cs = some ⟨.text raw, lexeme, rest⟩) :
    ∃ quote row, (quote = '\'' ∨ quote = '"') ∧ lexeme = quote :: (raw.toList ++ [quote]) ∧
      raw.toList = Glyph.write row ∧ ∀ glyph ∈ row, glyph.spelling ≠ [quote] := by
  obtain ⟨_, scanned⟩ := scanned_of_scan is
  generalize token : Token.text raw = kind at scanned
  cases scanned with
  | @text quote raw' _ mark ends =>
    cases token
    have plain : quote ≠ '\\' := by
      rcases mark with rfl | rfl <;> decide
    obtain ⟨row, rfl, none⟩ := exists_glyphs_of_unquoted (unquoted_of_quoteEnd plain (ends [])).2
    rw [String.toList_ofList]
    exact ⟨quote, row, mark, rfl, rfl, none⟩
  | word =>
    rw [Token.ofWord] at token
    split at token <;> cases token
  | line | block | number | symbol | unclosed => cases token

end Rows

section Quotations

/-- A text in single quotes, escaped as the name in a template is. -/
def quotation (text : String) : String := "'" ++ Screen.quotedName text ++ "'"

theorem toList_quotation (text : String) :
    (quotation text).toList = '\'' :: (escape text.toList ++ ['\'']) := by
  rw [quotation, String.toList_append, String.toList_append, toList_quotedName]
  rfl

theorem quoted_eq (text : String) : quoted text = .text (Screen.quotedName text) := by
  rw [quoted, ← toList_quotedName, String.ofList_toList]

theorem lexemes_quotation (text : String) :
    lexemes (quotation text) = .ok [⟨quoted text, 0, byteLength (quotation text).toList⟩] := by
  have scanned : Scanned ⟨quoted text, (quotation text).toList, []⟩ := by
    rw [toList_quotation]
    exact .text [] (.inl rfl) (quoteEnd_escape_append text.toList)
  have whole := lexemes_alone (scanned.scan fun unclosed => by cases unclosed.1)
  rw [String.ofList_toList] at whole
  exact whole

theorem programOfLexemes_text (length : Nat) (raw : String) (span : Span) :
    programOfLexemes length [⟨.text raw, span⟩] =
      .ok [.expression span (.literal span (.text (unescapeText raw)))] := rfl

theorem expression_quotation (text : String) :
    expression (quotation text) =
      .ok (.literal ⟨0, byteLength (quotation text).toList⟩ (.text text)) := by
  have accepted : program (quotation text) = .ok [.expression ⟨0, byteLength (quotation text).toList⟩
      (.literal ⟨0, byteLength (quotation text).toList⟩ (.text text))] := by
    rw [program, lexemes_quotation]
    show Except.mapError _ (programOfLexemes _ [⟨quoted text, _⟩]) = _
    rw [quoted, programOfLexemes_text, unescapeText_quoted]
    rfl
  rw [expression, accepted]
  rfl

end Quotations

/-- Texts decode what was escaped. A text that is quoted like a name in a template is cut into one token,
which covers it, and is read as itself. Every text token of an accepted source stands between two quotes of
one kind, its content is in one way a row of glyphs, of which none is a quote, so that no backslash is left
over at its end, and what it is read as are the meanings of the glyphs in order. -/
theorem texts_decode_what_was_escaped :
    (∀ text : String,
      lexemes (quotation text) =
          .ok [⟨.text (Screen.quotedName text), 0, byteLength (quotation text).toList⟩] ∧
        expression (quotation text) =
          .ok (.literal ⟨0, byteLength (quotation text).toList⟩ (.text text))) ∧
      ∀ (source : String) (all : List Lexeme), lexemes source = .ok all →
        ∀ lexeme ∈ all, ∀ raw, lexeme.token = .text raw →
          ∃ quote row, (quote = '\'' ∨ quote = '"') ∧
            Span.Cutout 0 source.toList lexeme.span (quote :: (raw.toList ++ [quote])) ∧
            (∀ glyph ∈ row, glyph.spelling ≠ [quote]) ∧
            (∀ other, raw.toList = Glyph.write other ↔ other = row) ∧
            endsInEscape raw.toList = false ∧
            unescapeText raw = String.ofList (row.map Glyph.meaning) := by
  refine ⟨fun text => ⟨?_, expression_quotation text⟩, fun source all cut lexeme member raw token => ?_⟩
  · rw [← quoted_eq]
    exact lexemes_quotation text
  · obtain ⟨slice, rest, cutout, is⟩ := (lexemes_iff_cuts.mp cut).scanned lexeme member
    rw [token] at is
    obtain ⟨quote, row, mark, rfl, content, none⟩ := exists_glyphs_of_scan is
    have own (other : List Glyph) : raw.toList = Glyph.write other ↔ other = row := by
      rw [content, Glyph.write_injective.eq_iff, eq_comm]
    refine ⟨quote, row, mark, cutout, none, own, ?_, ?_⟩
    · rw [content]
      exact Glyph.endsInEscape_write row
    · rw [unescapeText, content, Glyph.unescape_write]

/-- Backslashes are paired from the left: behind an escaped backslash the letter is a letter. -/
theorem backslashes_pair_from_left :
    ∃ all, lexemes "'\\'' + \"\\\\n\"" = .ok all ∧
      ⟨.text "\\\\n", 7, 12⟩ ∈ all ∧ endsInEscape "\\\\n".toList = false ∧
      (∀ row, "\\\\n".toList = Glyph.write row ↔ row = [.escaped '\\', .plain 'n' (by decide)]) ∧
      unescapeText "\\\\n" = "\\n" := by
  have cut : lexemes "'\\'' + \"\\\\n\"" =
      .ok [⟨.text "\\'", 0, 4⟩, ⟨.symbol .plus, 5, 6⟩, ⟨.text "\\\\n", 7, 12⟩] := rfl
  have member : (⟨.text "\\\\n", 7, 12⟩ : Lexeme) ∈
      [⟨.text "\\'", 0, 4⟩, ⟨.symbol .plus, 5, 6⟩, ⟨.text "\\\\n", 7, 12⟩] :=
    List.mem_of_getElem? (i := 2) rfl
  obtain ⟨_, row, _, _, _, own, whole, meant⟩ := texts_decode_what_was_escaped.2 _ _ cut _ member _ rfl
  cases (own [.escaped '\\', .plain 'n' (by decide)]).mp rfl
  exact ⟨_, cut, member, whole, own, meant⟩

end ScreenStudio.Source
