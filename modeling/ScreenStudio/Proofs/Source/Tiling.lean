/- digest: The tokens of a text cover it without gaps and without overlaps, up to white space. -/

import ScreenStudio.Proofs.Source.Cutting

/-!
What the scan finds in front of some characters it finds in front of nothing too: a token does not need what
follows it. So the characters under each lexeme of a text are cut into this one token alone. The lexemes
stand in the text one behind the other, and a character that is under none of them is white space.
-/

set_option autoImplicit false
set_option relaxedAutoImplicit false

namespace ScreenStudio.Source

section Alone

variable {whole rest cs : List Char} {found : Scan}

theorem Whole.alone (is : Whole whole rest) : Whole whole [] := by
  cases is with
  | zero => exact .zero []
  | digits nonempty first all => exact .digits nonempty first all fun _ none => by cases none

theorem Numeral.alone {lexeme : List Char} (is : Numeral lexeme rest) : Numeral lexeme [] := by
  cases is with
  | whole is => exact .whole is.alone fun _ _ none => by cases none
  | @decimal whole fraction _ is nonempty all =>
    have before : Whole whole ('.' :: (fraction ++ [])) := by
      cases is with
      | zero => exact .zero _
      | digits filled first digits stops => exact .digits filled first digits fun c head => stops c head
    exact .decimal before nonempty all fun _ none => by cases none

/-- The same token is found if nothing follows it. A slash that opens a comment without an end stays a
slash. -/
theorem scan_alone (is : scan? cs = some found) :
    scan? (found.lexeme ++ []) = some ⟨found.token, found.lexeme, []⟩ := by
  have scanned : Scanned ⟨found.token, found.lexeme, []⟩ := by
    obtain ⟨_, scanned⟩ := scanned_of_scan is
    cases scanned with
    | line all => exact .line all fun _ none => by cases none
    | block _ ends => exact .block [] ends
    | number numeral => exact .number numeral.alone
    | text _ mark ends => exact .text [] mark ends
    | word word => exact .word ⟨word.first, word.parts, fun _ none => by cases none⟩
    | symbol mark => exact .symbol mark fun _ none => by cases none
    | unclosed => exact .symbol .slash fun _ none => by cases none
  exact scanned.scan fun unclosed => by cases unclosed.2

theorem lexemes_alone {token : Token} {lexeme : List Char} (is : scan? cs = some ⟨token, lexeme, rest⟩) :
    lexemes (String.ofList lexeme) = .ok [⟨token, 0, byteLength lexeme⟩] := by
  have cuts : Cuts 0 ([] ++ (lexeme ++ [])) _ :=
    .token (List.forall_mem_nil _) (scan_alone is) (.done _ (List.forall_mem_nil _))
  rw [List.nil_append, List.append_nil] at cuts
  have start : 0 + byteLength [] + byteLength lexeme = byteLength lexeme := Nat.zero_add _
  rw [start] at cuts
  rw [lexemes_iff_cuts, String.toList_ofList]
  exact cuts

end Alone

/-- The place is that of a byte under the span. -/
def Span.Holds (span : Span) (place : Nat) : Prop := span.start ≤ place ∧ place < span.stop

/-- The slice stands in the characters, which start at the offset, and the span goes from its start to its
end. -/
structure Span.Cutout (offset : Nat) (cs : List Char) (span : Span) (slice : List Char) : Prop where
  stands : ∃ before after, cs = before ++ (slice ++ after) ∧ span.start = offset + byteLength before
  stop : span.stop = span.start + byteLength slice

section Lexemes

variable {offset : Nat} {cs : List Char} {lexemes : List Lexeme}

theorem Span.Cutout.behind {span : Span} {slice front rest : List Char}
    (cutout : Span.Cutout (offset + byteLength front) rest span slice) :
    Span.Cutout offset (front ++ rest) span slice := by
  obtain ⟨⟨before, after, rfl, start⟩, stop⟩ := cutout
  refine ⟨⟨front ++ before, after, (List.append_assoc _ _ _).symm, ?_⟩, stop⟩
  rw [start, byteLength_append, Nat.add_assoc]

theorem Cuts.scanned (cuts : Cuts offset cs lexemes) :
    ∀ lexeme ∈ lexemes, ∃ slice rest, Span.Cutout offset cs lexeme.span slice ∧
      scan? (slice ++ rest) = some ⟨lexeme.token, slice, rest⟩ := by
  induction cuts with
  | done => exact List.forall_mem_nil _
  | @token offset blanks lexeme rest token lexemes blank is others ih =>
    refine List.forall_mem_cons.mpr ⟨?_, fun other member => ?_⟩
    · exact ⟨lexeme, rest, ⟨⟨blanks, rest, rfl, rfl⟩, rfl⟩, is⟩
    · obtain ⟨slice, after, cutout, own⟩ := ih other member
      have behind : Span.Cutout (offset + byteLength (blanks ++ lexeme)) rest other.span slice := by
        rw [byteLength_append, ← Nat.add_assoc]
        exact cutout
      refine ⟨slice, after, ?_, own⟩
      rw [← List.append_assoc]
      exact behind.behind

theorem Cuts.cutout (cuts : Cuts offset cs lexemes) :
    ∀ lexeme ∈ lexemes, ∃ slice, Span.Cutout offset cs lexeme.span slice ∧ slice ≠ [] ∧
      Source.lexemes (String.ofList slice) = .ok [⟨lexeme.token, 0, byteLength slice⟩] := by
  intro lexeme member
  obtain ⟨slice, rest, cutout, is⟩ := cuts.scanned lexeme member
  exact ⟨slice, cutout, lexeme_ne_nil is, lexemes_alone is⟩

theorem split_of_append {first second before after : List Char} {c : Char}
    (here : first ++ second = before ++ c :: after) :
    (∃ more, first = before ++ c :: more) ∨
      ∃ later, before = first ++ later ∧ second = later ++ c :: after := by
  rcases List.append_eq_append_iff.mp here with ⟨later, is, tail⟩ | ⟨more, is, tail⟩
  · exact .inr ⟨later, is, tail⟩
  · cases more with
    | nil => exact .inr ⟨[], by rw [is, List.append_nil, List.append_nil], tail.symm⟩
    | cons d more =>
      obtain ⟨rfl, _⟩ := List.cons.inj tail
      exact .inl ⟨more, is⟩

theorem Cuts.blank_outside (cuts : Cuts offset cs lexemes) {before after : List Char} {c : Char}
    (here : cs = before ++ c :: after)
    (outside : ∀ lexeme ∈ lexemes, ¬ lexeme.span.Holds (offset + byteLength before)) :
    Text.isBlank c = true := by
  induction cuts generalizing before with
  | done offset blank =>
    refine blank c ?_
    rw [here]
    exact List.mem_append_right _ List.mem_cons_self
  | @token offset blanks lexeme rest token lexemes blank is others ih =>
    have own := outside _ (List.mem_cons_self ..)
    -- The character stands in the white space, in the token or behind both.
    rcases split_of_append here with ⟨more, white⟩ | ⟨later, rfl, tail⟩
    · refine blank c ?_
      rw [white]
      exact List.mem_append_right _ List.mem_cons_self
    · rcases split_of_append tail with ⟨more, within⟩ | ⟨behind, rfl, last⟩
      · have room : byteLength lexeme = byteLength later + (c.utf8Size + byteLength more) := by
          rw [within, byteLength_append]
          rfl
        have filled := c.utf8Size_pos
        refine absurd ⟨?_, ?_⟩ own
        · rw [byteLength_append]
          show offset + byteLength blanks ≤ _
          omega
        · rw [byteLength_append]
          show _ < offset + byteLength blanks + byteLength lexeme
          omega
      · refine ih last fun lexeme member => ?_
        have away := outside lexeme (List.mem_cons_of_mem _ member)
        rw [byteLength_append, byteLength_append, ← Nat.add_assoc, ← Nat.add_assoc] at away
        exact away

end Lexemes

/-- The tokens of an accepted text tile it. The span of each is not empty, starts and ends between two
characters of the text, and the slice under it is cut into this one token alone. Each starts and ends before
the next one, and a character that is under none of them is white space. -/
theorem tokens_tile_source {source : String} {all : List Lexeme} (cut : lexemes source = .ok all) :
    (∀ lexeme ∈ all, lexeme.span.start < lexeme.span.stop ∧
      lexeme.span.stop ≤ byteLength source.toList ∧
      ∃ slice, Span.Cutout 0 source.toList lexeme.span slice ∧
        lexemes (String.ofList slice) = .ok [⟨lexeme.token, 0, byteLength slice⟩]) ∧
      all.Pairwise (fun one two => one.span.start < two.span.start ∧ one.span.stop ≤ two.span.start) ∧
      ∀ before c after, source.toList = before ++ c :: after →
        (∀ lexeme ∈ all, ¬ lexeme.span.Holds (byteLength before)) → Text.isBlank c = true := by
  have cuts := lexemes_iff_cuts.mp cut
  have order := cuts.inOrder
  refine ⟨fun lexeme member => ?_, ?_, fun before c after here outside => ?_⟩
  · obtain ⟨slice, cutout, filled, alone⟩ := cuts.cutout lexeme member
    obtain ⟨before, after, is, start⟩ := cutout.stands
    have room := byteLength_pos filled
    have stop := cutout.stop
    have whole : byteLength source.toList = byteLength before + (byteLength slice + byteLength after) := by
      rw [is, byteLength_append, byteLength_append]
    exact ⟨by omega, by omega, slice, cutout, alone⟩
  · refine order.ascending.imp_of_mem fun {one two} member _ apart => ⟨?_, apart⟩
    exact Nat.lt_of_lt_of_le (order.nonempty one member) apart
  · refine cuts.blank_outside here ?_
    rw [Nat.zero_add]
    exact outside

/-- Characters of two bytes in a text and in a comment, and a point that belongs to no number. -/
theorem tokens_tile_two_byte_characters :
    ∃ all, lexemes "'é'/*ö*/ 1." = .ok all ∧
      all.map Lexeme.span = [⟨0, 4⟩, ⟨4, 10⟩, ⟨11, 12⟩, ⟨12, 13⟩] ∧
      ∀ lexeme ∈ all, ∃ slice, Span.Cutout 0 "'é'/*ö*/ 1.".toList lexeme.span slice ∧
        lexemes (String.ofList slice) = .ok [⟨lexeme.token, 0, byteLength slice⟩] := by
  have cut : lexemes "'é'/*ö*/ 1." = .ok [⟨.text "é", 0, 4⟩, ⟨.comment "/*ö*/", 4, 10⟩,
      ⟨.number (Number.ofPlainDigits ['1']), 11, 12⟩, ⟨.symbol .dot, 12, 13⟩] := rfl
  obtain ⟨each, _⟩ := tokens_tile_source cut
  exact ⟨_, cut, rfl, fun lexeme member => (each lexeme member).2.2⟩

end ScreenStudio.Source
