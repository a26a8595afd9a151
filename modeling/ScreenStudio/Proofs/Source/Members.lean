/- digest: Names with dots between them are read as members of members. -/

import ScreenStudio.Proofs.Source.Canonical
import ScreenStudio.Proofs.Text.Pieces

set_option autoImplicit false
set_option relaxedAutoImplicit false

namespace ScreenStudio.Source

open Nested (Suffix applySuffix)

theorem isName_iff {word : String} :
    IsName word ↔ (word.toList.head?.any isWordStart = true ∧ word.toList.all isWordPart = true) ∧
      Keyword.ofWord? word = none := by
  constructor
  · rintro ⟨⟨⟨c, more, shape, start⟩, parts, _⟩, plain⟩
    refine ⟨⟨?_, List.all_eq_true.mpr parts⟩, plain⟩
    rw [shape]
    exact start
  · rintro ⟨⟨starts, parts⟩, plain⟩
    refine ⟨⟨?_, List.all_eq_true.mp parts, fun _ none => (by cases none)⟩, plain⟩
    cases shape : word.toList with
    | nil =>
      rw [shape] at starts
      cases starts
    | cons c more =>
      rw [shape] at starts
      exact ⟨c, more, rfl, starts⟩

instance (word : String) : Decidable (IsName word) := decidable_of_iff' _ isName_iff

/-- What some keys lead to from a target, each the key of a member of what stands before it. -/
def Expression.membersOf (target : Expression) (keys : List String) : Expression :=
  keys.foldl (fun target key => .member nowhere target key) target

theorem Expression.membersOf_concat (target : Expression) (keys : List String) (key : String) :
    target.membersOf (keys ++ [key]) = .member nowhere (target.membersOf keys) key := by
  rw [membersOf, List.foldl_append]
  rfl

/-- The text of a piece without the white space around it. -/
private def trimmed (piece : List Char) : String := String.ofList (Text.trimChars piece)

theorem withoutComments_cons {lexeme : Lexeme} (kept : lexeme.token.isComment = false)
    (rest : List Lexeme) : withoutComments (lexeme :: rest) = lexeme :: withoutComments rest :=
  List.filter_cons_of_pos (by rw [kept]; rfl)

section Cutting

variable {piece rest : List Char}

private theorem cuts_name (named : IsName (trimmed piece))
    (stops : ∀ c, rest.head? = some c → isWordPart c = false) (offset : Nat) :
    ∃ (place : Nat) (lexeme : Lexeme), lexeme.token = .name (trimmed piece) ∧
      ∀ lexemes, Cuts place rest lexemes → Cuts offset (piece ++ rest) (lexeme :: lexemes) := by
  obtain ⟨⟨first, parts, _⟩, plain⟩ := named
  rw [trimmed, String.toList_ofList] at first parts
  obtain ⟨front, back, ahead, behind, shape⟩ := Text.exists_blanks_around_trimChars piece
  have ends : ∀ c, (back ++ rest).head? = some c → isWordPart c = false := by
    intro c head
    cases back with
    | nil => exact stops c head
    | cons blank more =>
      cases head
      have separates : isSeparator c = true :=
        Bool.or_eq_true_iff.mpr (.inl (behind c List.mem_cons_self))
      exact (separator_apart separates).2.1
  have word : Scanned ⟨.ofWord (trimmed piece), Text.trimChars piece, back ++ rest⟩ :=
    .word ⟨first, parts, ends⟩
  rw [Token.ofWord, plain] at word
  have scan := word.scan fun unclosed => by cases unclosed.1
  let start := offset + byteLength front
  let stop := start + byteLength (Text.trimChars piece)
  refine ⟨stop + byteLength back, ⟨.name (trimmed piece), start, stop⟩, rfl, fun lexemes cuts => ?_⟩
  have whole := Cuts.token ahead scan (cuts.behind_blanks behind)
  have text : front ++ (Text.trimChars piece ++ (back ++ rest)) = piece ++ rest := by
    rw [← List.append_assoc (Text.trimChars piece), ← List.append_assoc, ← shape]
  exact text ▸ whole

private theorem dot_stops (pieces : List (List Char)) :
    ∀ c, (pieces.flatMap (fun piece => '.' :: piece)).head? = some c → isWordPart c = false := by
  intro c head
  cases pieces with
  | nil => cases head
  | cons piece more =>
    cases head
    rfl

private theorem cuts_members {pieces : List (List Char)}
    (named : ∀ piece ∈ pieces, IsName (trimmed piece)) (offset : Nat) :
    ∃ trailers : List Trailer,
      Cuts offset (pieces.flatMap (fun piece => '.' :: piece)) (trailers.flatMap Trailer.lexemes) ∧
        withoutComments (trailers.flatMap Trailer.lexemes) = trailers.flatMap Trailer.lexemes ∧
        (∀ trailer ∈ trailers, Derives False (.suffix trailer.suffix.1) trailer.lexemes) ∧
        trailers.map Trailer.suffix =
          (pieces.map trimmed).map (fun key => (Suffix.member key, nowhere)) := by
  induction pieces generalizing offset with
  | nil => exact ⟨[], .done offset (List.forall_mem_nil _), rfl, List.forall_mem_nil _, rfl⟩
  | cons piece more ih =>
    obtain ⟨own, others⟩ := List.forall_mem_cons.mp named
    obtain ⟨place, name, is, before⟩ :=
      cuts_name own (dot_stops more) (offset + byteLength [] + byteLength ['.'])
    obtain ⟨trailers, cuts, kept, each, suffixes⟩ := ih others place
    have dot : scan? (['.'] ++ (piece ++ more.flatMap (fun piece => '.' :: piece))) =
        some ⟨.symbol .dot, ['.'], piece ++ more.flatMap (fun piece => '.' :: piece)⟩ :=
      scan_of_symbol .dot fun _ _ member => by cases member
    have whole := Cuts.token (List.forall_mem_nil _ : AreBlank []) dot (before _ cuts)
    let sign : Lexeme :=
      ⟨.symbol .dot, offset + byteLength [], offset + byteLength [] + byteLength ['.']⟩
    refine ⟨⟨(.member (trimmed piece), nowhere), [sign, name]⟩ :: trailers, whole, ?_, ?_, ?_⟩
    · rw [List.flatMap_cons]
      show withoutComments (sign :: name :: trailers.flatMap Trailer.lexemes) = _
      rw [withoutComments_cons rfl, withoutComments_cons (by rw [is]; rfl), kept]
      rfl
    · exact List.forall_mem_cons.mpr ⟨.member sign name _ rfl is, each⟩
    · rw [List.map_cons, suffixes]
      rfl

end Cutting

theorem bare_foldl_member (target : Expression) (keys : List String) :
    ((keys.map (fun key => (Suffix.member key, nowhere))).foldl applySuffix target).bare =
      target.bare.membersOf keys := by
  induction keys generalizing target with
  | nil => rfl
  | cons key rest ih =>
    rw [List.map_cons, List.foldl_cons, ih]
    rfl

private theorem intercalate_cons (first : List Char) (others : List (List Char)) :
    ['.'].intercalate (first :: others) = first ++ others.flatMap (fun piece => '.' :: piece) := by
  induction others generalizing first with
  | nil => simp
  | cons second rest ih =>
    rw [List.flatMap_cons, List.cons_append, ← ih second]
    simp

/-- A text whose pieces between the dots are names is read as a name with members behind it. -/
theorem expression_of_names {path first : String} {keys : List String}
    (pieces : (Text.split (· == '.') path).map Text.trim = first :: keys)
    (named : ∀ key ∈ first :: keys, IsName key) :
    ∃ read, expression path = .ok read ∧ read.bare = (Expression.name nowhere first).membersOf keys := by
  have trims : ∀ piece : List Char, Text.trim (String.ofList piece) = trimmed piece := fun piece => by
    rw [Text.trim, String.toList_ofList, trimmed]
  have own : (path.toList.splitOn '.').map trimmed = first :: keys := by
    rw [← pieces, Text.split_eq_splitOn, List.map_map]
    exact List.map_congr_left fun piece _ => (trims piece).symm
  have text : ['.'].intercalate (path.toList.splitOn '.') = path.toList := List.intercalate_splitOn '.'
  obtain ⟨head, more, split, rfl, rfl⟩ := List.map_eq_cons_iff.mp own
  obtain ⟨firstNamed, others⟩ := List.forall_mem_cons.mp named
  rw [split, intercalate_cons] at text
  obtain ⟨place, name, is, before⟩ := cuts_name firstNamed (dot_stops more) 0
  obtain ⟨trailers, cuts, kept, each, suffixes⟩ :=
    cuts_members (fun piece member => others _ (List.mem_map_of_mem member)) place
  have whole := before _ cuts
  rw [text] at whole
  have derived : Derives False (.chain .free .firm _) ([name] ++ trailers.flatMap Trailer.lexemes) :=
    .chain trailers (.name name nowhere _ is fun exact => exact.elim) (fun loose => by cases loose) each
  rw [suffixes] at derived
  have all : withoutComments (name :: trailers.flatMap Trailer.lexemes) =
      [name] ++ trailers.flatMap Trailer.lexemes := by
    rw [withoutComments_cons (by rw [is]; rfl), kept]
    rfl
  rw [← all] at derived
  obtain ⟨read, accepted, same⟩ := expression_of_derives (lexemes_iff_cuts.mpr whole) derived.alone
  exact ⟨read, accepted, same.trans (bare_foldl_member _ _)⟩

end ScreenStudio.Source
