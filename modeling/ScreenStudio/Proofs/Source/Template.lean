/- digest: The template of a screen is read as a statement that shows its name. -/

import ScreenStudio.Project
import ScreenStudio.Proofs.Source.Canonical
import ScreenStudio.Proofs.Source.Layout
import ScreenStudio.Proofs.Source.Members

set_option autoImplicit false
set_option relaxedAutoImplicit false

namespace ScreenStudio.Source

section Cutting

/-- The characters are cut into the tokens, wherever they start. -/
def CutInto (cs : List Char) (tokens : List Token) : Prop :=
  ∀ offset, ∃ lexemes, Cuts offset cs lexemes ∧ tokensOf lexemes = tokens

theorem cutInto_blanks {cs : List Char} (blank : AreBlank cs) : CutInto cs [] :=
  fun offset => ⟨[], .done offset blank, rfl⟩

theorem CutInto.token {blanks lexeme rest : List Char} {token : Token} {tokens : List Token}
    (others : CutInto rest tokens) (blank : AreBlank blanks)
    (is : scan? (lexeme ++ rest) = some ⟨token, lexeme, rest⟩) :
    CutInto (blanks ++ (lexeme ++ rest)) (token :: tokens) := by
  intro offset
  obtain ⟨lexemes, cuts, are⟩ := others (offset + byteLength blanks + byteLength lexeme)
  exact ⟨_, .token blank is cuts, congrArg (List.cons token) are⟩

/-- A name or a symbol with white space before it. -/
structure Piece where
  blanks : String
  token : Token

namespace Piece

def spelling (piece : Piece) : List Char :=
  match piece.token with
  | .name word => word.toList
  | .symbol mark => mark.spelling
  | _ => []

/-- The characters of some pieces. -/
def write : List Piece → List Char
  | [] => []
  | piece :: rest => piece.blanks.toList ++ (piece.spelling ++ write rest)

/-- The token ends where the next character stands. -/
def Ends (piece : Piece) (next : Option Char) : Prop :=
  match piece.token with
  | .name word => IsName word ∧ ∀ c ∈ next, isWordPart c = false
  | .symbol mark => ∀ c ∈ next, c ∉ mark.extensions
  | _ => False

instance (piece : Piece) (next : Option Char) : Decidable (piece.Ends next) :=
  match piece with
  | ⟨_, .name _⟩ => @instDecidableAnd _ _ inferInstance (Option.decidableForallMem next)
  | ⟨_, .symbol mark⟩ => @Option.decidableForallMem _ (fun c => c ∉ mark.extensions) inferInstance next
  | ⟨_, .comment _⟩ | ⟨_, .number _⟩ | ⟨_, .text _⟩ | ⟨_, .keyword _⟩ => instDecidableFalse

/-- Every token ends where the next one starts, the last in front of the next character. -/
def Fit (next : Option Char) : List Piece → Prop
  | [] => True
  | piece :: rest => (∀ c ∈ piece.blanks.toList, Text.isBlank c = true) ∧
      piece.Ends ((write rest).head?.or next) ∧ Fit next rest

instance decidableFit (next : Option Char) : (pieces : List Piece) → Decidable (Fit next pieces)
  | [] => inferInstanceAs (Decidable True)
  | piece :: rest =>
    have := decidableFit next rest
    have := List.decidableBAll (fun c => Text.isBlank c = true) piece.blanks.toList
    inferInstanceAs (Decidable (_ ∧ _ ∧ _))

theorem scan_of_ends {piece : Piece} {rest : List Char} (ends : piece.Ends rest.head?) :
    scan? (piece.spelling ++ rest) = some ⟨piece.token, piece.spelling, rest⟩ := by
  obtain ⟨blanks, token⟩ := piece
  cases token with
  | name word =>
    obtain ⟨⟨⟨first, parts, _⟩, plain⟩, stops⟩ := ends
    have scanned := Scanned.word ⟨first, parts, stops⟩
    rw [String.ofList_toList, Token.ofWord, plain] at scanned
    exact scanned.scan fun unclosed => by cases unclosed.1
  | symbol mark => exact scan_of_symbol mark ends
  | comment | number | text | keyword => exact ends.elim

theorem cutInto_write {pieces : List Piece} {rest : List Char} {tokens : List Token}
    (fit : Fit rest.head? pieces) (others : CutInto rest tokens) :
    CutInto (write pieces ++ rest) (pieces.map token ++ tokens) := by
  induction pieces with
  | nil => exact others
  | cons piece more ih =>
    obtain ⟨blank, ends, fits⟩ := fit
    rw [← List.head?_append] at ends
    rw [write, List.append_assoc, List.append_assoc]
    exact (ih fits).token blank (scan_of_ends ends)

theorem filter_of_fit {pieces : List Piece} {next : Option Char} (fit : Fit next pieces) :
    (pieces.map token).filter (fun token => !token.isComment) = pieces.map token := by
  induction pieces with
  | nil => rfl
  | cons piece rest ih =>
    obtain ⟨_, ends, fits⟩ := fit
    obtain ⟨blanks, token⟩ := piece
    cases token with
    | name | symbol => exact congrArg (List.cons _) (ih fits)
    | comment | number | text | keyword => exact ends.elim

end Piece

end Cutting

section Derivations

/-- A name that is called with one argument. -/
def callOf (word : String) (argument : Expression) : Expression :=
  .call nowhere (.name nowhere word) [argument]

/-- An arrow function without parameters whose body is an expression. -/
def thunkOf (value : Expression) : Expression := .arrow nowhere [] (.expression value)

theorem placed_cons (token : Token) (rest : List Token) :
    placed (token :: rest) = ⟨token, nowhere⟩ :: placed rest := rfl

theorem placed_append (first second : List Token) :
    placed (first ++ second) = placed first ++ placed second := List.map_append

variable {lead : Lead} {value : Expression} {tokens : List Token}

theorem derives_name (word : String) :
    Derives False (.expression .free (.name nowhere word)) (placed [.name word]) :=
  .alone (.chain [] (.name ⟨.name word, nowhere⟩ nowhere word rfl False.elim) nofun
    (List.forall_mem_nil _))

theorem derives_quoted (text : String) :
    Derives False (.expression .free (.literal nowhere (.text text))) (placed [quoted text]) := by
  have is : Nested.literal.accepts? (quoted text) = some (.text text) :=
    congrArg (fun content => some (Literal.text content)) (unescapeText_quoted text)
  exact .alone (.chain [] (.literal ⟨quoted text, nowhere⟩ nowhere _ is) nofun (List.forall_mem_nil _))

theorem derives_call (word : String) (argument : Derives False (.expression lead value) (placed tokens)) :
    Derives False (.expression .free (callOf word value)) (placed (.name word :: inBrackets tokens)) := by
  let item : Item Expression := ⟨lead, value, placed tokens⟩
  have listing : Listing [item] false (placed tokens) := by
    have row := Listing.row item [] none (List.forall_mem_nil _) nofun
    rw [List.flatMap_nil, Option.toList_none, List.append_nil, List.append_nil] at row
    exact row
  have call : Derives False (.suffix (.call [value])) (placed (inBrackets tokens)) := by
    rw [inBrackets, placed_cons, placed_append]
    exact .call ⟨.symbol .roundOpen, nowhere⟩ ⟨.symbol .roundClose, nowhere⟩ [item] false _ rfl rfl listing
      (List.forall_mem_singleton.mpr argument)
  have chain := Derives.chain [⟨(.call [value], nowhere), placed (inBrackets tokens)⟩]
    (.name ⟨.name word, nowhere⟩ nowhere word rfl False.elim) nofun (List.forall_mem_singleton.mpr call)
  rw [List.flatMap_cons, List.flatMap_nil, List.append_nil] at chain
  exact .alone chain

theorem derives_thunk (noBlock : lead ≠ .braces)
    (within : Derives False (.expression lead value) (placed tokens)) :
    Derives False (.expression .joining (thunkOf value))
      (placed (.symbol .roundOpen :: .symbol .roundClose :: .symbol .arrow :: tokens)) := by
  have names := Parameters.listed ⟨.symbol .roundOpen, nowhere⟩ ⟨.symbol .roundClose, nowhere⟩ [] false []
    rfl rfl .empty (List.forall_mem_nil _)
  have atom := Derives.arrow nowhere ⟨.symbol .arrow, nowhere⟩ rfl names (.bodyExpression noBlock within)
  have chain := Derives.chain [] atom (fun _ => rfl) (List.forall_mem_nil _)
  rw [List.flatMap_nil, List.append_nil] at chain
  exact .alone chain

theorem derives_builder (word : String) {statements : List Statement}
    (within : Derives False (.statements statements) (placed tokens)) :
    Derives False (.expression .free (.arrow nowhere [word] (.block statements)))
      (placed (.name word :: .symbol .arrow :: .symbol .curlyOpen ::
        (tokens ++ [.symbol .curlyClose]))) := by
  have names := Parameters.single ⟨.name word, nowhere⟩ word rfl
  have block := Derives.block ⟨.symbol .curlyOpen, nowhere⟩ ⟨.symbol .curlyClose, nowhere⟩ rfl rfl within
  have atom := Derives.arrow nowhere ⟨.symbol .arrow, nowhere⟩ rfl names (.bodyBlock block)
  have chain := Derives.chain [] atom nofun (List.forall_mem_nil _)
  rw [List.flatMap_nil, List.append_nil] at chain
  rw [placed_cons, placed_cons, placed_cons, placed_append]
  exact .alone chain

theorem derives_program_row (items : List (Expression × List Token))
    (each : ∀ item ∈ items, Derives False (.expression .free item.1) (placed item.2)) :
    Derives False (.statements (items.map fun item => .expression nowhere item.1))
      (placed (items.flatMap Prod.snd)) := by
  let sentence (item : Expression × List Token) : Sentence :=
    ⟨.value, ⟨.free, .expression nowhere item.1, placed item.2⟩, []⟩
  have apart : (items.map sentence).IsChain Sentence.Apart :=
    List.Pairwise.isChain (List.pairwise_map.mpr (List.pairwise_of_forall fun _ _ => .inr nofun))
  have all : Derives False _ _ := .statements [] (items.map sentence) (List.forall_mem_nil _)
    (List.forall_mem_map.mpr fun _ _ => List.forall_mem_nil _) apart
    (List.forall_mem_map.mpr fun item member => .expression nowhere (each item member) False.elim)
  rw [List.map_map, List.flatMap_map, List.nil_append] at all
  have row : items.flatMap (fun item => (sentence item).lexemes) = placed (items.flatMap Prod.snd) := by
    unfold placed
    rw [List.map_flatMap]
    exact congrArg (items.flatMap ·) (funext fun item => List.append_nil _)
  rw [row] at all
  exact all

end Derivations

section Templates

/-- A call that makes a label of a text. -/
def labelling (text : String) : Expression := callOf "Text" (thunkOf (.literal nowhere (.text text)))

/-- A call that makes a column with a label in it. -/
def stacking (text : String) : Expression :=
  callOf "Column" (.arrow nowhere ["add"] (.block [.expression nowhere (callOf "add" (labelling text))]))

/-- A call that shows a text in a column. -/
def showing (text : String) : Expression := callOf "render" (thunkOf (stacking text))

/-- The pieces of a template between the comment and the text. -/
def opening : List Piece :=
  [⟨"\n", .name "render"⟩, ⟨"", .symbol .roundOpen⟩, ⟨"", .symbol .roundOpen⟩, ⟨"", .symbol .roundClose⟩,
    ⟨" ", .symbol .arrow⟩, ⟨" ", .name "Column"⟩, ⟨"", .symbol .roundOpen⟩, ⟨"", .name "add"⟩,
    ⟨" ", .symbol .arrow⟩, ⟨" ", .symbol .curlyOpen⟩, ⟨"\n  ", .name "add"⟩, ⟨"", .symbol .roundOpen⟩,
    ⟨"", .name "Text"⟩, ⟨"", .symbol .roundOpen⟩, ⟨"", .symbol .roundOpen⟩, ⟨"", .symbol .roundClose⟩,
    ⟨" ", .symbol .arrow⟩]

/-- The pieces of a template behind the text. -/
def closing : List Piece :=
  [⟨"", .symbol .roundClose⟩, ⟨"", .symbol .roundClose⟩, ⟨"\n", .symbol .curlyClose⟩,
    ⟨"", .symbol .roundClose⟩, ⟨"", .symbol .roundClose⟩]

/-- The tokens of the call that shows a text. -/
def shownTokens (text : String) : List Token :=
  opening.map Piece.token ++ quoted text :: closing.map Piece.token

theorem derives_showing (text : String) :
    Derives False (.expression .free (showing text)) (placed (shownTokens text)) := by
  have label := derives_call "Text" (derives_thunk (by decide) (derives_quoted text))
  have block := derives_program_row [(_, _)] (List.forall_mem_singleton.mpr (derives_call "add" label))
  rw [List.flatMap_singleton] at block
  have column := derives_call "Column" (derives_builder "add" block)
  exact derives_call "render" (derives_thunk (by decide) column)

theorem toList_quotedName (name : String) : (Screen.quotedName name).toList = escape name.toList := by
  rw [Screen.quotedName, String.toList_ofList]
  induction name.toList with
  | nil => rfl
  | cons c rest ih =>
    rw [List.flatMap_cons, ih, escape]
    by_cases backslash : c = '\\'
    · rw [if_pos backslash, if_pos (.inl backslash), backslash]
      rfl
    · rw [if_neg backslash]
      by_cases quote : c = '\''
      · rw [if_pos quote, if_pos (.inr quote), quote]
        rfl
      · rw [if_neg quote, if_neg (not_or.mpr ⟨backslash, quote⟩)]
        rfl

/-- The text that a template shows. -/
def shownText (name : String) : String := "This is " ++ name

/-- The characters of a template behind the comment. -/
def templateBody (name : String) : List Char :=
  Piece.write opening ++ ([' '] ++ ('\'' :: (escape (shownText name).toList ++ ['\'']) ++
    (Piece.write closing ++ ['\n'])))

theorem toList_template (name : String) :
    (Screen.template name).toList = "// New Screen: ".toList ++ (name.toList ++ templateBody name) := by
  have before : "\nrender(() => Column(add => \x7b\n  add(Text(() => 'This is ".toList =
      Piece.write opening ++ ' ' :: '\'' :: "This is ".toList := by decide
  have behind : "'))\n\x7d))\n".toList = '\'' :: (Piece.write closing ++ ['\n']) := by decide
  have text : escape (shownText name).toList = "This is ".toList ++ escape name.toList := by
    rw [shownText, String.toList_append]
    rfl
  unfold Screen.template templateBody
  rw [String.toList_append, String.toList_append, String.toList_append, String.toList_append,
    toList_quotedName, text, before, behind]
  simp only [List.append_assoc, List.cons_append, List.nil_append]

theorem cutInto_templateBody (name : String) :
    CutInto (templateBody name) (shownTokens (shownText name)) := by
  have ends : CutInto (Piece.write closing ++ ['\n']) (closing.map Piece.token ++ []) :=
    Piece.cutInto_write (by decide) (cutInto_blanks (List.forall_mem_singleton.mpr rfl))
  have text : Scanned ⟨quoted (shownText name), '\'' :: (escape (shownText name).toList ++ ['\'']),
      Piece.write closing ++ ['\n']⟩ :=
    .text _ (.inl rfl) (quoteEnd_escape_append _)
  rw [List.append_nil] at ends
  exact Piece.cutInto_write (show Piece.Fit (some ' ') opening by decide)
    (ends.token (List.forall_mem_singleton.mpr rfl) (text.scan fun unclosed => nomatch unclosed.1))

theorem cutInto_template {name : String} {line : List Char} {pieces : List Piece}
    (parts : name.toList = line ++ Piece.write pieces) (noEnd : ∀ c ∈ line, isLineEnd c = false)
    (ends : ∀ c ∈ (Piece.write pieces).head?, isLineEnd c = true) (fit : Piece.Fit (some '\n') pieces) :
    CutInto (Screen.template name).toList
      (.comment (String.ofList ('/' :: '/' :: (" New Screen: ".toList ++ line))) ::
        (pieces.map Piece.token ++ shownTokens (shownText name))) := by
  have body : CutInto (Piece.write pieces ++ templateBody name) _ :=
    Piece.cutInto_write fit (cutInto_templateBody name)
  have stops : ∀ c, (Piece.write pieces ++ templateBody name).head? = some c → (!isLineEnd c) = false := by
    intro c head
    cases written : Piece.write pieces with
    | nil =>
      rw [written] at head
      cases head
      rfl
    | cons d more =>
      rw [written] at head ends
      cases head
      rw [ends c rfl]
      rfl
  have all : ∀ c ∈ " New Screen: ".toList ++ line, (!isLineEnd c) = true := by
    refine List.forall_mem_append.mpr ⟨List.all_eq_true.mp rfl, fun c member => ?_⟩
    rw [noEnd c member]
    rfl
  have scan := (Scanned.line all stops).scan fun unclosed => nomatch unclosed.1
  have whole : CutInto ([] ++ ('/' :: '/' :: (" New Screen: ".toList ++ line) ++ _)) _ :=
    body.token (List.forall_mem_nil _) scan
  rw [toList_template, parts, List.append_assoc]
  exact whole

/-- What a template is read as if its name is a line with some pieces behind it that make up expressions. -/
theorem program_of_pieces {name : String} {line : List Char} (pieces : List Piece)
    (items : List (Expression × List Token)) (parts : name.toList = line ++ Piece.write pieces)
    (noEnd : ∀ c ∈ line, isLineEnd c = false) (ends : ∀ c ∈ (Piece.write pieces).head?, isLineEnd c = true)
    (fit : Piece.Fit (some '\n') pieces) (are : items.flatMap Prod.snd = pieces.map Piece.token)
    (each : ∀ item ∈ items, Derives False (.expression .free item.1) (placed item.2)) :
    ∃ read, program (Screen.template name) = .ok read ∧ Statement.bareList read =
      (items.map Prod.fst ++ [showing (shownText name)]).map fun value => .expression nowhere value.bare := by
  obtain ⟨lexemes, cuts, tokens⟩ := cutInto_template parts noEnd ends fit 0
  have kept : tokensOf (withoutComments lexemes) =
      pieces.map Piece.token ++ shownTokens (shownText name) := by
    rw [tokensOf_withoutComments, tokens, List.filter_cons_of_neg Bool.false_ne_true, List.filter_append,
      Piece.filter_of_fit fit]
    rfl
  have derived := derives_program_row (items ++ [(showing (shownText name), shownTokens (shownText name))])
    (List.forall_mem_append.mpr ⟨each, List.forall_mem_singleton.mpr (derives_showing _)⟩)
  have complete := derived.complete
  rw [tokensOf_placed, List.flatMap_append, are, List.flatMap_singleton, ← kept] at complete
  obtain ⟨read, accepted, same⟩ := program_of_complete cuts complete
  refine ⟨read, accepted, same.trans ?_⟩
  rw [Statement.bareList_eq_map, List.map_map, List.map_append, List.map_append, List.map_map]
  rfl

/-- Words with white space before each. -/
def wordsText : List (String × String) → String
  | [] => ""
  | (blanks, word) :: rest => blanks ++ (word ++ wordsText rest)

/-- Behind a first line come words with white space before each, or nothing. -/
structure AreWords (rows : List (String × String)) : Prop where
  line : ∀ row ∈ rows.head?, ∀ c ∈ row.1.toList.head?, isLineEnd c = true
  apart : ∀ row ∈ rows, row.1 ≠ "" ∧ AreBlank row.1.toList
  words : ∀ row ∈ rows, IsName row.2

/-- The pieces that words are cut into. -/
def wordPieces (rows : List (String × String)) : List Piece := rows.map fun row => ⟨row.1, .name row.2⟩

theorem write_wordPieces (rows : List (String × String)) :
    Piece.write (wordPieces rows) = (wordsText rows).toList := by
  induction rows with
  | nil => rfl
  | cons row rest ih =>
    rw [wordsText, String.toList_append, String.toList_append, ← ih]
    rfl

theorem fit_wordPieces {rows : List (String × String)}
    (apart : ∀ row ∈ rows, row.1 ≠ "" ∧ AreBlank row.1.toList) (words : ∀ row ∈ rows, IsName row.2) :
    Piece.Fit (some '\n') (wordPieces rows) ∧
      ∀ c ∈ (Piece.write (wordPieces rows)).head?.or (some '\n'), Text.isBlank c = true := by
  induction rows with
  | nil => exact ⟨trivial, fun c next => Option.some.inj next ▸ rfl⟩
  | cons row rest ih =>
    obtain ⟨⟨nonempty, blank⟩, others⟩ := List.forall_mem_cons.mp apart
    obtain ⟨named, more⟩ := List.forall_mem_cons.mp words
    obtain ⟨fits, next⟩ := ih others more
    refine ⟨⟨blank, ⟨named, fun c is => ?_⟩, fits⟩, ?_⟩
    · exact (separator_apart (Bool.or_eq_true_iff.mpr (.inl (next c is)))).2.1
    · have some : row.1.toList ≠ [] := fun none => nonempty (String.toList_eq_nil_iff.mp none)
      obtain ⟨first, rest, is⟩ := List.exists_cons_of_ne_nil some
      rw [wordPieces, List.map_cons, Piece.write]
      dsimp only
      rw [is]
      intro c head
      cases head
      exact blank first (is ▸ List.mem_cons_self ..)

/-- The template of a name is the call that shows it, behind a statement for every word on a later line. -/
theorem program_template {first : String} (noEnd : ∀ c ∈ first.toList, isLineEnd c = false)
    {rows : List (String × String)} (words : AreWords rows) :
    ∃ read, program (Screen.template (first ++ wordsText rows)) = .ok read ∧
      Statement.bareList read = rows.map (fun row => .expression nowhere (.name nowhere row.2)) ++
        [.expression nowhere (showing (shownText (first ++ wordsText rows)))] := by
  let item (row : String × String) : Expression × List Token := (.name nowhere row.2, [.name row.2])
  have parts : (first ++ wordsText rows).toList = first.toList ++ Piece.write (wordPieces rows) := by
    rw [String.toList_append, write_wordPieces]
  have ends : ∀ c ∈ (Piece.write (wordPieces rows)).head?, isLineEnd c = true := by
    cases rows with
    | nil => nofun
    | cons row rest =>
      have nonempty := (words.apart row (List.mem_cons_self ..)).1
      have some : row.1.toList ≠ [] := fun none => nonempty (String.toList_eq_nil_iff.mp none)
      intro c head
      refine words.line row rfl c ?_
      rw [wordPieces, List.map_cons, Piece.write, List.head?_append_of_ne_nil _ some] at head
      exact head
  have are : (rows.map item).flatMap Prod.snd = (wordPieces rows).map Piece.token := by
    rw [List.flatMap_map, wordPieces, List.map_map, List.map_eq_flatMap]
    rfl
  have each : ∀ part ∈ rows.map item, Derives False (.expression .free part.1) (placed part.2) :=
    List.forall_mem_map.mpr fun row _ => derives_name row.2
  obtain ⟨read, accepted, same⟩ := program_of_pieces (wordPieces rows) (rows.map item) parts noEnd ends
    (fit_wordPieces words.apart words.words).1 are each
  refine ⟨read, accepted, same.trans ?_⟩
  rw [List.map_append, List.map_map, List.map_map]
  rfl

end Templates

end ScreenStudio.Source
