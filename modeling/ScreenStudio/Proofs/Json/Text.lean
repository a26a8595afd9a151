/- digest: The text of a document is read as the document it was written from, up to its numbers. -/

import ScreenStudio.Json.Reader
import ScreenStudio.Proofs.Json.NumberText

/-!
What is read of a written document is known before its text is: `reread?` goes down the document, and only a
number has to be read from its digits. The proof is an induction on the document; what stands behind it must
not continue a number.
-/

set_option autoImplicit false
set_option relaxedAutoImplicit false

namespace ScreenStudio.Json

section Outcomes

variable {α β : Type}

@[simp] theorem toOption_ok (value : α) : (Except.ok value : Except Problem α).toOption = some value := rfl

@[simp] theorem toOption_error (problem : Problem) :
    (Except.error problem : Except Problem α).toOption = none := rfl

@[simp] theorem toOption_andThen (read : Read α) (next : α → List Char → Read β) :
    (read.andThen next).toOption = read.toOption.bind (fun found => (next found.1 found.2).toOption) := by
  cases read <;> rfl

@[simp] theorem toOption_mapValue (change : α → β) (read : Read α) :
    (read.mapValue change).toOption = read.toOption.map (fun found => (change found.1, found.2)) := by
  cases read <;> rfl

theorem toOption_eq_some {read : Except Problem α} {value : α} :
    read.toOption = some value ↔ read = .ok value := by
  cases read <;> simp

end Outcomes

theorem skipSpace_cons {c : Char} (solid : isSpace c = false) (rest : List Char) :
    skipSpace (c :: rest) = c :: rest := by
  unfold skipSpace
  rw [List.dropWhile_cons, if_neg (by rw [solid]; decide)]

section Texts

private theorem hexValue?_hexDigit (value : Nat) (small : value < 16) :
    hexValue? (hexDigit value) = some value := by
  have all : ∀ v < 16, hexValue? (hexDigit v) = some v := by decide
  exact all value small

private theorem quoted_short {mark c : Char} (short : shortEscape? mark = some c) (rest : List Char) :
    quoted none ('\\' :: mark :: rest) = (quoted none rest).mapValue (c :: ·) := by
  have notUnit : mark ≠ 'u' := by
    rintro rfl
    cases short
  rw [quoted]
  · rw [short]
  · intro a b c d after equal
    exact absurd equal notUnit
  · intro equal
    exact absurd equal notUnit

private theorem quoted_unit {a b c d : Char} {code : Nat} (quad : hexQuad? a b c d = some code)
    (noHigh : isHighSurrogate code = false) (noLow : isLowSurrogate code = false) (rest : List Char) :
    quoted none ('\\' :: 'u' :: a :: b :: c :: d :: rest) =
      (quoted none rest).mapValue (Char.ofNat code :: ·) := by
  simp [quoted, quad, noHigh, noLow]

private theorem quoted_plain {c : Char} (noQuote : c ≠ '"') (noSlash : c ≠ '\\') (visible : ¬c.toNat < 0x20)
    (rest : List Char) : quoted none (c :: rest) = (quoted none rest).mapValue (c :: ·) := by
  rw [quoted, if_neg visible] <;> simp [noQuote, noSlash]

private theorem quoted_escapeChar (c : Char) (rest : List Char) :
    quoted none (escapeChar c ++ rest) = (quoted none rest).mapValue (c :: ·) := by
  unfold escapeChar
  split
  · exact quoted_short rfl rest
  · exact quoted_short rfl rest
  · exact quoted_short rfl rest
  · exact quoted_short rfl rest
  · exact quoted_short rfl rest
  · exact quoted_short rfl rest
  · exact quoted_short rfl rest
  · rename_i noQuote noSlash noBack noFeed noLine noReturn noTab
    split
    · rename_i control
      have quad : hexQuad? '0' '0' (hexDigit (c.toNat / 16)) (hexDigit (c.toNat % 16)) = some c.toNat := by
        unfold hexQuad?
        rw [hexValue?_hexDigit (c.toNat / 16) (by omega), hexValue?_hexDigit (c.toNat % 16) (by omega)]
        have zero : hexValue? '0' = some 0 := by decide
        simp only [zero, Option.bind_eq_bind, Option.bind_some, Option.pure_def, Option.some.injEq]
        omega
      have noHigh : isHighSurrogate c.toNat = false := by simp [isHighSurrogate]; omega
      have noLow : isLowSurrogate c.toNat = false := by simp [isLowSurrogate]; omega
      have unit := quoted_unit quad noHigh noLow rest
      rw [Char.ofNat_toNat] at unit
      exact unit
    · rename_i visible
      exact quoted_plain noQuote noSlash visible rest

theorem quotedText_quote (text : String) (rest : List Char) :
    quotedText (text.toList.flatMap escapeChar ++ '"' :: rest) = .ok (text, rest) := by
  have chars (cs : List Char) : quoted none (cs.flatMap escapeChar ++ '"' :: rest) = .ok (cs, rest) := by
    induction cs with
    | nil => simp [quoted]
    | cons c cs ih =>
      rw [List.flatMap_cons, List.append_assoc, quoted_escapeChar, ih]
      rfl
  rw [quotedText, chars, Read.mapValue, Read.andThen, String.ofList_toList]

end Texts

section Rows

variable {α β σ : Type}

theorem toOption_row (next : List Char → Except Problem Next) (member : σ → List Char → Read σ) (fuel : Nat)
    (made : σ) (body : List Char) :
    (row next member (fuel + 1) made body).toOption = (member made body).toOption.bind (fun found =>
      match next found.2 with
      | .error _ => none
      | .ok (.done after) => some (found.1, after)
      | .ok (.more body) => (row next member fuel found.1 body).toOption) := by
  rw [row, toOption_andThen]
  congr 1
  funext found
  cases next found.2 with
  | error problem => rfl
  | ok next => cases next <;> rfl

/-- Members are read in a row if each is read whatever has been read before it and whatever stands behind
it; what they have in common before them, an opening, is taken with the comma. -/
theorem row_written (next : List Char → Except Problem Next) (member : σ → List Char → Read σ)
    (write : β → List Char) (step : σ → β → Option σ) (opening : List Char) (close : Char)
    (ends : ∀ rest, EndsNumber (close :: rest)) (done : ∀ rest, next (close :: rest) = .ok (.done rest))
    (more : ∀ value rest, next (',' :: (opening ++ (write value ++ rest))) = .ok (.more (write value ++ rest)))
    (rest : List Char) : ∀ (others : List β) (first : β) (fuel : Nat) (made : σ), others.length < fuel →
    (∀ value ∈ first :: others, ∀ made rest, EndsNumber rest →
      (member made (write value ++ rest)).toOption = (step made value).map (·, rest)) →
    (row next member fuel made
      (write first ++ (others.flatMap (fun value => ',' :: (opening ++ write value)) ++ close :: rest))).toOption =
      ((first :: others).foldlM step made).map (·, rest)
  | others, first, 0, made, enough, _ => by omega
  | [], first, fuel + 1, made, _, each => by
    rw [toOption_row, List.flatMap_nil, List.nil_append, each first List.mem_cons_self made _ (ends rest)]
    rw [List.foldlM_cons]
    cases step made first with
    | none => rfl
    | some made =>
      simp only [Option.map_some, Option.bind_some, done]
      rfl
  | second :: others, first, fuel + 1, made, enough, each => by
    have comma : EndsNumber (',' :: (opening ++ (write second ++
        (others.flatMap (fun value => ',' :: (opening ++ write value)) ++ close :: rest)))) :=
      endsNumber_cons (by decide)
    rw [List.flatMap_cons, List.cons_append, List.cons_append, List.append_assoc, List.append_assoc]
    rw [toOption_row, each first List.mem_cons_self made _ comma, List.foldlM_cons]
    cases step made first with
    | none => rfl
    | some made =>
      simp only [Option.map_some, Option.bind_some, more]
      exact row_written next member write step opening close ends done more rest others second fuel made
        (Nat.lt_of_succ_lt_succ enough) (fun value inside => each value (List.mem_cons_of_mem _ inside))

theorem joinCommas_cons (piece : List Char) (pieces : List (List Char)) :
    joinCommas (piece :: pieces) = piece ++ pieces.flatMap (',' :: ·) := by
  induction pieces generalizing piece with
  | nil => simp [joinCommas]
  | cons second others ih =>
    rw [joinCommas, ih, List.flatMap_cons, List.cons_append]
    · exact fun nothing => nomatch nothing

theorem length_joinCommas {piece : List Char} {pieces : List (List Char)} (inside : piece ∈ pieces) :
    piece.length + pieces.length ≤ (joinCommas pieces).length + 1 := by
  induction pieces generalizing piece with
  | nil => cases inside
  | cons head others ih =>
    rw [List.length_cons]
    cases others with
    | nil =>
      rw [List.mem_singleton.mp inside, joinCommas, List.length_nil]
    | cons second rest =>
      have joined : (joinCommas (head :: second :: rest)).length =
          head.length + (joinCommas (second :: rest)).length + 1 := by
        rw [joinCommas, List.length_append, List.length_cons, Nat.add_assoc]
        exact fun nothing => nomatch nothing
      rw [joined]
      rcases List.mem_cons.mp inside with rfl | behind
      · have count := ih List.mem_cons_self
        omega
      · have count := ih behind
        omega

private theorem foldlM_append (expected : β → Option α) (values : List β) (made : List α) :
    values.foldlM (fun made value => (expected value).map (made ++ [·])) made =
      (values.mapM expected).map (made ++ ·) := by
  induction values generalizing made with
  | nil => simp
  | cons value rest ih =>
    rw [List.foldlM_cons, List.mapM_cons]
    cases expected value with
    | none => rfl
    | some first =>
      simp only [Option.map_some, Option.bind_eq_bind, Option.bind_some, ih]
      cases rest.mapM expected <;> simp

private theorem foldlM_insert (expected : β → Option α) (values : List (String × β))
    (made : List (String × α)) :
    values.foldlM (fun made entry => (expected entry.2).map (Dictionary.insert entry.1 · made)) made =
      (values.mapM (fun entry => (expected entry.2).map (entry.1, ·))).map
        (List.foldl (fun made entry => Dictionary.insert entry.1 entry.2 made) made) := by
  induction values generalizing made with
  | nil => simp
  | cons value rest ih =>
    rw [List.foldlM_cons, List.mapM_cons]
    cases expected value.2 with
    | none => rfl
    | some first =>
      simp only [Option.map_some, Option.bind_eq_bind, Option.bind_some, ih]
      cases rest.mapM (fun entry => (expected entry.2).map (entry.1, ·)) <;> simp

end Rows

section Documents

theorem isSpace_of_startsNumber {c : Char} (start : startsNumber c = true) : isSpace c = false := by
  cases space : isSpace c with
  | false => rfl
  | true =>
    unfold isSpace at space
    simp only [Bool.or_eq_true, beq_iff_eq] at space
    rcases space with ((rfl | rfl) | rfl) | rfl <;> exact absurd start (by decide)

theorem document_of_startsNumber {c : Char} (start : startsNumber c = true) (fuel room : Nat)
    (rest : List Char) : document (fuel + 1) room (c :: rest) = number (c :: rest) := by
  have other {d : Char} {ds : List Char} (equal : c :: rest = d :: ds)
      (noStart : ¬startsNumber d = true) : False := by
    obtain ⟨rfl, _⟩ := List.cons.inj equal
    exact noStart start
  unfold document
  rw [skipSpace_cons (isSpace_of_startsNumber start)]
  split
  · rename_i equal
    cases equal
  · rename_i equal
    exact (other equal (by decide)).elim
  · rename_i equal
    exact (other equal (by decide)).elim
  · rename_i equal
    exact (other equal (by decide)).elim
  · rename_i equal
    exact (other equal (by decide)).elim
  · rename_i equal
    exact (other equal (by decide)).elim
  · rename_i equal
    exact (other equal (by decide)).elim
  · rename_i equal
    obtain ⟨rfl, rfl⟩ := List.cons.inj equal
    rw [if_pos start]

theorem document_chars {written : Numeral} (valid : written.Valid) {rest : List Char}
    (ends : EndsNumber rest) (fuel room : Nat) :
    (document (fuel + 1) room (written.chars ++ rest)).toOption = written.document?.map (·, rest) := by
  obtain ⟨c, more, equal, start⟩ := chars_head valid
  rw [← number_chars valid ends, equal, List.cons_append, document_of_startsNumber start]

theorem toOption_readWhole {α : Type} {read : Reader α} {cs : List Char} {value? : Option α}
    (whole : (read (cs.length + 1) depthLimit cs).toOption = value?.map (·, [])) :
    (readWhole read (String.ofList cs)).toOption = value? := by
  unfold readWhole
  rw [String.toList_ofList]
  dsimp only
  cases value? with
  | none =>
    cases found : read (cs.length + 1) depthLimit cs with
    | error problem => rfl
    | ok pair =>
      rw [found] at whole
      cases whole
  | some value =>
    rw [toOption_eq_some.mp whole]
    rfl

private theorem read?_chars {written : Numeral} (valid : written.Valid) :
    read? (String.ofList written.chars) = written.document? := by
  have whole := document_chars valid endsNumber_nil written.chars.length depthLimit
  rw [List.append_nil] at whole
  exact toOption_readWhole whole

theorem read?_integer (value : Int) : read? (compact (.integer value)) = (integerNumeral value).document? := by
  rw [compact, compactChars, ← integerNumeral_chars]
  exact read?_chars (integerNumeral_valid value)

mutual

/-- What is read of a written document, with room for `room` further levels of containers. -/
def reread? (room : Nat) : Json → Option Json
  | .null => some .null
  | .bool value => some (.bool value)
  | .integer value => read? (compact (.integer value))
  | .double value => read? (compact (.double value))
  | .text value => some (.text value)
  | .array items => if room = 0 then none else (rereadItems? (room - 1) items).map .array
  | .object entries =>
    if room = 0 then none
    else (rereadEntries? (room - 1) entries).map (fun list => .object (Dictionary.ofEntries list))

def rereadItems? (room : Nat) : List Json → Option (List Json)
  | [] => some []
  | item :: rest => do
    let json ← reread? room item
    let more ← rereadItems? room rest
    return json :: more

def rereadEntries? (room : Nat) : List (String × Json) → Option (List (String × Json))
  | [] => some []
  | (key, value) :: rest => do
    let json ← reread? room value
    let more ← rereadEntries? room rest
    return (key, json) :: more

end

theorem rereadItems?_eq (room : Nat) (items : List Json) :
    rereadItems? room items = items.mapM (reread? room) := by
  induction items with
  | nil => rfl
  | cons item rest ih => rw [rereadItems?, List.mapM_cons, ih]

theorem rereadEntries?_eq (room : Nat) (entries : List (String × Json)) :
    rereadEntries? room entries =
      entries.mapM (fun entry => (reread? room entry.2).map (entry.1, ·)) := by
  induction entries with
  | nil => rfl
  | cons entry rest ih =>
    obtain ⟨key, value⟩ := entry
    rw [rereadEntries?, List.mapM_cons, ih]
    cases reread? room value <;> rfl

theorem doubleChars_of_not_finite {x : Float} (special : Number.isFinite x = false) :
    doubleChars x = ['n', 'u', 'l', 'l'] := by
  unfold Number.isFinite at special
  unfold doubleChars
  split
  · rename_i parts
    rw [parts] at special
    cases special
  · rfl

theorem compactChars_head (json : Json) :
    ∃ c more, compactChars json = c :: more ∧ isSpace c = false ∧ c ≠ ']' := by
  have number {written : Numeral} (valid : written.Valid) :
      ∃ c more, written.chars = c :: more ∧ isSpace c = false ∧ c ≠ ']' := by
    obtain ⟨c, more, equal, start⟩ := chars_head valid
    refine ⟨c, more, equal, isSpace_of_startsNumber start, ?_⟩
    rintro rfl
    exact absurd start (by decide)
  cases json with
  | null => exact ⟨_, _, rfl, by decide, by decide⟩
  | bool value => cases value <;> exact ⟨_, _, rfl, by decide, by decide⟩
  | integer value =>
    rw [compactChars, ← integerNumeral_chars]
    exact number (integerNumeral_valid value)
  | double value =>
    rw [compactChars]
    cases finite : Number.isFinite value with
    | true =>
      obtain ⟨written, valid, chars⟩ := exists_numeral_of_isFinite finite
      rw [← chars]
      exact number valid
    | false => exact ⟨_, _, doubleChars_of_not_finite finite, by decide, by decide⟩
  | text value => exact ⟨_, _, rfl, by decide, by decide⟩
  | array items => exact ⟨_, _, rfl, by decide, by decide⟩
  | object entries => exact ⟨_, _, rfl, by decide, by decide⟩

theorem compactItems_eq (items : List Json) : compactItems items = items.map compactChars := by
  induction items with
  | nil => rfl
  | cons item rest ih => rw [compactItems, ih, List.map_cons]

theorem compactEntries_eq (entries : List (String × Json)) :
    compactEntries entries = entries.map (fun entry => quote entry.1 ++ ':' :: compactChars entry.2) := by
  induction entries with
  | nil => rfl
  | cons entry rest ih =>
    obtain ⟨key, value⟩ := entry
    rw [compactEntries, ih, List.map_cons]

theorem text_chars (value : String) (rest : List Char) :
    compactChars (.text value) ++ rest = '"' :: (value.toList.flatMap escapeChar ++ '"' :: rest) := by
  simp [compactChars, quote]

theorem array_chars (items : List Json) (rest : List Char) :
    compactChars (.array items) ++ rest = '[' :: (joinCommas (compactItems items) ++ ']' :: rest) := by
  simp [compactChars]

theorem object_chars (entries : List (String × Json)) (rest : List Char) :
    compactChars (.object entries) ++ rest = '{' :: (joinCommas (compactEntries entries) ++ '}' :: rest) := by
  simp [compactChars]

theorem length_array (items : List Json) :
    (compactChars (.array items)).length = (joinCommas (compactItems items)).length + 2 := by
  simp [compactChars]

theorem length_object (entries : List (String × Json)) :
    (compactChars (.object entries)).length = (joinCommas (compactEntries entries)).length + 2 := by
  simp [compactChars]

private theorem firstItem_compactChars (json : Json) (rest : List Char) :
    firstItem (compactChars json ++ rest) = .ok (.more (compactChars json ++ rest)) := by
  obtain ⟨c, more, equal, solid, noClose⟩ := compactChars_head json
  rw [equal, List.cons_append]
  unfold firstItem
  rw [skipSpace_cons solid]
  split
  · rename_i nothing
    cases nothing
  · rename_i closing
    exact absurd (List.cons.inj closing).1 noClose
  · rfl

private theorem nextItem_compactChars (json : Json) (rest : List Char) :
    nextItem (',' :: (compactChars json ++ rest)) = .ok (.more (compactChars json ++ rest)) := by
  obtain ⟨c, more, equal, solid, noClose⟩ := compactChars_head json
  rw [equal, List.cons_append]
  unfold nextItem
  rw [skipSpace_cons (by decide)]
  simp only [skipSpace_cons solid]
  split
  · rename_i nothing
    cases nothing
  · rename_i closing
    exact absurd (List.cons.inj closing).1 noClose
  · rfl

theorem length_item_le {items : List Json} {item : Json} (inside : item ∈ items) :
    (compactChars item).length ≤ (joinCommas (compactItems items)).length := by
  rw [compactItems_eq]
  have member := List.mem_map_of_mem (f := compactChars) inside
  have piece := length_joinCommas member
  have count := List.length_pos_of_mem member
  omega

theorem length_value_le {entries : List (String × Json)} {entry : String × Json} (inside : entry ∈ entries) :
    (compactChars entry.2).length + entries.length ≤ (joinCommas (compactEntries entries)).length := by
  rw [compactEntries_eq]
  have member := List.mem_map_of_mem
    (f := fun entry : String × Json => quote entry.1 ++ ':' :: compactChars entry.2) inside
  have piece := length_joinCommas member
  rw [List.length_append, List.length_cons, List.length_map] at piece
  omega

section Containers

variable {α β : Type} {read : List Char → Read α} {expected : β → Option α} {fuel : Nat}

/-- A written entry behind its opening quote. -/
private def entryChars (write : β → Json) (entry : String × β) : List Char :=
  entry.1.toList.flatMap escapeChar ++ '"' :: ':' :: compactChars (write entry.2)

theorem itemsOf_written (write : β → Json) (values : List β)
    (enough : (joinCommas (compactItems (values.map write))).length < fuel)
    (each : ∀ value ∈ values, ∀ rest, EndsNumber rest →
      (read (compactChars (write value) ++ rest)).toOption = (expected value).map (·, rest))
    (rest : List Char) :
    (itemsOf read fuel (joinCommas (compactItems (values.map write)) ++ ']' :: rest)).toOption =
      (values.mapM expected).map (·, rest) := by
  cases values with
  | nil => rfl
  | cons first others =>
    rw [compactItems_eq, List.map_map, List.map_cons] at enough ⊢
    have head : (compactChars ∘ write) first ∈
        (compactChars ∘ write) first :: others.map (compactChars ∘ write) := List.mem_cons_self
    have count := length_joinCommas head
    rw [List.length_cons, List.length_map] at count
    have row := row_written nextItem (fun items body => (read body).mapValue (items ++ [·]))
      (fun value => compactChars (write value)) (fun items value => (expected value).map (items ++ [·])) [] ']'
      (fun rest => endsNumber_cons (by decide)) (fun rest => rfl)
      (fun value rest => nextItem_compactChars (write value) rest) rest others first fuel [] (by omega)
      (fun value inside items rest ends => by
        rw [toOption_mapValue, each value inside rest ends, Option.map_map, Option.map_map]
        rfl)
    rw [foldlM_append] at row
    rw [joinCommas_cons, List.flatMap_map, List.append_assoc]
    unfold itemsOf container
    rw [Function.comp_apply, firstItem_compactChars]
    simpa using row

theorem entriesOf_written (write : β → Json) (values : List (String × β))
    (enough : (joinCommas (compactEntries (values.map (fun entry => (entry.1, write entry.2))))).length < fuel)
    (each : ∀ entry ∈ values, ∀ rest, EndsNumber rest →
      (read (compactChars (write entry.2) ++ rest)).toOption = (expected entry.2).map (·, rest))
    (rest : List Char) :
    (entriesOf read fuel (joinCommas (compactEntries (values.map (fun entry => (entry.1, write entry.2))))
      ++ '}' :: rest)).toOption =
      ((values.mapM (fun entry => (expected entry.2).map (entry.1, ·))).map Dictionary.ofEntries).map
        (·, rest) := by
  cases values with
  | nil => rfl
  | cons first others =>
    have pieces (entries : List (String × β)) :
        compactEntries (entries.map (fun entry => (entry.1, write entry.2))) =
          entries.map (fun entry => '"' :: entryChars write entry) := by
      rw [compactEntries_eq, List.map_map]
      refine List.map_congr_left (fun entry inside => ?_)
      simp [quote, entryChars]
    rw [pieces, List.map_cons] at enough ⊢
    have head : '"' :: entryChars write first ∈
        ('"' :: entryChars write first) :: others.map (fun entry => '"' :: entryChars write entry) :=
      List.mem_cons_self
    have count := length_joinCommas head
    rw [List.length_cons, List.length_cons, List.length_map] at count
    have row := row_written nextEntry
      (fun entries key => (quotedText key).andThen (fun name rest => (colon rest).andThen (fun _ body =>
        (read body).mapValue (Dictionary.insert name · entries))))
      (entryChars write) (fun entries entry => (expected entry.2).map (Dictionary.insert entry.1 · entries))
      ['"'] '}'
      (fun rest => endsNumber_cons (by decide)) (fun rest => rfl) (fun entry rest => rfl)
      rest others first fuel [] (by omega)
      (fun entry inside entries rest ends => by
        have shape : entryChars write entry ++ rest = entry.1.toList.flatMap escapeChar ++
            '"' :: ':' :: (compactChars (write entry.2) ++ rest) := by
          simp [entryChars]
        rw [shape, quotedText_quote]
        show ((read (compactChars (write entry.2) ++ rest)).mapValue _).toOption = _
        rw [toOption_mapValue, each entry inside rest ends, Option.map_map, Option.map_map]
        rfl)
    rw [foldlM_insert] at row
    rw [joinCommas_cons, List.flatMap_map, List.append_assoc]
    exact row

end Containers

/-- What a reader makes of a written document, whatever stands behind it. -/
def Reader.Rereads {α : Type} (read : Reader α) (room : Nat) (json : Json) (expected : Option α) : Prop :=
  ∀ fuel rest, (compactChars json).length ≤ fuel → EndsNumber rest →
    (read fuel room (compactChars json ++ rest)).toOption = expected.map (·, rest)

private theorem document_number {written : Numeral} (valid : written.Valid) {fuel room : Nat}
    {rest : List Char} (ends : EndsNumber rest) :
    (document (fuel + 1) room (written.chars ++ rest)).toOption =
      (read? (String.ofList written.chars)).map (·, rest) := by
  rw [document_chars valid ends, read?_chars valid]

mutual

theorem document_rereads : ∀ (json : Json) (room : Nat), Reader.Rereads document room json (reread? room json)
  | json, room, 0, rest, enough, _ => by
    obtain ⟨c, more, equal, _⟩ := compactChars_head json
    rw [equal, List.length_cons] at enough
    omega
  | .null, room, fuel + 1, rest, _, _ => rfl
  | .bool true, room, fuel + 1, rest, _, _ => rfl
  | .bool false, room, fuel + 1, rest, _, _ => rfl
  | .integer value, room, fuel + 1, rest, _, ends => by
    rw [reread?, compact, compactChars, ← integerNumeral_chars]
    exact document_number (integerNumeral_valid value) ends
  | .double value, room, fuel + 1, rest, _, ends => by
    rw [reread?, compact, compactChars]
    cases finite : Number.isFinite value with
    | true =>
      obtain ⟨written, valid, chars⟩ := exists_numeral_of_isFinite finite
      rw [← chars]
      exact document_number valid ends
    | false =>
      rw [doubleChars_of_not_finite finite]
      rfl
  | .text value, room, fuel + 1, rest, _, _ => by
    rw [text_chars, document, skipSpace_cons (by decide)]
    simp only [quotedText_quote]
    rfl
  | .array items, 0, fuel + 1, rest, _, _ => rfl
  | .array items, room + 1, fuel + 1, rest, enough, _ => by
    rw [length_array] at enough
    have each := fun item inside rest ends => items_reread items item inside room fuel rest
      (Nat.le_trans (length_item_le inside) (by omega)) ends
    have small : (joinCommas (compactItems (items.map id))).length < fuel := by
      rw [List.map_id]
      omega
    have inner := itemsOf_written id items small each rest
    rw [List.map_id] at inner
    rw [array_chars, document, skipSpace_cons (by decide), reread?, rereadItems?_eq]
    simp only [Nat.add_sub_cancel, toOption_mapValue, inner, if_neg (Nat.succ_ne_zero room), Option.map_map]
    rfl
  | .object entries, 0, fuel + 1, rest, _, _ => rfl
  | .object entries, room + 1, fuel + 1, rest, enough, _ => by
    rw [length_object] at enough
    have each := fun entry inside rest ends => entries_reread entries entry inside room fuel rest
      (by have := length_value_le inside; omega) ends
    have same : entries.map (fun entry => (entry.1, id entry.2)) = entries := List.map_id entries
    have small : (joinCommas (compactEntries (entries.map (fun entry => (entry.1, id entry.2))))).length <
        fuel := by
      rw [same]
      omega
    have inner := entriesOf_written id entries small each rest
    rw [same] at inner
    rw [object_chars, document, skipSpace_cons (by decide), reread?, rereadEntries?_eq]
    simp only [Nat.add_sub_cancel, toOption_mapValue, inner, if_neg (Nat.succ_ne_zero room), Option.map_map]
    rfl

theorem items_reread : ∀ (items : List Json), ∀ item ∈ items, ∀ room,
    Reader.Rereads document room item (reread? room item)
  | [], item, inside, room => nomatch inside
  | first :: others, item, inside, room => by
    rcases List.mem_cons.mp inside with same | behind
    · rw [same]
      exact document_rereads first room
    · exact items_reread others item behind room

theorem entries_reread : ∀ (entries : List (String × Json)), ∀ entry ∈ entries, ∀ room,
    Reader.Rereads document room entry.2 (reread? room entry.2)
  | [], entry, inside, room => nomatch inside
  | (key, value) :: others, entry, inside, room => by
    rcases List.mem_cons.mp inside with same | behind
    · rw [same]
      exact document_rereads value room
    · exact entries_reread others entry behind room

end

end Documents

end ScreenStudio.Json
