/- digest: What readers of texts, numbers, lists and records make of written documents and of any text. -/

import ScreenStudio.Json.Shape
import ScreenStudio.Proofs.Json.Document

set_option autoImplicit false
set_option relaxedAutoImplicit false

namespace ScreenStudio.Json

namespace Reader

variable {α β : Type} {room : Nat}

theorem Rereads.behindSpace {read : Reader α} {json : Json} {expected : Option α}
    (inside : ∀ fuel rest, (compactChars json).length ≤ fuel + 1 → EndsNumber rest →
      (read fuel room (compactChars json ++ rest)).toOption = expected.map (·, rest)) :
    Rereads (Reader.behindSpace read) room json expected := by
  intro fuel rest enough ends
  obtain ⟨c, more, equal, solid, _⟩ := compactChars_head json
  cases fuel with
  | zero =>
    rw [equal, List.length_cons] at enough
    omega
  | succ fuel =>
    rw [← inside fuel rest enough ends, equal, List.cons_append, Reader.behindSpace, skipSpace_cons solid]

theorem mapValue_id (read : Reader α) : Reader.mapValue (fun value => value) read = read := by
  funext fuel room cs
  unfold Reader.mapValue
  cases read fuel room cs <;> rfl

theorem mapValue_mapValue {γ : Type} (read : Reader α) (first : α → β) (second : β → γ) :
    Reader.mapValue second (Reader.mapValue first read) =
      Reader.mapValue (fun value => second (first value)) read := by
  funext fuel room cs
  unfold Reader.mapValue
  cases read fuel room cs <;> rfl

theorem Rereads.mapValue {read : Reader α} {json : Json} {expected : Option α}
    (rereads : Rereads read room json expected) (change : α → β) :
    Rereads (Reader.mapValue change read) room json (expected.map change) := by
  intro fuel rest enough ends
  rw [Reader.mapValue, toOption_mapValue, rereads fuel rest enough ends, Option.map_map, Option.map_map]
  rfl

section Scalars

private theorem textOf_written (value : String) (rest : List Char) :
    textOf (compactChars (.text value) ++ rest) = .ok (value, rest) := by
  rw [text_chars, textOf, quotedText_quote]

theorem text_rereads (room : Nat) (value : String) : Rereads text room (.text value) (some value) := by
  refine Rereads.behindSpace (fun fuel rest _ _ => ?_)
  rw [textOf_written]
  rfl

theorem optionalText_null_rereads (room : Nat) : Rereads optionalText room .null (some none) :=
  Rereads.behindSpace (fun _ _ _ _ => rfl)

theorem optionalText_rereads (room : Nat) (value : String) :
    Rereads optionalText room (.text value) (some (some value)) := by
  refine Rereads.behindSpace (fun fuel rest _ _ => ?_)
  show ((textOf (compactChars (.text value) ++ rest)).mapValue some).toOption = _
  rw [textOf_written]
  rfl

theorem natural_rereads (expected : String) (room value : Nat) :
    Rereads (natural expected) room (.integer value) (if value < 2 ^ 64 then some value else none) := by
  refine Rereads.behindSpace (fun fuel rest _ ends => ?_)
  obtain ⟨c, more, equal, start⟩ := chars_head (integerNumeral_valid value)
  have read := number_chars (integerNumeral_valid value) ends
  rw [integerNumeral_chars] at equal read
  rw [compactChars]
  have ahead : (Number.integerChars value ++ rest).head?.any startsNumber = true := by
    rw [equal]
    exact start
  simp only [ahead, if_true, toOption_andThen, read]
  by_cases small : value < 2 ^ 64
  · have fits : FitsWord value := ⟨by omega, by omega⟩
    rw [document?_integerNumeral_of_fits fits, if_pos small]
    rfl
  · rw [if_neg small]
    cases found : (integerNumeral value).document? with
    | none => rfl
    | some json =>
      cases json with
      | integer other =>
        have fits := fitsWord_of_document? found
        rw [eq_of_document?_integerNumeral found] at fits
        exact absurd fits.2 (by omega)
      | _ => rfl

end Scalars

section Containers

theorem list_rereads {item : Reader α} {write : β → Json} {expected : β → Option α} {values : List β}
    (each : ∀ value ∈ values, Rereads item room (write value) (expected value)) :
    Rereads (list item) (room + 1) (.array (values.map write)) (values.mapM expected) := by
  refine Rereads.behindSpace (fun fuel rest enough _ => ?_)
  rw [length_array] at enough
  rw [array_chars]
  exact itemsOf_written write values (by omega) (fun value inside rest ends =>
    each value inside fuel rest
      (Nat.le_trans (length_item_le (List.mem_map_of_mem inside)) (by omega)) ends) rest

theorem dictionary_rereads {read : Reader α} {write : β → Json} {expected : β → Option α}
    {values : List (String × β)}
    (each : ∀ entry ∈ values, Rereads read room (write entry.2) (expected entry.2)) :
    Rereads (dictionary read) (room + 1) (.object (values.map (fun entry => (entry.1, write entry.2))))
      ((values.mapM (fun entry => (expected entry.2).map (entry.1, ·))).map Dictionary.ofEntries) := by
  refine Rereads.behindSpace (fun fuel rest enough _ => ?_)
  rw [length_object] at enough
  rw [object_chars]
  refine entriesOf_written write values (by omega) (fun entry inside rest ends => ?_) rest
  have member := List.mem_map_of_mem (f := fun entry : String × β => (entry.1, write entry.2)) inside
  have size := length_value_le member
  dsimp only at size
  exact each entry inside fuel rest (by omega) ends

end Containers

section Results

variable {fuel : Nat} {cs rest : List Char} {value : α}

theorem behindSpace_eq_ok {read : Reader α} (done : behindSpace read fuel room cs = .ok (value, rest)) :
    ∃ steps body, read steps room body = .ok (value, rest) := by
  cases fuel with
  | zero => cases done
  | succ fuel =>
    rw [behindSpace] at done
    split at done
    · cases done
    · exact ⟨fuel, _, done⟩

theorem enter_eq_ok {inside : Nat → Read α} (done : enter room cs inside = .ok (value, rest)) :
    ∃ room, inside room = .ok (value, rest) := by
  unfold enter at done
  split at done
  · cases done
  · exact ⟨room - 1, done⟩

theorem list_each {holds : α → Prop} {item : Reader α} {values : List α}
    (each : ∀ fuel room body value rest, item fuel room body = .ok (value, rest) → holds value)
    (done : list item fuel room cs = .ok (values, rest)) : ∀ value ∈ values, holds value := by
  obtain ⟨steps, body, done⟩ := behindSpace_eq_ok done
  split at done
  · obtain ⟨room, done⟩ := enter_eq_ok done
    exact itemsOf_each (each steps room) done
  · cases done

theorem dictionary_ascending {read : Reader α} {entries : List (String × α)}
    (done : dictionary read fuel room cs = .ok (entries, rest)) : Dictionary.Ascending entries := by
  obtain ⟨steps, body, done⟩ := behindSpace_eq_ok done
  split at done
  · obtain ⟨room, done⟩ := enter_eq_ok done
    have any : ∀ body found rest, read steps room body = .ok (found, rest) → True := fun _ _ _ _ => trivial
    exact (entriesOf_each any done).1
  · cases done

end Results

end Reader

namespace Shape

open Reader (Rereads)

variable {types : List Type} {room : Nat}

/-- What is made of written fields that stand in the order of a shape. -/
inductive Written (room : Nat) : {types : List Type} → Shape types → List (String × Json) →
    Option (Slots types) → Prop
  | nil : Written room .nil [] (some ())
  | cons {α : Type} {types : List Type} {field : Field α} {rest : Shape types} {json : Json}
      {value? : Option α} {entries : List (String × Json)} {slots? : Option (Slots types)}
      (read : Rereads field.read room json value?) (others : Written room rest entries slots?)
      (fresh : ∀ entry ∈ entries, entry.1 ≠ field.name) :
      Written room (.cons field rest) ((field.name, json) :: entries)
        (value?.bind (fun value => slots?.map (some value, ·)))

private theorem key_of_written {name : String} {json : Json} {entries : List (String × Json)}
    {key rest : List Char}
    (text : '"' :: key = joinCommas (compactEntries ((name, json) :: entries)) ++ '}' :: rest) :
    key = name.toList.flatMap escapeChar ++ '"' :: ':' :: (compactChars json ++
      ((compactEntries entries).flatMap (',' :: ·) ++ '}' :: rest)) := by
  rw [compactEntries, joinCommas_cons] at text
  simp only [quote, List.cons_append, List.append_assoc, List.nil_append] at text
  exact (List.cons.inj text).2

private theorem entry_written {whole : Shape types} {slots : Slots types} {name : String}
    {read : Reader (Slots types)} (found : whole.member? name slots = some read) (fuel : Nat) (json : Json)
    (behind : List Char) :
    whole.entry fuel room slots
      (name.toList.flatMap escapeChar ++ '"' :: ':' :: (compactChars json ++ behind)) =
      read fuel room (compactChars json ++ behind) := by
  rw [entry, quotedText_quote, Read.andThen, found]
  rfl

private theorem behind_written (second : String × Json) (more : List (String × Json)) (rest : List Char) :
    ∃ key, (compactEntries (second :: more)).flatMap (',' :: ·) ++ '}' :: rest = ',' :: '"' :: key ∧
      '"' :: key = joinCommas (compactEntries (second :: more)) ++ '}' :: rest := by
  obtain ⟨name, json⟩ := second
  rw [compactEntries, joinCommas_cons, List.flatMap_cons]
  exact ⟨_, rfl, rfl⟩

/-- Behind a field that has got its value, the members of the whole shape are those of the other fields. -/
private theorem member?_behind {α : Type} {outer : List Type} {whole : Shape outer} {field : Field α}
    {others : Shape types} {lift : Slots (α :: types) → Slots outer} {key : String} (other : key ≠ field.name)
    (same : ∀ slots, whole.member? key (lift slots) =
      ((Shape.cons field others).member? key slots).map (Reader.mapValue lift)) (value : α)
    (slots : Slots types) :
    whole.member? key (lift (some value, slots)) =
      (others.member? key slots).map (Reader.mapValue (fun slots => lift (some value, slots))) := by
  rw [same, member?, if_neg (Ne.symm other), Option.map_map]
  congr 1
  funext reader
  exact Reader.mapValue_mapValue reader _ lift

private theorem row_of_written {outer : List Type} (whole : Shape outer) (fuel : Nat) (rest : List Char)
    {shape : Shape types} {entries : List (String × Json)} {slots? : Option (Slots types)}
    (written : Written room shape entries slots?) : ∀ (lift : Slots types → Slots outer) (steps : Nat)
    (key : List Char), (∀ entry ∈ entries, ∀ slots, whole.member? entry.1 (lift slots) =
      (shape.member? entry.1 slots).map (Reader.mapValue lift)) →
    '"' :: key = joinCommas (compactEntries entries) ++ '}' :: rest → entries.length ≤ steps →
    (∀ entry ∈ entries, (compactChars entry.2).length ≤ fuel) →
    (row nextEntry (whole.entry fuel room) steps (lift (Slots.blank types)) key).toOption =
      slots?.map (fun slots => (lift slots, rest)) := by
  induction written with
  | nil =>
    intro lift steps key _ text _ _
    cases text
  | @cons α types field inner json value? entries slots? read others fresh ih =>
    intro lift steps key same text enough short
    have start := key_of_written text
    have found : whole.member? field.name (lift (Slots.blank (α :: types))) =
        some (field.read.mapValue (fun value => lift (some value, Slots.blank types))) := by
      rw [same (field.name, json) List.mem_cons_self, Slots.blank, member?, if_pos rfl]
      exact congrArg some (Reader.mapValue_mapValue field.read _ lift)
    have ends : EndsNumber ((compactEntries entries).flatMap (',' :: ·) ++ '}' :: rest) := by
      cases entries with
      | nil => exact endsNumber_cons (by decide)
      | cons second more => exact endsNumber_cons (by decide)
    cases steps with
    | zero => exact absurd enough (Nat.not_succ_le_zero _)
    | succ steps =>
      rw [toOption_row, start, entry_written found, Reader.mapValue, toOption_mapValue,
        read fuel _ (short _ List.mem_cons_self) ends]
      cases value? with
      | none => rfl
      | some value =>
        simp only [Option.map_some, Option.bind_some]
        cases entries with
        | nil =>
          cases others
          rfl
        | cons second more =>
          obtain ⟨key', behind, joined⟩ := behind_written second more rest
          rw [behind]
          show (row nextEntry (whole.entry fuel room) steps _ key').toOption = _
          rw [ih (fun slots => lift (some value, slots)) steps key'
            (fun entry inside => member?_behind (fresh entry inside)
              (same entry (List.mem_cons_of_mem _ inside)) value)
            joined (Nat.le_of_succ_le_succ enough)
            (fun entry inside => short entry (List.mem_cons_of_mem _ inside)), Option.map_map]
          rfl

theorem reader_rereads {α : Type} {name : String} {least : Nat} {shape : Shape types}
    {make : Values types → α} {first : String × Json} {entries : List (String × Json)}
    {slots? : Option (Slots types)} {value? : Option α} (written : Written room shape (first :: entries) slots?)
    (made : slots?.bind (fun slots => (shape.complete slots).toOption.map make) = value?) :
    Rereads (shape.reader name least make) (room + 1) (.object (first :: entries)) value? := by
  refine Rereads.behindSpace (fun fuel rest enough _ => ?_)
  rw [length_object] at enough
  obtain ⟨key, _, joined⟩ := behind_written first entries rest
  have enoughFor {entry : String × Json} (inside : entry ∈ first :: entries) :
      (compactChars entry.2).length + (first :: entries).length ≤ fuel :=
    Nat.le_trans (length_value_le inside) (by omega)
  have read := row_of_written shape fuel rest written (fun slots => slots) fuel key
    (fun entry _ slots => by cases shape.member? entry.1 slots <;> simp [Reader.mapValue_id]) joined
    (Nat.le_trans (Nat.le_add_left _ _) (enoughFor List.mem_cons_self))
    (fun entry inside => Nat.le_trans (Nat.le_add_right _ _) (enoughFor inside))
  rw [object_chars, ← joined]
  show ((row nextEntry (shape.entry fuel room) fuel (Slots.blank types) key).andThen _).toOption = _
  rw [toOption_andThen, read, ← made]
  cases slots? with
  | none => rfl
  | some slots =>
    show (shape.finish make slots rest).toOption = _
    rw [finish, Option.bind_some]
    cases shape.complete slots <;> rfl

end Shape

/-- The reader of a field reads the value somewhere. -/
def Field.Reads {α : Type} (field : Field α) (value : α) : Prop :=
  ∃ fuel room body rest, field.read fuel room body = .ok (value, rest)

namespace Shape

variable {types : List Type}

/-- Every slot that is filled has been filled by the reader of its field. -/
def Filled : {types : List Type} → Shape types → Slots types → Prop
  | _, .nil, _ => True
  | _, .cons field rest, (slot, others) => (∀ value, slot = some value → field.Reads value) ∧ rest.Filled others

/-- Every value has been read for its field, or it stands for a missing field. -/
def Given : {types : List Type} → Shape types → Values types → Prop
  | _, .nil, _ => True
  | _, .cons field rest, (value, others) =>
    (field.Reads value ∨ field.absent? = some value) ∧ rest.Given others

private theorem filled_blank : ∀ {types : List Type} (shape : Shape types), shape.Filled (Slots.blank types)
  | _, .nil => trivial
  | _, .cons _ rest => ⟨(fun _ nothing => nomatch nothing), filled_blank rest⟩

private theorem filled_member (name : String) {fuel room : Nat} {body rest : List Char} :
    ∀ {types : List Type} (shape : Shape types) (slots after : Slots types) (read : Reader (Slots types)),
      shape.Filled slots → shape.member? name slots = some read →
      read fuel room body = .ok (after, rest) → shape.Filled after
  | _, .nil, _, _, _, _, _, _ => trivial
  | _, .cons field others, (slot, more), after, read, filled, found, done => by
    unfold member? at found
    split at found
    · split at found
      · cases found
      · cases found
        obtain ⟨value, given, rfl⟩ := Read.mapValue_eq_ok done
        refine ⟨?_, filled.2⟩
        intro other same
        cases same
        exact ⟨fuel, room, body, rest, given⟩
    · obtain ⟨inner, innerFound, rfl⟩ := Option.map_eq_some_iff.mp found
      obtain ⟨behind, given, rfl⟩ := Read.mapValue_eq_ok done
      exact ⟨filled.1, filled_member name others more behind inner filled.2 innerFound given⟩

private theorem filled_members {shape : Shape types} {fuel room : Nat} {slots : Slots types}
    {body rest : List Char} (done : container firstEntry nextEntry (shape.entry fuel room) fuel
      (Slots.blank types) body = .ok (slots, rest)) : shape.Filled slots := by
  refine container_keeps shape.Filled ?_ (filled_blank shape) done
  intro slots key after rest filled read
  obtain ⟨name, behind, _, read⟩ := Read.andThen_eq_ok read
  split at read
  · cases read
  · rename_i reader found
    obtain ⟨_, body, _, read⟩ := Read.andThen_eq_ok read
    exact filled_member name shape slots after reader filled found read

private theorem filled_elements {fuel room : Nat} {rest : List Char} :
    ∀ {types : List Type} (shape : Shape types) (next : Next) (count : Nat) (slots : Slots types),
      shape.elements fuel room next = .ok ((count, slots), rest) → shape.Filled slots
  | _, shape, .done after, count, slots, done => by
    cases shape <;> cases done <;> exact filled_blank _
  | _, .nil, .more body, count, slots, done => nomatch done
  | _, .cons field others, .more body, count, slots, done => by
    obtain ⟨value, behind, given, done⟩ := Read.andThen_eq_ok done
    split at done
    · cases done
    · obtain ⟨⟨innerCount, inner⟩, found, same⟩ := Read.mapValue_eq_ok done
      cases same
      refine ⟨?_, filled_elements others _ innerCount inner found⟩
      intro other same
      cases same
      exact ⟨fuel, room, body, behind, given⟩

private theorem given_complete : ∀ {types : List Type} (shape : Shape types) (slots : Slots types)
    (values : Values types), shape.Filled slots → shape.complete slots = .ok values → shape.Given values
  | _, .nil, _, _, _, _ => trivial
  | _, .cons field rest, (slot, others), values, filled, done => by
    unfold complete at done
    split at done
    · cases done
    · rename_i value chosen
      cases found : rest.complete others with
      | error name =>
        rw [found] at done
        cases done
      | ok more =>
        rw [found] at done
        cases done
        refine ⟨?_, given_complete rest others more filled.2 found⟩
        cases slot with
        | none => exact Or.inr chosen
        | some read => exact Or.inl (filled.1 value chosen)

private theorem given_finish {α : Type} {shape : Shape types} {make : Values types → α} {slots : Slots types}
    {after rest : List Char} {value : α} (filled : shape.Filled slots)
    (done : shape.finish make slots after = .ok (value, rest)) :
    ∃ values, shape.Given values ∧ value = make values := by
  unfold finish at done
  split at done
  · rename_i values complete
    cases done
    exact ⟨values, given_complete shape slots values filled complete, rfl⟩
  · cases done

theorem given_of_reader {α : Type} {name : String} {least : Nat} {shape : Shape types}
    {make : Values types → α} {fuel room : Nat} {cs rest : List Char} {value : α}
    (done : shape.reader name least make fuel room cs = .ok (value, rest)) :
    ∃ values, shape.Given values ∧ value = make values := by
  obtain ⟨fuel, body, done⟩ := Reader.behindSpace_eq_ok done
  split at done
  · obtain ⟨room, done⟩ := Reader.enter_eq_ok done
    split at done
    · cases done
    · obtain ⟨⟨count, slots⟩, after, read, done⟩ := Read.andThen_eq_ok done
      split at done
      · cases done
      · exact given_finish (filled_elements shape _ count slots read) done
  · obtain ⟨room, done⟩ := Reader.enter_eq_ok done
    obtain ⟨slots, after, read, done⟩ := Read.andThen_eq_ok done
    exact given_finish (filled_members read) done
  · cases done

end Shape

end ScreenStudio.Json
