/- digest: Which written documents the reader accepts, and what it makes of them. -/

import ScreenStudio.Proofs.Dictionary
import ScreenStudio.Proofs.Json.Text

set_option autoImplicit false
set_option relaxedAutoImplicit false

namespace ScreenStudio.Json

mutual

/-- The integers fit a word and the keys of every object ascend. -/
def Regular : Json → Prop
  | .null => True
  | .bool _ => True
  | .integer value => FitsWord value
  | .double _ => True
  | .text _ => True
  | .array items => ItemsRegular items
  | .object entries => Dictionary.Ascending entries ∧ EntriesRegular entries

/-- Every item is regular. -/
def ItemsRegular : List Json → Prop
  | [] => True
  | item :: rest => Regular item ∧ ItemsRegular rest

/-- Every value of the entries is regular. -/
def EntriesRegular : List (String × Json) → Prop
  | [] => True
  | (_, value) :: rest => Regular value ∧ EntriesRegular rest

end

mutual

/-- A property of every double in a document. -/
def AllDoubles (holds : Float → Prop) : Json → Prop
  | .null => True
  | .bool _ => True
  | .integer _ => True
  | .double value => holds value
  | .text _ => True
  | .array items => ItemsAllDoubles holds items
  | .object entries => EntriesAllDoubles holds entries

/-- A property of every double in some items. -/
def ItemsAllDoubles (holds : Float → Prop) : List Json → Prop
  | [] => True
  | item :: rest => AllDoubles holds item ∧ ItemsAllDoubles holds rest

/-- A property of every double in the values of some entries. -/
def EntriesAllDoubles (holds : Float → Prop) : List (String × Json) → Prop
  | [] => True
  | (_, value) :: rest => AllDoubles holds value ∧ EntriesAllDoubles holds rest

end

/-- The reader accepts the text of a double. -/
def IsReadable (value : Float) : Prop := (read? (compact (.double value))).isSome = true

/-- The reader gives a double back from its text. -/
def ReadsBack (value : Float) : Prop := read? (compact (.double value)) = some (.double value)

mutual

theorem WellFormed.regular : ∀ {json : Json}, json.WellFormed → json.Regular
  | .null, _ => trivial
  | .bool _, _ => trivial
  | .integer _, fits => fits
  | .double _, _ => trivial
  | .text _, _ => trivial
  | .array _, items => ItemsWellFormed.regular items
  | .object _, ⟨ascending, entries⟩ => ⟨ascending, EntriesWellFormed.regular entries⟩

theorem ItemsWellFormed.regular : ∀ {items : List Json}, ItemsWellFormed items → ItemsRegular items
  | [], _ => trivial
  | _ :: _, ⟨first, others⟩ => ⟨first.regular, others.regular⟩

theorem EntriesWellFormed.regular : ∀ {entries : List (String × Json)},
    EntriesWellFormed entries → EntriesRegular entries
  | [], _ => trivial
  | (_, _) :: _, ⟨first, others⟩ => ⟨first.regular, others.regular⟩

end

theorem itemsRegular_iff {items : List Json} :
    ItemsRegular items ↔ ∀ item ∈ items, item.Regular := by
  induction items with
  | nil => simp [ItemsRegular]
  | cons item rest ih => simp [ItemsRegular, ih]

theorem entriesRegular_iff {entries : List (String × Json)} :
    EntriesRegular entries ↔ ∀ entry ∈ entries, entry.2.Regular := by
  induction entries with
  | nil => simp [EntriesRegular]
  | cons entry rest ih => simp [EntriesRegular, ih]

private theorem isSome_bind_cons {α β : Type} (first : Option α) (others : Option (List β))
    (join : α → List β → List β) :
    (first.bind (fun value => others.bind (fun more => some (join value more)))).isSome = true ↔
      first.isSome = true ∧ others.isSome = true := by
  cases first with
  | none => simp
  | some value =>
    cases others with
    | none => simp
    | some more => simp

mutual

/-- The text of a regular document is accepted exactly if its containers have room and its doubles
are in range. -/
theorem isSome_reread?_iff : ∀ (json : Json) (room : Nat), json.Regular →
    ((reread? room json).isSome = true ↔
      json.depth ≤ room ∧ json.AllDoubles IsReadable)
  | .null, room, _ => by simp [reread?, depth, AllDoubles]
  | .bool value, room, _ => by simp [reread?, depth, AllDoubles]
  | .integer value, room, regular => by
    rw [reread?, read?_integer, document?_integerNumeral_of_fits regular]
    simp [depth, AllDoubles]
  | .double value, room, _ => by
    simp [reread?, depth, AllDoubles, IsReadable]
  | .text value, room, _ => by simp [reread?, depth, AllDoubles]
  | .array items, 0, _ => by simp [reread?, depth]
  | .array items, room + 1, regular => by
    have inner := isSome_rereadItems?_iff items room regular
    simp only [reread?, depth, AllDoubles, Nat.add_sub_cancel,
      Nat.add_le_add_iff_right]
    rw [if_neg (by omega), Option.isSome_map]
    exact inner
  | .object entries, 0, _ => by simp [reread?, depth]
  | .object entries, room + 1, regular => by
    have inner := isSome_rereadEntries?_iff entries room regular.2
    simp only [reread?, depth, AllDoubles, Nat.add_sub_cancel,
      Nat.add_le_add_iff_right]
    rw [if_neg (by omega), Option.isSome_map]
    exact inner

theorem isSome_rereadItems?_iff : ∀ (items : List Json) (room : Nat), ItemsRegular items →
    ((rereadItems? room items).isSome = true ↔
      itemsDepth items ≤ room ∧ ItemsAllDoubles IsReadable items)
  | [], room, _ => by simp [rereadItems?, itemsDepth, ItemsAllDoubles]
  | item :: rest, room, regular => by
    have first := isSome_reread?_iff item room regular.1
    have others := isSome_rereadItems?_iff rest room regular.2
    have both := isSome_bind_cons (reread? room item)
      (rereadItems? room rest) List.cons
    rw [first, others] at both
    simp only [rereadItems?, itemsDepth, ItemsAllDoubles, Nat.max_le]
    rw [← and_and_and_comm]
    exact both

theorem isSome_rereadEntries?_iff : ∀ (entries : List (String × Json)) (room : Nat),
    EntriesRegular entries → ((rereadEntries? room entries).isSome = true ↔
      entriesDepth entries ≤ room ∧ EntriesAllDoubles IsReadable entries)
  | [], room, _ => by simp [rereadEntries?, entriesDepth, EntriesAllDoubles]
  | (key, value) :: rest, room, regular => by
    have first := isSome_reread?_iff value room regular.1
    have others := isSome_rereadEntries?_iff rest room regular.2
    have both := isSome_bind_cons (reread? room value)
      (rereadEntries? room rest) (fun json more => (key, json) :: more)
    rw [first, others] at both
    simp only [rereadEntries?, entriesDepth, EntriesAllDoubles, Nat.max_le]
    rw [← and_and_and_comm]
    exact both

end

mutual

/-- What the reader makes of the text of a regular document whose doubles are all read back is that
document. -/
theorem eq_of_reread? : ∀ (json read : Json) (room : Nat), json.Regular →
    json.AllDoubles ReadsBack → reread? room json = some read → read = json
  | .null, read, room, _, _, result => (Option.some.inj result).symm
  | .bool value, read, room, _, _, result => (Option.some.inj result).symm
  | .integer value, read, room, regular, _, result => by
    rw [reread?, read?_integer, document?_integerNumeral_of_fits regular] at result
    exact (Option.some.inj result).symm
  | .double value, read, room, _, doubles, result => by
    have back : read? (compact (.double value)) = some (.double value) := doubles
    rw [reread?, back] at result
    exact (Option.some.inj result).symm
  | .text value, read, room, _, _, result => (Option.some.inj result).symm
  | .array items, read, room, regular, doubles, result => by
    rw [reread?] at result
    split at result
    · cases result
    · obtain ⟨values, inner, rfl⟩ := Option.map_eq_some_iff.mp result
      rw [eq_of_rereadItems? items values (room - 1) regular doubles inner]
  | .object entries, read, room, regular, doubles, result => by
    rw [reread?] at result
    split at result
    · cases result
    · obtain ⟨values, inner, rfl⟩ := Option.map_eq_some_iff.mp result
      rw [eq_of_rereadEntries? entries values (room - 1) regular.2 doubles inner]
      rw [Dictionary.ofEntries_of_ascending regular.1]

theorem eq_of_rereadItems? : ∀ (items read : List Json) (room : Nat), ItemsRegular items →
    ItemsAllDoubles ReadsBack items → rereadItems? room items = some read → read = items
  | [], read, room, _, _, result => (Option.some.inj result).symm
  | item :: rest, read, room, regular, doubles, result => by
    simp only [rereadItems?, Option.bind_eq_bind, Option.bind_eq_some_iff,
      Option.pure_def, Option.some.injEq] at result
    obtain ⟨first, firstRead, others, othersRead, rfl⟩ := result
    rw [eq_of_reread? item first room regular.1 doubles.1 firstRead,
      eq_of_rereadItems? rest others room regular.2 doubles.2 othersRead]

theorem eq_of_rereadEntries? : ∀ (entries read : List (String × Json)) (room : Nat),
    EntriesRegular entries → EntriesAllDoubles ReadsBack entries →
    rereadEntries? room entries = some read → read = entries
  | [], read, room, _, _, result => (Option.some.inj result).symm
  | (key, value) :: rest, read, room, regular, doubles, result => by
    simp only [rereadEntries?, Option.bind_eq_bind, Option.bind_eq_some_iff,
      Option.pure_def, Option.some.injEq] at result
    obtain ⟨first, firstRead, others, othersRead, rfl⟩ := result
    rw [eq_of_reread? value first room regular.1 doubles.1 firstRead,
      eq_of_rereadEntries? rest others room regular.2 doubles.2 othersRead]

end

section Reading

variable {σ : Type} {next : List Char → Except Problem Next} {member : σ → List Char → Read σ}

theorem Read.andThen_eq_ok {α β : Type} {read : Read α} {next : α → List Char → Read β}
    {value : β} {rest : List Char} (done : read.andThen next = .ok (value, rest)) :
    ∃ first behind, read = .ok (first, behind) ∧ next first behind = .ok (value, rest) := by
  cases read with
  | error problem => cases done
  | ok found => exact ⟨found.1, found.2, rfl, done⟩

theorem Read.mapValue_eq_ok {α β : Type} {change : α → β} {read : Read α} {value : β} {rest : List Char}
    (done : read.mapValue change = .ok (value, rest)) :
    ∃ first, read = .ok (first, rest) ∧ value = change first := by
  obtain ⟨first, behind, found, same⟩ := andThen_eq_ok done
  cases same
  exact ⟨first, found, rfl⟩

private theorem row_keeps {holds : σ → Prop}
    (each : ∀ made body after rest, holds made → member made body = .ok (after, rest) → holds after) :
    ∀ (fuel : Nat) (made : σ) (body : List Char) (after : σ) (rest : List Char), holds made →
      row next member fuel made body = .ok (after, rest) → holds after
  | 0, made, body, after, rest, _, done => nomatch done
  | fuel + 1, made, body, after, rest, held, done => by
    obtain ⟨made', behind, read, done⟩ := Read.andThen_eq_ok done
    have kept := each made body made' behind held read
    split at done
    · cases done
    · cases done
      exact kept
    · exact row_keeps each fuel made' _ after rest kept done

theorem container_keeps (holds : σ → Prop) {first : List Char → Except Problem Next}
    (each : ∀ made body after rest, holds made → member made body = .ok (after, rest) → holds after)
    {fuel : Nat} {empty after : σ} {body rest : List Char} (start : holds empty)
    (done : container first next member fuel empty body = .ok (after, rest)) : holds after := by
  unfold container at done
  split at done
  · cases done
  · cases done
    exact start
  · exact row_keeps each fuel empty _ after rest start done

theorem itemsOf_each {α : Type} {holds : α → Prop} {item : List Char → Read α}
    (each : ∀ body value rest, item body = .ok (value, rest) → holds value) {fuel : Nat}
    {items : List α} {body rest : List Char} (done : itemsOf item fuel body = .ok (items, rest)) :
    ∀ value ∈ items, holds value := by
  refine container_keeps (fun items => ∀ value ∈ items, holds value) ?_
    (fun value inside => absurd inside List.not_mem_nil) done
  intro items body after rest held read
  obtain ⟨value, found, rfl⟩ := Read.mapValue_eq_ok read
  intro other inside
  rcases List.mem_append.mp inside with old | new
  · exact held other old
  · rw [List.mem_singleton.mp new]
    exact each body value rest found

theorem entriesOf_each {α : Type} {holds : α → Prop} {value : List Char → Read α}
    (each : ∀ body found rest, value body = .ok (found, rest) → holds found) {fuel : Nat}
    {entries : List (String × α)} {body rest : List Char}
    (done : entriesOf value fuel body = .ok (entries, rest)) :
    Dictionary.Ascending entries ∧ ∀ entry ∈ entries, holds entry.2 := by
  refine container_keeps (fun entries => Dictionary.Ascending entries ∧ ∀ entry ∈ entries, holds entry.2) ?_
    ⟨Dictionary.ascending_nil, fun entry inside => absurd inside List.not_mem_nil⟩ done
  intro entries key after rest held read
  obtain ⟨name, behind, _, read⟩ := Read.andThen_eq_ok read
  obtain ⟨_, body, _, read⟩ := Read.andThen_eq_ok read
  obtain ⟨found, given, rfl⟩ := Read.mapValue_eq_ok read
  refine ⟨Dictionary.ascending_insert held.1, fun entry inside => ?_⟩
  rcases Dictionary.mem_of_mem_insert inside with rfl | old
  · exact each body found rest given
  · exact held.2 entry old

private theorem number_regular {cs rest : List Char} {json : Json} (read : number cs = .ok (json, rest)) :
    json.Regular := by
  obtain ⟨written, behind, _, read⟩ := Read.andThen_eq_ok read
  split at read
  · rename_i value found
    cases read
    rcases document?_cases written with none | ⟨y, double⟩ | ⟨_, _, _, ⟨_, whole⟩ | ⟨_, _, whole⟩⟩
    · rw [none] at found
      cases found
    · rw [double] at found
      cases found
      trivial
    all_goals
      rw [whole] at found
      cases found
      exact fitsWord_of_document? whole
  · cases read

private theorem literal_eq_ok {α : Type} {value found : α} {expected cs rest : List Char}
    (read : literal value expected cs = .ok (found, rest)) : found = value := by
  induction expected generalizing cs with
  | nil =>
    cases read
    rfl
  | cons c more ih =>
    cases cs with
    | nil => cases read
    | cons d others =>
      unfold literal at read
      split at read
      · exact ih read
      · cases read

theorem document_regular : ∀ (fuel room : Nat) (cs : List Char) (json : Json) (rest : List Char),
    document fuel room cs = .ok (json, rest) → json.Regular
  | 0, room, cs, json, rest, read => nomatch read
  | fuel + 1, room, cs, json, rest, read => by
    have inner := document_regular fuel (room - 1)
    unfold document at read
    split at read
    · cases read
    · rw [literal_eq_ok read]
      trivial
    · rw [literal_eq_ok read]
      trivial
    · rw [literal_eq_ok read]
      trivial
    · obtain ⟨text, _, rfl⟩ := Read.mapValue_eq_ok read
      trivial
    · split at read
      · cases read
      · obtain ⟨items, found, rfl⟩ := Read.mapValue_eq_ok read
        exact itemsRegular_iff.mpr (itemsOf_each inner found)
    · split at read
      · cases read
      · obtain ⟨entries, found, rfl⟩ := Read.mapValue_eq_ok read
        obtain ⟨ascending, each⟩ := entriesOf_each inner found
        exact ⟨ascending, entriesRegular_iff.mpr each⟩
    · split at read
      · exact number_regular read
      · cases read

end Reading

end ScreenStudio.Json
