/- digest: Values without builtins, adders and nodes, and the documents they come from and make. -/

import ScreenStudio.Value.Data
import ScreenStudio.Proofs.Json.Document

set_option autoImplicit false
set_option relaxedAutoImplicit false

namespace ScreenStudio

mutual

/-- No builtin, adder or node occurs in the value, and the keys of its objects ascend. -/
def Value.Confined : Value → Prop
  | .null => True
  | .bool _ => True
  | .number _ => True
  | .text _ => True
  | .array _ items => Value.ItemsConfined items
  | .object _ entries => Dictionary.Ascending entries ∧ Value.EntriesConfined entries
  | .function closure => closure.Confined
  | .builtin _ => False
  | .adder _ => False
  | .node _ _ => False

/-- Every item is confined. -/
def Value.ItemsConfined : List Value → Prop
  | [] => True
  | item :: rest => item.Confined ∧ Value.ItemsConfined rest

/-- Every value of the entries is confined. -/
def Value.EntriesConfined : List (String × Value) → Prop
  | [] => True
  | (_, value) :: rest => value.Confined ∧ Value.EntriesConfined rest

/-- Every binding that the closure can see is confined. -/
def Closure.Confined : Closure → Prop
  | .mk _ _ _ scope => Value.EntriesConfined scope

end

namespace Value

theorem itemsConfined_iff {items : List Value} :
    ItemsConfined items ↔ ∀ item ∈ items, item.Confined := by
  induction items with
  | nil => simp [ItemsConfined]
  | cons item rest ih => simp [ItemsConfined, ih]

theorem entriesConfined_iff {entries : List (String × Value)} :
    EntriesConfined entries ↔ ∀ entry ∈ entries, entry.2.Confined := by
  induction entries with
  | nil => simp [EntriesConfined]
  | cons entry rest ih => simp [EntriesConfined, ih]

theorem lookup?_eq_get? (name : String) (scope : Scope) :
    Scope.lookup? name scope = Dictionary.get? name scope := by
  induction scope with
  | nil => rfl
  | cons entry rest ih =>
    unfold Scope.lookup? Dictionary.get?
    rw [ih]

private theorem keys_ofEntries (entries : List (String × Json)) (next : Nat) :
    (ofEntries next entries).1.map Prod.fst = entries.map Prod.fst := by
  induction entries generalizing next with
  | nil => rfl
  | cons entry rest ih =>
    obtain ⟨key, item⟩ := entry
    show key :: _ = key :: _
    rw [ih]

private theorem itemsToJson_cons {item : Value} {rest : List Value} {documents : List Json}
    (converted : itemsToJson (item :: rest) = .ok documents) :
    ∃ json more, toJson item = .ok json ∧ itemsToJson rest = .ok more ∧ documents = json :: more := by
  rw [itemsToJson] at converted
  cases first : toJson item with
  | error kind =>
    rw [first] at converted
    cases converted
  | ok json =>
    cases others : itemsToJson rest with
    | error kind =>
      rw [first, others] at converted
      cases converted
    | ok more =>
      rw [first, others] at converted
      cases converted
      exact ⟨json, more, rfl, rfl, rfl⟩

private theorem entriesToJson_cons {key : String} {item : Value} {rest : List (String × Value)}
    {documents : List (String × Json)}
    (converted : entriesToJson ((key, item) :: rest) = .ok documents) :
    ∃ json more, toJson item = .ok json ∧ entriesToJson rest = .ok more ∧
      documents = (key, json) :: more := by
  rw [entriesToJson] at converted
  cases first : toJson item with
  | error kind =>
    rw [first] at converted
    cases converted
  | ok json =>
    cases others : entriesToJson rest with
    | error kind =>
      rw [first, others] at converted
      cases converted
    | ok more =>
      rw [first, others] at converted
      cases converted
      exact ⟨json, more, rfl, rfl, rfl⟩

private theorem keys_entriesToJson {entries : List (String × Value)}
    {documents : List (String × Json)} (converted : entriesToJson entries = .ok documents) :
    documents.map Prod.fst = entries.map Prod.fst := by
  induction entries generalizing documents with
  | nil =>
    cases converted
    rfl
  | cons entry rest ih =>
    obtain ⟨key, item⟩ := entry
    obtain ⟨json, more, _, others, rfl⟩ := entriesToJson_cons converted
    rw [List.map_cons, List.map_cons, ih others]

theorem regular_ofFloat (value : Float) : (Json.ofFloat value).Regular := by
  unfold Json.ofFloat
  split
  · split
    · split
      · rename_i whole _ small
        show Json.FitsWord whole
        unfold Json.FitsWord
        omega
      · trivial
    · trivial
  · trivial

mutual

theorem confined_ofJson : ∀ (json : Json) (next : Nat), json.Regular →
    (ofJson next json).1.Confined
  | .null, _, _ => trivial
  | .bool _, _, _ => trivial
  | .integer _, _, _ => trivial
  | .double _, _, _ => trivial
  | .text _, _, _ => trivial
  | .array items, next, regular => confined_ofItems items (next + 1) regular
  | .object entries, next, regular => by
    refine ⟨?_, confined_ofEntries entries (next + 1) regular.2⟩
    unfold Dictionary.Ascending
    rw [keys_ofEntries]
    exact regular.1

theorem confined_ofItems : ∀ (items : List Json) (next : Nat), Json.ItemsRegular items →
    ItemsConfined (ofItems next items).1
  | [], _, _ => trivial
  | item :: rest, next, regular =>
    ⟨confined_ofJson item next regular.1, confined_ofItems rest _ regular.2⟩

theorem confined_ofEntries : ∀ (entries : List (String × Json)) (next : Nat),
    Json.EntriesRegular entries → EntriesConfined (ofEntries next entries).1
  | [], _, _ => trivial
  | (_, item) :: rest, next, regular =>
    ⟨confined_ofJson item next regular.1, confined_ofEntries rest _ regular.2⟩

end

mutual

theorem regular_toJson : ∀ (value : Value) (json : Json), value.Confined →
    toJson value = .ok json → json.Regular
  | .null, json, _, converted => by cases converted; trivial
  | .bool value, json, _, converted => by cases converted; trivial
  | .number value, json, _, converted => by cases converted; exact regular_ofFloat value
  | .text value, json, _, converted => by cases converted; trivial
  | .array _ items, json, confined, converted => by
    rw [toJson] at converted
    cases inner : itemsToJson items with
    | error kind =>
      rw [inner] at converted
      cases converted
    | ok documents =>
      rw [inner] at converted
      cases converted
      exact regular_itemsToJson items documents confined inner
  | .object _ entries, json, confined, converted => by
    rw [toJson] at converted
    cases inner : entriesToJson entries with
    | error kind =>
      rw [inner] at converted
      cases converted
    | ok documents =>
      rw [inner] at converted
      cases converted
      refine ⟨?_, regular_entriesToJson entries documents confined.2 inner⟩
      unfold Dictionary.Ascending
      rw [keys_entriesToJson inner]
      exact confined.1
  | .function _, json, _, converted => by cases converted
  | .builtin _, json, _, converted => by cases converted
  | .adder _, json, _, converted => by cases converted
  | .node _ _, json, _, converted => by cases converted

theorem regular_itemsToJson : ∀ (items : List Value) (documents : List Json), ItemsConfined items →
    itemsToJson items = .ok documents → Json.ItemsRegular documents
  | [], documents, _, converted => by cases converted; trivial
  | item :: rest, documents, confined, converted => by
    obtain ⟨json, more, first, others, rfl⟩ := itemsToJson_cons converted
    exact ⟨regular_toJson item json confined.1 first,
      regular_itemsToJson rest more confined.2 others⟩

theorem regular_entriesToJson : ∀ (entries : List (String × Value))
    (documents : List (String × Json)), EntriesConfined entries →
    entriesToJson entries = .ok documents → Json.EntriesRegular documents
  | [], documents, _, converted => by cases converted; trivial
  | (key, item) :: rest, documents, confined, converted => by
    obtain ⟨json, more, first, others, rfl⟩ := entriesToJson_cons converted
    exact ⟨regular_toJson item json confined.1 first,
      regular_entriesToJson rest more confined.2 others⟩

end

end Value

end ScreenStudio
