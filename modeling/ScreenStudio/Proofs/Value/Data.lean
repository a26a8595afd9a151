/- digest: What becomes of a document as a value, and of data as a document. -/

import ScreenStudio.Proofs.Number.Whole
import ScreenStudio.Value.Data

/-!
A document that is turned into a value and back keeps its shape, its keys, its texts and its truth values;
only its numbers are written anew, from their doubles. An integer below `2 ^ 53` and a double that equals no
such integer are written as they were, so a second time changes nothing. Data that is turned into a document
and back is the same but for numbers that are not finite, which become null, and for the negative zero. The
identities of its arrays and objects are new, so values are compared by their contents.
-/

set_option autoImplicit false
set_option relaxedAutoImplicit false

namespace ScreenStudio

section Documents

namespace Json

mutual

/-- The document with every number, taken as a double, in another form. -/
def replaceNumbers (write : Float → Json) : Json → Json
  | .null => .null
  | .bool value => .bool value
  | .integer value => write (Number.ofInt value)
  | .double value => write value
  | .text value => .text value
  | .array items => .array (replaceItemNumbers write items)
  | .object entries => .object (replaceEntryNumbers write entries)

def replaceItemNumbers (write : Float → Json) : List Json → List Json
  | [] => []
  | item :: rest => replaceNumbers write item :: replaceItemNumbers write rest

/-- The entries under the same keys, with the numbers in another form. -/
def replaceEntryNumbers (write : Float → Json) : List (String × Json) → List (String × Json)
  | [] => []
  | (key, item) :: rest => (key, replaceNumbers write item) :: replaceEntryNumbers write rest

end

mutual

/-- A property of every integer and one of every double in a document. -/
def EveryNumber (whole : Int → Prop) (double : Float → Prop) : Json → Prop
  | .null => True
  | .bool _ => True
  | .integer value => whole value
  | .double value => double value
  | .text _ => True
  | .array items => EveryItemNumber whole double items
  | .object entries => EveryEntryNumber whole double entries

def EveryItemNumber (whole : Int → Prop) (double : Float → Prop) : List Json → Prop
  | [] => True
  | item :: rest => EveryNumber whole double item ∧ EveryItemNumber whole double rest

def EveryEntryNumber (whole : Int → Prop) (double : Float → Prop) : List (String × Json) → Prop
  | [] => True
  | (_, item) :: rest => EveryNumber whole double item ∧ EveryEntryNumber whole double rest

end

/-- The integer is written as an integer when it is written from its double. -/
def IsSmall (value : Int) : Prop := value.natAbs < 2 ^ 53

/-- The double is finite and not integral. -/
def IsFraction (value : Float) : Prop := Number.isFinite value = true ∧ Number.toInt? value = none

/-- The double is finite and equals no integer that is written as one. -/
def IsOwnForm (value : Float) : Prop :=
  Number.isFinite value = true ∧ ∀ whole, Number.toInt? value = some whole → ¬ IsSmall whole

section Numbers

theorem ofFloat_cases (value : Float) :
    (Number.isFinite value = false ∧ ofFloat value = .null) ∨
      (∃ whole, Number.toInt? value = some whole ∧ IsSmall whole ∧ ofFloat value = .integer whole) ∨
      (IsOwnForm value ∧ ofFloat value = .double value) := by
  unfold ofFloat
  split
  · rename_i finite
    split
    · rename_i whole equals
      split
      · rename_i small
        exact .inr (.inl ⟨whole, equals, small, rfl⟩)
      · rename_i large
        refine .inr (.inr ⟨⟨finite, fun other same => ?_⟩, rfl⟩)
        cases equals.symm.trans same
        exact large
    · rename_i none
      exact .inr (.inr ⟨⟨finite, fun other same => by cases none.symm.trans same⟩, rfl⟩)
  · rename_i special
    exact .inl ⟨Bool.eq_false_iff.mpr special, rfl⟩

theorem ofFloat_of_toInt? {value : Float} {whole : Int} (equals : Number.toInt? value = some whole)
    (small : IsSmall whole) : ofFloat value = .integer whole := by
  unfold ofFloat
  rw [if_pos (Number.isFinite_of_toInt? equals), equals]
  exact if_pos small

theorem ofFloat_of_isOwnForm {value : Float} (own : IsOwnForm value) : ofFloat value = .double value := by
  rcases ofFloat_cases value with ⟨special, _⟩ | ⟨whole, equals, small, _⟩ | ⟨_, is⟩
  · cases special.symm.trans own.1
  · exact absurd small (own.2 whole equals)
  · exact is

theorem IsFraction.isOwnForm {value : Float} (fraction : IsFraction value) : IsOwnForm value :=
  ⟨fraction.1, fun _ equals => by cases fraction.2.symm.trans equals⟩

theorem ofFloat_ofInt {value : Int} (small : IsSmall value) :
    ofFloat (Number.ofInt value) = .integer value :=
  ofFloat_of_toInt? (Number.toInt?_ofInt small) small

theorem ofFloat_ofInt_iff {value : Int} : ofFloat (Number.ofInt value) = .integer value ↔ IsSmall value := by
  refine ⟨fun same => ?_, ofFloat_ofInt⟩
  rcases ofFloat_cases (Number.ofInt value) with ⟨_, is⟩ | ⟨whole, _, small, is⟩ | ⟨_, is⟩
  · cases is.symm.trans same
  · cases is.symm.trans same
    exact small
  · cases is.symm.trans same

theorem ofFloat_eq_double_iff {value : Float} : ofFloat value = .double value ↔ IsOwnForm value := by
  refine ⟨fun same => ?_, ofFloat_of_isOwnForm⟩
  rcases ofFloat_cases value with ⟨_, is⟩ | ⟨whole, _, _, is⟩ | ⟨own, _⟩
  · cases is.symm.trans same
  · cases is.symm.trans same
  · exact own

theorem replaceNumbers_ofFloat (value : Float) :
    (ofFloat value).replaceNumbers ofFloat = ofFloat value := by
  rcases ofFloat_cases value with ⟨_, is⟩ | ⟨whole, _, small, is⟩ | ⟨_, is⟩
  · rw [is, replaceNumbers]
  · rw [is, replaceNumbers, ofFloat_ofInt small]
  · rw [is, replaceNumbers, is]

end Numbers

mutual

theorem replaceNumbers_twice : ∀ json : Json,
    (json.replaceNumbers ofFloat).replaceNumbers ofFloat = json.replaceNumbers ofFloat
  | .null => rfl
  | .bool _ => rfl
  | .integer _ => replaceNumbers_ofFloat _
  | .double _ => replaceNumbers_ofFloat _
  | .text _ => rfl
  | .array items => congrArg Json.array (replaceItemNumbers_twice items)
  | .object entries => congrArg Json.object (replaceEntryNumbers_twice entries)

theorem replaceItemNumbers_twice : ∀ items : List Json,
    replaceItemNumbers ofFloat (replaceItemNumbers ofFloat items) = replaceItemNumbers ofFloat items
  | [] => rfl
  | item :: rest => congrArg₂ List.cons (replaceNumbers_twice item) (replaceItemNumbers_twice rest)

theorem replaceEntryNumbers_twice : ∀ entries : List (String × Json),
    replaceEntryNumbers ofFloat (replaceEntryNumbers ofFloat entries) = replaceEntryNumbers ofFloat entries
  | [] => rfl
  | (key, item) :: rest => congrArg₂ (fun value more => (key, value) :: more) (replaceNumbers_twice item)
      (replaceEntryNumbers_twice rest)

end

mutual

/-- Exactly the documents with small integers and with doubles in their own form stay as they are. -/
theorem replaceNumbers_eq_self_iff : ∀ {json : Json},
    json.replaceNumbers ofFloat = json ↔ json.EveryNumber IsSmall IsOwnForm
  | .null => iff_of_true rfl trivial
  | .bool _ => iff_of_true rfl trivial
  | .integer _ => ofFloat_ofInt_iff
  | .double _ => ofFloat_eq_double_iff
  | .text _ => iff_of_true rfl trivial
  | .array _ => (Json.array.injEq _ _).to_iff.trans replaceItemNumbers_eq_self_iff
  | .object _ => (Json.object.injEq _ _).to_iff.trans replaceEntryNumbers_eq_self_iff

theorem replaceItemNumbers_eq_self_iff : ∀ {items : List Json},
    replaceItemNumbers ofFloat items = items ↔ EveryItemNumber IsSmall IsOwnForm items
  | [] => iff_of_true rfl trivial
  | _ :: _ => List.cons_eq_cons.trans
      (and_congr replaceNumbers_eq_self_iff replaceItemNumbers_eq_self_iff)

theorem replaceEntryNumbers_eq_self_iff : ∀ {entries : List (String × Json)},
    replaceEntryNumbers ofFloat entries = entries ↔ EveryEntryNumber IsSmall IsOwnForm entries
  | [] => iff_of_true rfl trivial
  | (_, _) :: _ => List.cons_eq_cons.trans (and_congr
      (Prod.mk_inj.trans ((and_iff_right rfl).trans replaceNumbers_eq_self_iff))
      replaceEntryNumbers_eq_self_iff)

end

mutual

theorem EveryNumber.imp {whole also : Int → Prop} {double other : Float → Prop}
    (wholes : ∀ value, whole value → also value) (doubles : ∀ value, double value → other value) :
    ∀ {json : Json}, json.EveryNumber whole double → json.EveryNumber also other
  | .null, _ => trivial
  | .bool _, _ => trivial
  | .integer value, held => wholes value held
  | .double value, held => doubles value held
  | .text _, _ => trivial
  | .array _, held => EveryItemNumber.imp wholes doubles held
  | .object _, held => EveryEntryNumber.imp wholes doubles held

theorem EveryItemNumber.imp {whole also : Int → Prop} {double other : Float → Prop}
    (wholes : ∀ value, whole value → also value) (doubles : ∀ value, double value → other value) :
    ∀ {items : List Json}, EveryItemNumber whole double items → EveryItemNumber also other items
  | [], _ => trivial
  | _ :: _, ⟨first, others⟩ => ⟨first.imp wholes doubles, others.imp wholes doubles⟩

theorem EveryEntryNumber.imp {whole also : Int → Prop} {double other : Float → Prop}
    (wholes : ∀ value, whole value → also value) (doubles : ∀ value, double value → other value) :
    ∀ {entries : List (String × Json)}, EveryEntryNumber whole double entries →
      EveryEntryNumber also other entries
  | [], _ => trivial
  | (_, _) :: _, ⟨first, others⟩ => ⟨first.imp wholes doubles, others.imp wholes doubles⟩

end

end Json

end Documents

namespace Value

mutual

/-- The document of the value of a document has its numbers written anew and is otherwise the same. -/
theorem toJson_ofJson : ∀ (json : Json) (next : Nat),
    (ofJson next json).1.toJson = .ok (json.replaceNumbers Json.ofFloat)
  | .null, _ => rfl
  | .bool _, _ => rfl
  | .integer _, _ => rfl
  | .double _, _ => rfl
  | .text _, _ => rfl
  | .array items, next => by
    rw [ofJson, toJson, itemsToJson_ofItems items (next + 1)]
    rfl
  | .object entries, next => by
    rw [ofJson, toJson, entriesToJson_ofEntries entries (next + 1)]
    rfl

theorem itemsToJson_ofItems : ∀ (items : List Json) (next : Nat),
    itemsToJson (ofItems next items).1 = .ok (Json.replaceItemNumbers Json.ofFloat items)
  | [], _ => rfl
  | item :: rest, next => by
    rw [ofItems, itemsToJson, toJson_ofJson item next, itemsToJson_ofItems rest]
    rfl

theorem entriesToJson_ofEntries : ∀ (entries : List (String × Json)) (next : Nat),
    entriesToJson (ofEntries next entries).1 = .ok (Json.replaceEntryNumbers Json.ofFloat entries)
  | [], _ => rfl
  | (key, item) :: rest, next => by
    rw [ofEntries, entriesToJson, toJson_ofJson item next, entriesToJson_ofEntries rest]
    rfl

end

mutual

/-- No function and no node occurs in the value. -/
def IsData : Value → Prop
  | .null => True
  | .bool _ => True
  | .number _ => True
  | .text _ => True
  | .array _ items => ItemsAreData items
  | .object _ entries => EntriesAreData entries
  | .function _ => False
  | .builtin _ => False
  | .adder _ => False
  | .node _ _ => False

def ItemsAreData : List Value → Prop
  | [] => True
  | item :: rest => item.IsData ∧ ItemsAreData rest

def EntriesAreData : List (String × Value) → Prop
  | [] => True
  | (_, item) :: rest => item.IsData ∧ EntriesAreData rest

end

/-- A number that is finite and not the negative zero, null or zero for the others. -/
def settledNumber (value : Float) : Value :=
  if Number.isFinite value then if value = -0 then .number 0 else .number value else .null

mutual

/-- The value with null for numbers that are not finite, and zero for the negative zero. -/
def settled : Value → Value
  | .number value => settledNumber value
  | .array identity items => .array identity (settledItems items)
  | .object identity entries => .object identity (settledEntries entries)
  | other => other

def settledItems : List Value → List Value
  | [] => []
  | item :: rest => item.settled :: settledItems rest

def settledEntries : List (String × Value) → List (String × Value)
  | [] => []
  | (key, item) :: rest => (key, item.settled) :: settledEntries rest

end

mutual

/-- The value with one identity for all its arrays and objects, so that only what they hold counts. -/
def content : Value → Value
  | .array _ items => .array 0 (contentItems items)
  | .object _ entries => .object 0 (contentEntries entries)
  | other => other

def contentItems : List Value → List Value
  | [] => []
  | item :: rest => item.content :: contentItems rest

def contentEntries : List (String × Value) → List (String × Value)
  | [] => []
  | (key, item) :: rest => (key, item.content) :: contentEntries rest

end

/-- A number that is written and read is the same, null if it is not finite, zero if it is a zero. -/
theorem ofJson_ofFloat (value : Float) (next : Nat) :
    ofJson next (Json.ofFloat value) = (settledNumber value, next) := by
  unfold settledNumber
  rcases Json.ofFloat_cases value with ⟨special, is⟩ | ⟨whole, equals, small, is⟩ | ⟨own, is⟩
  · rw [is, if_neg (Bool.eq_false_iff.mp special)]
    rfl
  · rw [is, if_pos (Number.isFinite_of_toInt? equals)]
    show (Value.number (Number.ofInt whole), next) = _
    by_cases zero : whole = 0
    · subst zero
      have plain : Number.ofInt 0 = 0 := by decide +kernel
      rw [plain]
      rcases Number.eq_zero_of_toInt? equals with rfl | rfl
      · rw [if_neg (by decide +kernel)]
      · rw [if_pos rfl]
    · have back := Number.ofInt_of_toInt? equals zero small
      rw [back, if_neg]
      rintro rfl
      exact zero (Option.some.inj (equals.symm.trans (by decide +kernel)))
  · have noZero : value ≠ -0 := by
      rintro rfl
      exact own.2 0 (by decide +kernel) (show (0 : Int).natAbs < 2 ^ 53 by decide)
    rw [is, if_pos own.1, if_neg noZero]
    rfl

mutual

theorem IsData.ofJson_toJson : ∀ {value : Value}, value.IsData →
    ∃ json, value.toJson = .ok json ∧ ∀ next, (ofJson next json).1.content = value.settled.content
  | .null, _ => ⟨_, rfl, fun _ => rfl⟩
  | .bool _, _ => ⟨_, rfl, fun _ => rfl⟩
  | .number value, _ => ⟨_, rfl, fun next => by rw [ofJson_ofFloat]; rfl⟩
  | .text _, _ => ⟨_, rfl, fun _ => rfl⟩
  | .array identity items, data => by
    obtain ⟨documents, written, read⟩ := @ItemsAreData.ofItems_itemsToJson items data
    refine ⟨.array documents, ?_, fun next => ?_⟩
    · rw [toJson, written]
      rfl
    · rw [ofJson, settled, content, content, read]
  | .object identity entries, data => by
    obtain ⟨documents, written, read⟩ := @EntriesAreData.ofEntries_entriesToJson entries data
    refine ⟨.object documents, ?_, fun next => ?_⟩
    · rw [toJson, written]
      rfl
    · rw [ofJson, settled, content, content, read]

theorem ItemsAreData.ofItems_itemsToJson : ∀ {items : List Value}, ItemsAreData items →
    ∃ documents, itemsToJson items = .ok documents ∧
      ∀ next, contentItems (ofItems next documents).1 = contentItems (settledItems items)
  | [], _ => ⟨[], rfl, fun _ => rfl⟩
  | item :: rest, ⟨first, others⟩ => by
    obtain ⟨json, written, read⟩ := first.ofJson_toJson
    obtain ⟨more, writtenMore, readMore⟩ := others.ofItems_itemsToJson
    refine ⟨json :: more, ?_, fun next => ?_⟩
    · rw [itemsToJson, written, writtenMore]
      rfl
    · rw [ofItems, settledItems, contentItems, contentItems, read, readMore]

theorem EntriesAreData.ofEntries_entriesToJson : ∀ {entries : List (String × Value)},
    EntriesAreData entries → ∃ documents, entriesToJson entries = .ok documents ∧
      ∀ next, contentEntries (ofEntries next documents).1 = contentEntries (settledEntries entries)
  | [], _ => ⟨[], rfl, fun _ => rfl⟩
  | (key, item) :: rest, ⟨first, others⟩ => by
    obtain ⟨json, written, read⟩ := first.ofJson_toJson
    obtain ⟨more, writtenMore, readMore⟩ := others.ofEntries_entriesToJson
    refine ⟨(key, json) :: more, ?_, fun next => ?_⟩
    · rw [entriesToJson, written, writtenMore]
      rfl
    · rw [ofEntries, settledEntries, contentEntries, contentEntries, read, readMore]

end

/-- Documents pass through values. What comes out has the same shape with every number written anew, which
is the document itself exactly if its integers are small and its doubles are not equal to small integers,
and passes through a second time as it is. Data becomes a document, and that becomes the same data again but
for numbers that no document holds. -/
theorem documents_pass_through_values :
    (∀ (json : Json) (next : Nat), (ofJson next json).1.toJson = .ok (json.replaceNumbers Json.ofFloat)) ∧
    (∀ (json : Json) (next : Nat), json.EveryNumber Json.IsSmall Json.IsFraction →
      (ofJson next json).1.toJson = .ok json) ∧
    (∀ (json : Json) (next : Nat), (ofJson next json).1.toJson = .ok json ↔
      json.EveryNumber Json.IsSmall Json.IsOwnForm) ∧
    (∀ (json passed : Json) (next later : Nat), (ofJson next json).1.toJson = .ok passed →
      (ofJson later passed).1.toJson = .ok passed) ∧
    (∀ value : Value, value.IsData → ∃ json, value.toJson = .ok json ∧
      ∀ next, (ofJson next json).1.content = value.settled.content) := by
  have unchanged : ∀ (json : Json) (next : Nat), (ofJson next json).1.toJson = .ok json ↔
      json.EveryNumber Json.IsSmall Json.IsOwnForm := by
    intro json next
    rw [toJson_ofJson, Except.ok.injEq]
    exact Json.replaceNumbers_eq_self_iff
  refine ⟨toJson_ofJson, ?_, unchanged, ?_, fun _ data => data.ofJson_toJson⟩
  · intro json next fractions
    exact (unchanged json next).mpr
      (fractions.imp (fun _ small => small) fun _ fraction => fraction.isOwnForm)
  · intro json passed next later through
    rw [toJson_ofJson] at through
    cases through
    rw [toJson_ofJson, Json.replaceNumbers_twice]

end Value

end ScreenStudio
