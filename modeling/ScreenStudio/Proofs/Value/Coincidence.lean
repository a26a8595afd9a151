/- digest: Values that can be told apart only by what their functions do not read. -/

import Mathlib.Data.List.Forall2
import ScreenStudio.Proofs.Source.FreeNames
import ScreenStudio.Proofs.Value.InStep

set_option autoImplicit false
set_option relaxedAutoImplicit false

namespace ScreenStudio

open Source (Span Body Expression Occurrence freeAmong)

/-- The values are the same up to the renaming, and up to bindings that their functions do not read. -/
inductive Value.Coincides (relabel : Nat → Nat) : Value → Value → Prop
  | null : Coincides relabel .null .null
  | bool (value : Bool) : Coincides relabel (.bool value) (.bool value)
  | number (value : Float) : Coincides relabel (.number value) (.number value)
  | text (value : String) : Coincides relabel (.text value) (.text value)
  | array (identity : Nat) {items others : List Value}
    (each : List.Forall₂ (Coincides relabel) items others) :
    Coincides relabel (.array identity items) (.array (relabel identity) others)
  | object (identity : Nat) {entries others : List (String × Value)}
    (each : Dictionary.Related (Coincides relabel) entries others) :
    Coincides relabel (.object identity entries) (.object (relabel identity) others)
  | function (span : Span) (parameters : List String) (body : Body) {scope other : Scope}
    (agree : ∀ name ∈ (Expression.arrow span parameters body).freeNames,
      Option.Rel (Coincides relabel) (Scope.lookup? name scope) (Scope.lookup? name other)) :
    Coincides relabel (.function ⟨span, parameters, body, scope⟩)
      (.function ⟨span, parameters, body, other⟩)

/-- The names are bound to values that coincide, or unbound in both scopes. -/
def Scope.AgreeOn (relabel : Nat → Nat) (names : List String) (scope other : Scope) : Prop :=
  ∀ name ∈ names,
    Option.Rel (Value.Coincides relabel) (Scope.lookup? name scope) (Scope.lookup? name other)

variable {relabel : Nat → Nat}

namespace Scope

variable {names : List String} {scope other : Scope}

/-- Scopes agree on what is free in a whole if and only if they do so on what is free in its parts. -/
theorem agreeOn_append {first second : List Occurrence} :
    AgreeOn relabel (freeAmong (first ++ second)) scope other ↔
      AgreeOn relabel (freeAmong first) scope other ∧ AgreeOn relabel (freeAmong second) scope other := by
  rw [Source.freeAmong_append]
  exact List.forall_mem_append

theorem AgreeOn.bind {bound : String} {one two : Value} (coincide : one.Coincides relabel two)
    (agree : ∀ name ∈ names, name ≠ bound →
      Option.Rel (Value.Coincides relabel) (Scope.lookup? name scope) (Scope.lookup? name other)) :
    AgreeOn relabel names (Scope.bind bound one scope) (Scope.bind bound two other) := by
  intro name member
  by_cases same : bound = name
  · rw [Scope.bind, Scope.bind, lookup?, lookup?, if_pos same, if_pos same]
    exact .some coincide
  · rw [Scope.bind, Scope.bind, lookup?, lookup?, if_neg same, if_neg same]
    exact agree name member fun equal => same equal.symm

end Scope

namespace Value

section Observations

variable {one two : Value}

theorem Coincides.kind (coincide : one.Coincides relabel two) : two.kind = one.kind := by
  cases coincide <;> rfl

theorem Coincides.isCallable (coincide : one.Coincides relabel two) :
    two.isCallable = one.isCallable := by
  rw [Value.isCallable, Value.isCallable, coincide.kind]

theorem Coincides.isTruthy (coincide : one.Coincides relabel two) : two.isTruthy = one.isTruthy := by
  cases coincide <;> rfl

theorem Coincides.toNumber (coincide : one.Coincides relabel two) : two.toNumber = one.toNumber := by
  cases coincide <;> rfl

mutual

theorem Coincides.display : ∀ {one two : Value}, one.Coincides relabel two → two.display = one.display
  | .null, _, coincide => by cases coincide; rfl
  | .bool _, _, coincide => by cases coincide; rfl
  | .number _, _, coincide => by cases coincide; rfl
  | .text _, _, coincide => by cases coincide; rfl
  | .array _ items, _, coincide => by
    cases coincide with
    | array _ each => rw [Value.display, Value.display, displayItems_of_coincide each]
  | .object _ _, _, coincide => by cases coincide; rfl
  | .function _, _, coincide => by cases coincide; rfl
  | .builtin _, _, coincide => by cases coincide
  | .adder _, _, coincide => by cases coincide
  | .node _ _, _, coincide => by cases coincide

theorem displayItems_of_coincide : ∀ {items others : List Value},
    List.Forall₂ (Coincides relabel) items others → displayItems others = displayItems items
  | [], _, each => by cases each; rfl
  | item :: rest, _, each => by
    cases each with
    | cons first others =>
      have own := Coincides.display first
      have behind := displayItems_of_coincide others
      cases first <;> simp_all [displayItems]

end

mutual

theorem Coincides.toJson : ∀ {one two : Value}, one.Coincides relabel two → two.toJson = one.toJson
  | .null, _, coincide => by cases coincide; rfl
  | .bool _, _, coincide => by cases coincide; rfl
  | .number _, _, coincide => by cases coincide; rfl
  | .text _, _, coincide => by cases coincide; rfl
  | .array _ items, _, coincide => by
    cases coincide with
    | array _ each => rw [Value.toJson, Value.toJson, itemsToJson_of_coincide each]
  | .object _ entries, _, coincide => by
    cases coincide with
    | object _ each => rw [Value.toJson, Value.toJson, entriesToJson_of_coincide each]
  | .function _, _, coincide => by cases coincide; rfl
  | .builtin _, _, coincide => by cases coincide
  | .adder _, _, coincide => by cases coincide
  | .node _ _, _, coincide => by cases coincide

theorem itemsToJson_of_coincide : ∀ {items others : List Value},
    List.Forall₂ (Coincides relabel) items others → itemsToJson others = itemsToJson items
  | [], _, each => by cases each; rfl
  | item :: rest, _, each => by
    cases each with
    | cons first others =>
      rw [itemsToJson, itemsToJson, Coincides.toJson first, itemsToJson_of_coincide others]

theorem entriesToJson_of_coincide : ∀ {entries others : List (String × Value)},
    Dictionary.Related (Coincides relabel) entries others → entriesToJson others = entriesToJson entries
  | [], _, each => by cases each; rfl
  | (_, item) :: rest, _, each => by
    cases each with
    | cons _ first others =>
      rw [entriesToJson, entriesToJson, Coincides.toJson first, entriesToJson_of_coincide others]

end

/-- Values that coincide are the same as others that coincide, or differ from these, in the same way. -/
theorem Coincides.same (injective : ∀ {a b}, relabel a = relabel b → a = b) {a b c d : Value}
    (left : a.Coincides relabel b) (right : c.Coincides relabel d) : b.same d = a.same c := by
  cases left <;> cases right <;> first | rfl | exact beq_of_injective injective _ _

end Observations

section Documents

variable {start other stop : Nat}

/-- Below `stop`, the identities counted from `start` are renamed to the ones counted from `other`. -/
def CountsOn (relabel : Nat → Nat) (start other stop : Nat) : Prop :=
  ∀ count, start + count < stop → relabel (start + count) = other + count

theorem CountsOn.mono {lower : Nat} (counts : CountsOn relabel start other stop) (le : lower ≤ stop) :
    CountsOn relabel start other lower :=
  fun count less => counts count (Nat.lt_of_lt_of_le less le)

theorem CountsOn.onward {middle reached : Nat} (counts : CountsOn relabel start other stop)
    (le : start ≤ middle) (same : reached + start = other + middle) :
    CountsOn relabel middle reached stop := by
  intro count less
  obtain ⟨ahead, rfl⟩ := Nat.exists_eq_add_of_le le
  have here : relabel (start + (ahead + count)) = other + (ahead + count) := counts _ (by omega)
  rw [Nat.add_assoc, here]
  omega

mutual

/-- The values of a document coincide where their identities are counted alike, and take as many. -/
theorem ofJson_coincide : ∀ (json : Json) {start other : Nat},
    CountsOn relabel start other (ofJson start json).2 →
      (ofJson start json).1.Coincides relabel (ofJson other json).1 ∧
        (ofJson other json).2 + start = other + (ofJson start json).2
  | .null, _, _, _ => ⟨.null, rfl⟩
  | .bool value, _, _, _ => ⟨.bool value, rfl⟩
  | .integer value, _, _, _ => ⟨.number _, rfl⟩
  | .double value, _, _, _ => ⟨.number value, rfl⟩
  | .text value, _, _, _ => ⟨.text value, rfl⟩
  | .array items, start, other, counts => by
    have reached : start + 1 ≤ (ofItems (start + 1) items).2 := (ofItems_below items (start + 1)).1
    have own : relabel start = other := counts 0 reached
    obtain ⟨each, far⟩ := ofItems_coincide items
      (counts.onward (Nat.le_succ start) (by omega : other + 1 + start = other + (start + 1)))
    refine ⟨?_, ?_⟩
    · have whole := Coincides.array start each
      rw [own] at whole
      exact whole
    · rw [ofJson, ofJson]
      dsimp only
      omega
  | .object entries, start, other, counts => by
    have reached : start + 1 ≤ (ofEntries (start + 1) entries).2 :=
      (ofEntries_below entries (start + 1)).1
    have own : relabel start = other := counts 0 reached
    obtain ⟨each, far⟩ := ofEntries_coincide entries
      (counts.onward (Nat.le_succ start) (by omega : other + 1 + start = other + (start + 1)))
    refine ⟨?_, ?_⟩
    · have whole := Coincides.object start each
      rw [own] at whole
      exact whole
    · rw [ofJson, ofJson]
      dsimp only
      omega

theorem ofItems_coincide : ∀ (items : List Json) {start other : Nat},
    CountsOn relabel start other (ofItems start items).2 →
      List.Forall₂ (Coincides relabel) (ofItems start items).1 (ofItems other items).1 ∧
        (ofItems other items).2 + start = other + (ofItems start items).2
  | [], _, _, _ => ⟨.nil, rfl⟩
  | item :: rest, start, other, counts => by
    have le := (ofJson_below item start).1
    have further := (ofItems_below rest (ofJson start item).2).1
    obtain ⟨first, far⟩ := ofJson_coincide item (counts.mono further)
    obtain ⟨others, last⟩ := ofItems_coincide rest (counts.onward le far)
    refine ⟨.cons first others, ?_⟩
    rw [ofItems, ofItems]
    dsimp only
    omega

theorem ofEntries_coincide : ∀ (entries : List (String × Json)) {start other : Nat},
    CountsOn relabel start other (ofEntries start entries).2 →
      Dictionary.Related (Coincides relabel) (ofEntries start entries).1 (ofEntries other entries).1 ∧
        (ofEntries other entries).2 + start = other + (ofEntries start entries).2
  | [], _, _, _ => ⟨.nil, rfl⟩
  | (key, item) :: rest, start, other, counts => by
    have le := (ofJson_below item start).1
    have further := (ofEntries_below rest (ofJson start item).2).1
    obtain ⟨first, far⟩ := ofJson_coincide item (counts.mono further)
    obtain ⟨others, last⟩ := ofEntries_coincide rest (counts.onward le far)
    refine ⟨.cons key first others, ?_⟩
    rw [ofEntries, ofEntries]
    dsimp only
    omega

end

end Documents

end Value

end ScreenStudio
