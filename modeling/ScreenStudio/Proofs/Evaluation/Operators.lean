/- digest: Properties of values that operators, members, indices and the binding of arguments keep. -/

import ScreenStudio.Evaluation.Evaluator
import ScreenStudio.Proofs.Dictionary

set_option autoImplicit false
set_option relaxedAutoImplicit false

namespace ScreenStudio.Evaluation

open Source (Span Literal)

/-- Null, truth values, numbers and texts have the property, and what stands in an array or an object that
has it has it too. -/
structure Hereditary (holds : Value → Prop) : Prop where
  null : holds .null
  bool : ∀ value, holds (.bool value)
  number : ∀ value, holds (.number value)
  text : ∀ value, holds (.text value)
  item : ∀ {identity items}, holds (.array identity items) → ∀ item ∈ items, holds item
  entry : ∀ {identity entries}, holds (.object identity entries) → ∀ entry ∈ entries, holds entry.2

theorem bindParameters_eq (scope : Scope) (parameters : List String) (arguments : List Value) :
    bindParameters scope parameters arguments =
      (parameters.zipIdx.map (fun entry => (entry.1, arguments[entry.2]?.getD .null))).reverse ++ scope := by
  induction parameters generalizing scope arguments with
  | nil => cases arguments <;> rfl
  | cons parameter rest ih =>
    rw [List.zipIdx_cons, List.map_cons, List.reverse_cons, List.append_assoc, Nat.zero_add,
      List.zipIdx_succ, List.map_map]
    cases arguments with
    | nil => exact ih (Scope.bind parameter .null scope) []
    | cons argument others => exact ih (Scope.bind parameter argument scope) others

namespace Hereditary

variable {holds : Value → Prop} (hereditary : Hereditary holds)

include hereditary

theorem literalValue (literal : Literal) : holds (literalValue literal) := by
  cases literal with
  | number value => exact hereditary.number value
  | text value => exact hereditary.text value
  | bool value => exact hereditary.bool value
  | null => exact hereditary.null

theorem applyUnary (operator : Source.UnaryOperator) (operand : Value) :
    holds (applyUnary operator operand) := by
  cases operator with
  | not => exact hereditary.bool _
  | negate => exact hereditary.number _

theorem applyBinary (operator : Source.BinaryOperator) {a b : Value} (left : holds a)
    (right : holds b) : holds (applyBinary operator a b) := by
  unfold Evaluation.applyBinary
  cases operator with
  | or | and => dsimp only; split <;> assumption
  | add =>
    dsimp only
    split
    · exact hereditary.number _
    · exact hereditary.text _
  | subtract | multiply | divide | remainder => exact hereditary.number _
  | _ => exact hereditary.bool _

theorem getD {found : Option Value} (held : ∀ value, found = some value → holds value) :
    holds (found.getD .null) := by
  cases found with
  | none => exact hereditary.null
  | some value => exact held value rfl

theorem memberOf {target : Value} (held : holds target) (property : String) (span : Span) :
    memberOf target property span = Run.fail span (.memberOfNull property) ∨
      ∃ value, holds value ∧ memberOf target property span = Run.succeed value := by
  have length : ∀ count, holds (if property = "length" then .number count else .null) := by
    intro count
    split
    · exact hereditary.number _
    · exact hereditary.null
  cases target with
  | null => exact .inl rfl
  | object identity entries =>
    refine .inr ⟨_, hereditary.getD (fun value found => ?_), rfl⟩
    exact hereditary.entry held _ (Dictionary.mem_of_get? found)
  | array identity items => exact .inr ⟨_, length _, rfl⟩
  | text content => exact .inr ⟨_, length _, rfl⟩
  | _ => exact .inr ⟨_, hereditary.null, rfl⟩

theorem indexOf {target : Value} (held : holds target) (key : Value) (span : Span) :
    indexOf target key span = Run.fail span (.memberOfNull key.display) ∨
      ∃ value, holds value ∧ indexOf target key span = Run.succeed value := by
  unfold Evaluation.indexOf
  split
  · refine .inr ⟨_, hereditary.getD (fun value found => ?_), rfl⟩
    obtain ⟨index, _, item⟩ := Option.bind_eq_some_iff.mp found
    exact hereditary.item held value (List.mem_of_getElem? item)
  · refine .inr ⟨_, ?_, rfl⟩
    cases (position? _).bind _ with
    | none => exact hereditary.null
    | some character => exact hereditary.text _
  · exact hereditary.memberOf held _ _

theorem bindParameters {scope : Scope} {parameters : List String} {arguments : List Value}
    (bound : ∀ binding ∈ scope, holds binding.2) (held : ∀ argument ∈ arguments, holds argument) :
    ∀ binding ∈ bindParameters scope parameters arguments, holds binding.2 := by
  intro binding member
  rw [bindParameters_eq] at member
  obtain own | captured := List.mem_append.mp member
  · obtain ⟨parameter, _, rfl⟩ := List.mem_map.mp (List.mem_reverse.mp own)
    exact hereditary.getD (fun value found => held value (List.mem_of_getElem? found))
  · exact bound binding captured

end Hereditary

end ScreenStudio.Evaluation
