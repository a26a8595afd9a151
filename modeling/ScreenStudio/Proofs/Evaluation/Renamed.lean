/- digest: Operators, expressions and statements take what is renamed to what is renamed. -/

import ScreenStudio.Proofs.Evaluation.Alike
import ScreenStudio.Proofs.Evaluation.Operators

set_option autoImplicit false
set_option relaxedAutoImplicit false

namespace ScreenStudio.Evaluation

open Source (Span Literal Expression Statement Body)
open Run (alike_bind alike_fail alike_succeed)

variable {map : Renaming} {unread : Unread map} {bound : Nat}

section Operators

variable (relabel : Nat → Nat)

private theorem rename_literalValue (literal : Literal) :
    (literalValue literal).rename relabel = literalValue literal := by
  cases literal <;> rfl

private theorem callName_rename (callee : Expression) (function : Value) :
    callName callee (function.rename relabel) = callName callee function := by
  cases function <;> cases callee <;> rfl

private theorem isPlain_rename (value : Value) : isPlain (value.rename relabel) = isPlain value := by
  cases value <;> rfl

private theorem less_rename (a b : Value) : less (a.rename relabel) (b.rename relabel) = less a b := by
  cases a <;> cases b <;> rfl

private theorem lessOrEqual_rename (a b : Value) :
    lessOrEqual (a.rename relabel) (b.rename relabel) = lessOrEqual a b := by
  cases a <;> cases b <;> rfl

private theorem applyUnary_rename (operator : Source.UnaryOperator) (operand : Value) :
    applyUnary operator (operand.rename relabel) = (applyUnary operator operand).rename relabel := by
  cases operator <;> simp [applyUnary, Value.rename]

variable {relabel}

private theorem applyBinary_rename (injective : ∀ {a b}, relabel a = relabel b → a = b)
    (operator : Source.BinaryOperator) (a b : Value) :
    applyBinary operator (a.rename relabel) (b.rename relabel) =
      (applyBinary operator a b).rename relabel := by
  have same := Value.same_rename injective a b
  cases operator <;> simp [applyBinary, Value.rename, same, isPlain_rename, less_rename,
    lessOrEqual_rename] <;> split <;> rfl

theorem hereditary_below : Hereditary (Value.Below bound) where
  null := trivial
  bool _ := trivial
  number _ := trivial
  text _ := trivial
  item below := Value.itemsBelow_iff.mp below.2
  entry below := Value.entriesBelow_iff.mp below.2

theorem alike_value {value : Value} (below : value.Below bound) :
    Run.Alike unread bound (.value map) (Run.succeed value) (Run.succeed (value.rename map.relabel)) :=
  alike_succeed ⟨below, rfl⟩

private theorem alike_getD {found : Option Value}
    (below : ∀ value, found = some value → value.Below bound) :
    Run.Alike unread bound (.value map) (Run.succeed (found.getD .null))
      (Run.succeed ((found.map (Value.rename map.relabel)).getD .null)) := by
  cases found with
  | none => exact alike_value trivial
  | some value => exact alike_value (below value rfl)

private theorem length_renameItems (relabel : Nat → Nat) (items : List Value) :
    (Value.renameItems relabel items).length = items.length := by
  rw [Value.renameItems_eq_map, List.length_map]

private theorem alike_memberOf {target : Value} (below : target.Below bound) (property : String)
    (span : Span) :
    Run.Alike unread bound (.value map) (memberOf target property span)
      (memberOf (target.rename map.relabel) property span) := by
  have constant : ∀ value : Value, value.rename map.relabel = value → value.Below bound →
      Run.Alike unread bound (.value map) (Run.succeed value) (Run.succeed value) :=
    fun value same held => alike_succeed ⟨held, same.symm⟩
  cases target with
  | null => exact alike_fail _ _
  | object identity entries =>
    unfold memberOf Value.rename
    dsimp only
    rw [Value.get?_renameEntries]
    exact alike_getD (fun value found => Value.below_get? below.2 found)
  | array identity items =>
    unfold memberOf Value.rename
    dsimp only
    rw [length_renameItems]
    split
    · exact constant _ rfl trivial
    · exact constant _ rfl trivial
  | text content =>
    unfold memberOf Value.rename
    dsimp only
    split
    · exact constant _ rfl trivial
    · exact constant _ rfl trivial
  | _ => exact constant .null rfl trivial

private theorem alike_indexOf {target key : Value} (below : target.Below bound) (span : Span) :
    Run.Alike unread bound (.value map) (indexOf target key span)
      (indexOf (target.rename map.relabel) (key.rename map.relabel) span) := by
  have member : ∀ property, Run.Alike unread bound (.value map) (memberOf target property span)
      (memberOf (target.rename map.relabel) property span) :=
    fun property => alike_memberOf below property span
  unfold indexOf
  split
  · rename_i identity items place
    show Run.Alike _ _ _ _ (Run.succeed ((((position? place).bind
      (fun index => (Value.renameItems map.relabel items)[index]?))).getD .null))
    have found : (position? place).bind (fun index => (Value.renameItems map.relabel items)[index]?) =
        ((position? place).bind (fun index => items[index]?)).map (Value.rename map.relabel) := by
      rw [Value.renameItems_eq_map]
      cases position? place <;> simp
    rw [found]
    refine alike_getD (fun value is => ?_)
    obtain ⟨index, _, item⟩ := Option.bind_eq_some_iff.mp is
    exact Value.itemsBelow_iff.mp below.2 value (List.mem_of_getElem? item)
  · rename_i content place
    refine alike_succeed ⟨?_, ?_⟩
    · cases (position? place).bind _ <;> trivial
    · cases (position? place).bind _ <;> rfl
  · rename_i noItem noPlace
    have other : indexOf (target.rename map.relabel) (key.rename map.relabel) span =
        memberOf (target.rename map.relabel) (key.rename map.relabel).display span := by
      cases target <;> cases key <;> first | rfl | skip
      · exact absurd rfl (noPlace _ _ rfl)
      · exact absurd rfl (noItem _ _ _ rfl)
    show Run.Alike _ _ _ _ (indexOf _ _ _)
    rw [other, Value.display_rename]
    exact member _

end Operators

section Syntax

variable {call : Caller}

mutual

theorem alike_evaluate (calls : call.Alike unread) :
    ∀ (expression : Expression) {bound : Nat} {scope : Scope}, Value.EntriesBelow bound scope →
      Run.Alike unread bound (.value map) (evaluate call scope expression)
        (evaluate call (Value.renameEntries map.relabel scope) expression)
  | .literal _ value, bound, scope, _ => by
    rw [evaluate, evaluate]
    exact alike_succeed ⟨hereditary_below.literalValue value, (rename_literalValue map.relabel value).symm⟩
  | .array _ items, bound, scope, below => by
    rw [evaluate, evaluate]
    refine alike_bind (alike_evaluateItems calls items below) ?_
    rintro later values _ _ ⟨held, rfl⟩
    refine alike_bind Run.alike_identity ?_
    rintro high identity _ le ⟨⟨_, less⟩, rfl⟩
    exact alike_value ⟨less, held.mono le⟩
  | .object _ entries, bound, scope, below => by
    rw [evaluate, evaluate]
    refine alike_bind (alike_evaluateEntries calls entries below) ?_
    rintro later values _ _ ⟨held, rfl⟩
    refine alike_bind Run.alike_identity ?_
    rintro high identity _ le ⟨⟨_, less⟩, rfl⟩
    rw [← Value.renameEntries_ofEntries]
    exact alike_value ⟨less, (Value.below_ofEntries held).mono le⟩
  | .name span name, bound, scope, below => by
    rw [evaluate, evaluate, Value.lookup?_eq_get?, Value.lookup?_eq_get?, Value.get?_renameEntries]
    cases found : Dictionary.get? name scope with
    | none => exact alike_fail _ _
    | some value => exact alike_value (Value.below_get? below found)
  | .member span target property, bound, scope, below => by
    rw [evaluate, evaluate]
    refine alike_bind (alike_evaluate calls target below) ?_
    rintro later value _ _ ⟨held, rfl⟩
    exact alike_memberOf held property span
  | .index span target key, bound, scope, below => by
    rw [evaluate, evaluate]
    refine alike_bind (alike_evaluate calls target below) ?_
    rintro later value _ le ⟨held, rfl⟩
    refine alike_bind (alike_evaluate calls key (below.mono le)) ?_
    rintro high index _ above ⟨_, rfl⟩
    exact alike_indexOf (held.mono above) span
  | .call span callee arguments, bound, scope, below => by
    rw [evaluate, evaluate]
    refine alike_bind (alike_evaluate calls callee below) ?_
    rintro later function _ le ⟨callable, rfl⟩
    refine alike_bind (alike_evaluateItems calls arguments (below.mono le)) ?_
    rintro high values _ above ⟨held, rfl⟩
    rw [callName_rename]
    exact calls high ⟨callName callee function, function, values, span⟩ ⟨callable.mono above, held⟩
  | .arrow span parameters body, bound, scope, below => by
    rw [evaluate, evaluate]
    exact alike_value below
  | .unary _ operator operand, bound, scope, below => by
    rw [evaluate, evaluate]
    refine alike_bind (alike_evaluate calls operand below) ?_
    rintro later value _ _ ⟨_, rfl⟩
    rw [applyUnary_rename]
    exact alike_value (hereditary_below.applyUnary operator value)
  | .binary _ operator left right, bound, scope, below => by
    rw [evaluate, evaluate]
    refine alike_bind (alike_evaluate calls left below) ?_
    rintro later a _ le ⟨held, rfl⟩
    have second := alike_evaluate calls right (below.mono le)
    have both : ∀ operator, Run.Alike unread later (.value map)
        (evaluate call scope right >>= fun b => pure (applyBinary operator a b))
        (evaluate call (Value.renameEntries map.relabel scope) right >>= fun b =>
          pure (applyBinary operator (a.rename map.relabel) b)) := by
      intro operator
      refine alike_bind second ?_
      rintro high b _ above ⟨other, rfl⟩
      rw [applyBinary_rename map.injective]
      exact alike_value (hereditary_below.applyBinary operator (held.mono above) other)
    rw [Value.isTruthy_rename]
    cases operator with
    | or =>
      cases a.isTruthy with
      | true => exact alike_value held
      | false => exact second
    | and =>
      cases a.isTruthy with
      | true => exact second
      | false => exact alike_value held
    | _ => exact both _
  | .conditional _ condition consequent alternative, bound, scope, below => by
    rw [evaluate, evaluate]
    refine alike_bind (alike_evaluate calls condition below) ?_
    rintro later value _ le ⟨_, rfl⟩
    have yes := alike_evaluate calls consequent (below.mono le)
    have no := alike_evaluate calls alternative (below.mono le)
    rw [Value.isTruthy_rename]
    split
    · exact yes
    · exact no

theorem alike_evaluateItems (calls : call.Alike unread) :
    ∀ (items : List Expression) {bound : Nat} {scope : Scope}, Value.EntriesBelow bound scope →
      Run.Alike unread bound (.values map) (evaluateItems call scope items)
        (evaluateItems call (Value.renameEntries map.relabel scope) items)
  | [], bound, scope, _ => by
    rw [evaluateItems, evaluateItems]
    exact alike_succeed ⟨trivial, rfl⟩
  | item :: rest, bound, scope, below => by
    rw [evaluateItems, evaluateItems]
    refine alike_bind (alike_evaluate calls item below) ?_
    rintro later value _ le ⟨held, rfl⟩
    refine alike_bind (alike_evaluateItems calls rest (below.mono le)) ?_
    rintro high values _ above ⟨others, rfl⟩
    exact alike_succeed ⟨⟨held.mono above, others⟩, rfl⟩

theorem alike_evaluateEntries (calls : call.Alike unread) :
    ∀ (entries : List (String × Expression)) {bound : Nat} {scope : Scope},
      Value.EntriesBelow bound scope →
      Run.Alike unread bound (.entries map) (evaluateEntries call scope entries)
        (evaluateEntries call (Value.renameEntries map.relabel scope) entries)
  | [], bound, scope, _ => by
    rw [evaluateEntries, evaluateEntries]
    exact alike_succeed ⟨trivial, rfl⟩
  | (key, item) :: rest, bound, scope, below => by
    rw [evaluateEntries, evaluateEntries]
    refine alike_bind (alike_evaluate calls item below) ?_
    rintro later value _ le ⟨held, rfl⟩
    refine alike_bind (alike_evaluateEntries calls rest (below.mono le)) ?_
    rintro high values _ above ⟨others, rfl⟩
    exact alike_succeed ⟨⟨held.mono above, others⟩, rfl⟩

theorem alike_executeStatement (calls : call.Alike unread) :
    ∀ (statement : Statement) {bound : Nat} {scope : Scope}, Value.EntriesBelow bound scope →
      Run.Alike unread bound (.step map) (executeStatement call scope statement)
        (executeStatement call (Value.renameEntries map.relabel scope) statement)
  | .binding _ name value, bound, scope, below => by
    rw [executeStatement, executeStatement]
    refine alike_bind (alike_evaluate calls value below) ?_
    rintro later value _ le ⟨held, rfl⟩
    exact alike_succeed ⟨⟨held, below.mono le⟩, rfl⟩
  | .expression _ value, bound, scope, below => by
    rw [executeStatement, executeStatement]
    refine alike_bind (alike_evaluate calls value below) ?_
    rintro later value _ le ⟨held, rfl⟩
    exact alike_succeed ⟨below.mono le, rfl⟩
  | .branch _ condition consequent alternative, bound, scope, below => by
    rw [executeStatement, executeStatement]
    refine alike_bind (alike_evaluate calls condition below) ?_
    rintro later value _ le ⟨_, rfl⟩
    have finish : ∀ high (one two : Flow), later ≤ high → (Likeness.flow map).holds high one two →
        Run.Alike unread high (.step map)
          (match one with
            | .next => pure (.goOn scope)
            | .result value => pure (.finish value))
          (match two with
            | .next => pure (.goOn (Value.renameEntries map.relabel scope))
            | .result value => pure (.finish value)) := by
      rintro high one _ above ⟨held, rfl⟩
      cases one with
      | next => exact alike_succeed ⟨(below.mono le).mono above, rfl⟩
      | result value => exact alike_succeed ⟨held, rfl⟩
    have yes := alike_executeBlock calls consequent (below.mono le)
    dsimp only
    rw [Value.isTruthy_rename]
    split
    · exact alike_bind yes finish
    · cases alternative with
      | none => exact finish later .next .next (Nat.le_refl _) ⟨trivial, rfl⟩
      | some statements =>
        exact alike_bind (alike_executeBlock calls statements (below.mono le)) finish
  | .result _ none, bound, scope, _ => by
    rw [executeStatement, executeStatement]
    exact alike_succeed ⟨trivial, rfl⟩
  | .result _ (some value), bound, scope, below => by
    rw [executeStatement, executeStatement]
    refine alike_bind (alike_evaluate calls value below) ?_
    rintro later value _ _ ⟨held, rfl⟩
    exact alike_succeed ⟨held, rfl⟩

theorem alike_executeBlock (calls : call.Alike unread) :
    ∀ (statements : List Statement) {bound : Nat} {scope : Scope}, Value.EntriesBelow bound scope →
      Run.Alike unread bound (.flow map) (executeBlock call scope statements)
        (executeBlock call (Value.renameEntries map.relabel scope) statements)
  | [], bound, scope, _ => by
    rw [executeBlock, executeBlock]
    exact alike_succeed ⟨trivial, rfl⟩
  | statement :: rest, bound, scope, below => by
    rw [executeBlock, executeBlock]
    refine alike_bind (alike_executeStatement calls statement below) ?_
    rintro later step _ _ ⟨held, rfl⟩
    cases step with
    | goOn inner => exact alike_executeBlock calls rest held
    | finish value => exact alike_succeed ⟨held, rfl⟩

end

end Syntax

end ScreenStudio.Evaluation
