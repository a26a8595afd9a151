/- digest: Evaluation where bindings differ that the source does not read. -/

import ScreenStudio.Proofs.Evaluation.Alike
import ScreenStudio.Proofs.Value.Coincidence

set_option autoImplicit false
set_option relaxedAutoImplicit false

namespace ScreenStudio.Evaluation

open Source (Span Literal Expression Statement Body freeAmong)
open Run (alike_bind alike_fail alike_succeed)

variable {map : Renaming} {unread : Unread map} {bound : Nat}

namespace Likeness

/-- Values that coincide. -/
def coinciding (map : Renaming) : Likeness Value where
  holds _ := Value.Coincides map.relabel
  mono _ held := held

def coincidingItems (map : Renaming) : Likeness (List Value) where
  holds _ := List.Forall₂ (Value.Coincides map.relabel)
  mono _ held := held

def coincidingEntries (map : Renaming) : Likeness (List (String × Value)) where
  holds _ := Dictionary.Related (Value.Coincides map.relabel)
  mono _ held := held

end Likeness

/-- Both blocks end behind their last statement, or both with values that coincide. -/
inductive Flow.Coincides (relabel : Nat → Nat) : Flow → Flow → Prop
  | next : Coincides relabel .next .next
  | result {one two : Value} (coincide : one.Coincides relabel two) :
    Coincides relabel (.result one) (.result two)

/-- Both statements go on with scopes that agree on what is read behind them, or both end the block. -/
inductive Step.Coincides (relabel : Nat → Nat) (names : List String) : Step → Step → Prop
  | goOn {scope other : Scope} (agree : Scope.AgreeOn relabel names scope other) :
    Coincides relabel names (.goOn scope) (.goOn other)
  | finish {one two : Value} (coincide : one.Coincides relabel two) :
    Coincides relabel names (.finish one) (.finish two)

namespace Likeness

def coincidingFlow (map : Renaming) : Likeness Flow where
  holds _ := Flow.Coincides map.relabel
  mono _ held := held

def coincidingStep (map : Renaming) (names : List String) : Likeness Step where
  holds _ := Step.Coincides map.relabel names
  mono _ held := held

end Likeness

/-- Calls of values that coincide run alike. -/
def Caller.Coincides (unread : Unread map) (call : Caller) : Prop :=
  ∀ (bound : Nat) (name : String) (span : Span) {callee other : Value} {arguments others : List Value},
    callee.Coincides map.relabel other → List.Forall₂ (Value.Coincides map.relabel) arguments others →
      Run.Alike unread bound (.coinciding map) (call ⟨name, callee, arguments, span⟩)
        (call ⟨name, other, others, span⟩)

section Operators

variable {one two other also : Value}

theorem coincide_literalValue (relabel : Nat → Nat) (literal : Literal) :
    (literalValue literal).Coincides relabel (literalValue literal) := by
  cases literal with
  | number value => exact .number value
  | text value => exact .text value
  | bool value => exact .bool value
  | null => exact .null

variable {relabel : Nat → Nat}

private theorem isPlain_of_coincide (coincide : one.Coincides relabel two) :
    isPlain two = isPlain one := by
  cases coincide <;> rfl

private theorem less_of_coincide (left : one.Coincides relabel two)
    (right : other.Coincides relabel also) : less two also = less one other := by
  cases left <;> cases right <;> rfl

private theorem lessOrEqual_of_coincide (left : one.Coincides relabel two)
    (right : other.Coincides relabel also) : lessOrEqual two also = lessOrEqual one other := by
  cases left <;> cases right <;> rfl

private theorem callName_of_coincide (callee : Expression) (coincide : one.Coincides relabel two) :
    callName callee two = callName callee one := by
  cases coincide <;> cases callee <;> rfl

private theorem coincide_applyUnary (operator : Source.UnaryOperator)
    (coincide : one.Coincides relabel two) :
    (applyUnary operator one).Coincides relabel (applyUnary operator two) := by
  cases operator with
  | not =>
    rw [applyUnary, applyUnary, coincide.isTruthy]
    exact .bool _
  | negate =>
    rw [applyUnary, applyUnary, coincide.toNumber]
    exact .number _

private theorem coincide_applyBinary (injective : ∀ {a b}, relabel a = relabel b → a = b)
    (operator : Source.BinaryOperator) (left : one.Coincides relabel two)
    (right : other.Coincides relabel also) :
    (applyBinary operator one other).Coincides relabel (applyBinary operator two also) := by
  unfold applyBinary
  rw [left.isTruthy, left.same injective right, less_of_coincide left right, less_of_coincide right left,
    lessOrEqual_of_coincide left right, lessOrEqual_of_coincide right left, isPlain_of_coincide left,
    isPlain_of_coincide right, left.toNumber, right.toNumber, left.display, right.display]
  cases operator with
  | or => dsimp only; split; exacts [left, right]
  | and => dsimp only; split; exacts [right, left]
  | add => dsimp only; split; exacts [.number _, .text _]
  | subtract | multiply | divide | remainder => exact .number _
  | _ => exact .bool _

private theorem coincide_getD {found others : Option Value}
    (related : Option.Rel (Value.Coincides map.relabel) found others) :
    Run.Alike unread bound (.coinciding map) (Run.succeed (found.getD .null))
      (Run.succeed (others.getD .null)) := by
  cases related with
  | none => exact alike_succeed .null
  | some coincide => exact alike_succeed coincide

private theorem rel_getElem? {items others : List Value}
    (each : List.Forall₂ (Value.Coincides relabel) items others) (index : Nat) :
    Option.Rel (Value.Coincides relabel) items[index]? others[index]? := by
  induction each generalizing index with
  | nil => exact .none
  | cons first _ ih =>
    cases index with
    | zero => exact .some first
    | succ index => exact ih index

private theorem coincide_memberOf (coincide : one.Coincides map.relabel two) (property : String)
    (span : Span) :
    Run.Alike unread bound (.coinciding map) (memberOf one property span)
      (memberOf two property span) := by
  cases coincide with
  | null => exact alike_fail _ _
  | object identity each => exact coincide_getD (each.get? property)
  | array identity each =>
    rw [memberOf, memberOf, ← each.length_eq]
    split
    · exact alike_succeed (.number _)
    · exact alike_succeed .null
  | text content =>
    rw [memberOf]
    split
    · exact alike_succeed (.number _)
    · exact alike_succeed .null
  | bool _ | number _ | function _ _ _ _ => exact alike_succeed .null

private theorem coincide_indexOf (coincide : one.Coincides map.relabel two)
    (key : other.Coincides map.relabel also) (span : Span) :
    Run.Alike unread bound (.coinciding map) (indexOf one other span) (indexOf two also span) := by
  have member : Run.Alike unread bound (.coinciding map) (memberOf one other.display span)
      (memberOf two also.display span) := by
    rw [key.display]
    exact coincide_memberOf coincide _ span
  cases coincide with
  | array identity each =>
    cases key with
    | number place =>
      rw [indexOf, indexOf]
      cases position? place with
      | none => exact alike_succeed .null
      | some index => exact coincide_getD (rel_getElem? each index)
    | _ => exact member
  | text content =>
    cases key with
    | number place =>
      rw [indexOf]
      cases (position? place).bind (fun index => content.toList[index]?) with
      | none => exact alike_succeed .null
      | some c => exact alike_succeed (.text _)
    | _ => exact member
  | _ => exact member

end Operators

section Syntax

variable {call : Caller} {scope other : Scope}

mutual

theorem coincide_evaluate (calls : call.Coincides unread) :
    ∀ (expression : Expression) {bound : Nat} {scope other : Scope},
      scope.AgreeOn map.relabel expression.freeNames other →
      Run.Alike unread bound (.coinciding map) (evaluate call scope expression)
        (evaluate call other expression)
  | .literal _ value, bound, scope, other, _ => by
    rw [evaluate, evaluate]
    exact alike_succeed (coincide_literalValue _ value)
  | .array _ items, bound, scope, other, agree => by
    rw [evaluate, evaluate]
    refine alike_bind (coincide_evaluateItems calls items agree) ?_
    intro later values others _ each
    refine alike_bind Run.alike_identity ?_
    rintro high identity _ _ ⟨_, rfl⟩
    exact alike_succeed (.array identity each)
  | .object _ entries, bound, scope, other, agree => by
    rw [evaluate, evaluate]
    refine alike_bind (coincide_evaluateEntries calls entries agree) ?_
    intro later values others _ each
    refine alike_bind Run.alike_identity ?_
    rintro high identity _ _ ⟨_, rfl⟩
    exact alike_succeed (.object identity each.ofEntries)
  | .name span name, bound, scope, other, agree => by
    have same := agree name (List.mem_singleton_self name)
    rw [evaluate, evaluate]
    generalize Scope.lookup? name scope = found at same ⊢
    generalize Scope.lookup? name other = also at same ⊢
    cases same with
    | none => exact alike_fail _ _
    | some coincide => exact alike_succeed coincide
  | .member span target property, bound, scope, other, agree => by
    rw [evaluate, evaluate]
    refine alike_bind (coincide_evaluate calls target agree) ?_
    intro later one two _ coincide
    exact coincide_memberOf coincide property span
  | .index span target key, bound, scope, other, agree => by
    obtain ⟨own, further⟩ := Scope.agreeOn_append.mp agree
    rw [evaluate, evaluate]
    refine alike_bind (coincide_evaluate calls target own) ?_
    intro later one two _ coincide
    refine alike_bind (coincide_evaluate calls key further) ?_
    intro high index also _ same
    exact coincide_indexOf coincide same span
  | .call span callee arguments, bound, scope, other, agree => by
    obtain ⟨own, further⟩ := Scope.agreeOn_append.mp agree
    rw [evaluate, evaluate]
    refine alike_bind (coincide_evaluate calls callee own) ?_
    intro later function also _ callable
    refine alike_bind (coincide_evaluateItems calls arguments further) ?_
    intro high values others _ each
    rw [callName_of_coincide callee callable]
    exact calls high _ span callable each
  | .arrow span parameters body, bound, scope, other, agree => by
    rw [evaluate, evaluate]
    exact alike_succeed (.function span parameters body agree)
  | .unary _ operator operand, bound, scope, other, agree => by
    rw [evaluate, evaluate]
    refine alike_bind (coincide_evaluate calls operand agree) ?_
    intro later value also _ coincide
    exact alike_succeed (coincide_applyUnary operator coincide)
  | .binary _ operator left right, bound, scope, other, agree => by
    obtain ⟨own, further⟩ := Scope.agreeOn_append.mp agree
    rw [evaluate, evaluate]
    refine alike_bind (coincide_evaluate calls left own) ?_
    intro later a b _ first
    have second : Run.Alike unread later (.coinciding map) (evaluate call scope right)
        (evaluate call other right) := coincide_evaluate calls right further
    have both : ∀ operator, Run.Alike unread later (.coinciding map)
        (evaluate call scope right >>= fun value => pure (applyBinary operator a value))
        (evaluate call other right >>= fun value => pure (applyBinary operator b value)) := by
      intro operator
      refine alike_bind second ?_
      intro high value also _ coincide
      exact alike_succeed (coincide_applyBinary map.injective operator first coincide)
    rw [first.isTruthy]
    cases operator with
    | or =>
      cases a.isTruthy with
      | true => exact alike_succeed first
      | false => exact second
    | and =>
      cases a.isTruthy with
      | true => exact second
      | false => exact alike_succeed first
    | _ => exact both _
  | .conditional _ condition consequent alternative, bound, scope, other, agree => by
    obtain ⟨own, branches⟩ := Scope.agreeOn_append.mp agree
    obtain ⟨yes, no⟩ := Scope.agreeOn_append.mp branches
    rw [evaluate, evaluate]
    refine alike_bind (coincide_evaluate calls condition own) ?_
    intro later value also _ coincide
    rw [coincide.isTruthy]
    split
    · exact coincide_evaluate calls consequent yes
    · exact coincide_evaluate calls alternative no

theorem coincide_evaluateItems (calls : call.Coincides unread) :
    ∀ (items : List Expression) {bound : Nat} {scope other : Scope},
      scope.AgreeOn map.relabel (freeAmong (Expression.listOccurrences [] items)) other →
      Run.Alike unread bound (.coincidingItems map) (evaluateItems call scope items)
        (evaluateItems call other items)
  | [], bound, scope, other, _ => by
    rw [evaluateItems, evaluateItems]
    exact alike_succeed .nil
  | item :: rest, bound, scope, other, agree => by
    obtain ⟨own, further⟩ := Scope.agreeOn_append.mp agree
    rw [evaluateItems, evaluateItems]
    refine alike_bind (coincide_evaluate calls item own) ?_
    intro later value also _ coincide
    refine alike_bind (coincide_evaluateItems calls rest further) ?_
    intro high values others _ each
    exact alike_succeed (.cons coincide each)

theorem coincide_evaluateEntries (calls : call.Coincides unread) :
    ∀ (entries : List (String × Expression)) {bound : Nat} {scope other : Scope},
      scope.AgreeOn map.relabel (freeAmong (Expression.entryOccurrences [] entries)) other →
      Run.Alike unread bound (.coincidingEntries map) (evaluateEntries call scope entries)
        (evaluateEntries call other entries)
  | [], bound, scope, other, _ => by
    rw [evaluateEntries, evaluateEntries]
    exact alike_succeed .nil
  | (key, item) :: rest, bound, scope, other, agree => by
    obtain ⟨own, further⟩ := Scope.agreeOn_append.mp agree
    rw [evaluateEntries, evaluateEntries]
    refine alike_bind (coincide_evaluate calls item own) ?_
    intro later value also _ coincide
    refine alike_bind (coincide_evaluateEntries calls rest further) ?_
    intro high values others _ each
    exact alike_succeed (.cons key coincide each)

/-- Behind a statement the scopes agree on what is free there, if they did so on that but for what the
statement binds. -/
theorem coincide_executeStatement (calls : call.Coincides unread) :
    ∀ (statement : Statement) {names : List String} {bound : Nat} {scope other : Scope},
      scope.AgreeOn map.relabel statement.freeNames other →
      (∀ name ∈ names, (∀ binder ∈ statement.binders, binder.name ≠ name) →
        Option.Rel (Value.Coincides map.relabel) (Scope.lookup? name scope) (Scope.lookup? name other)) →
      Run.Alike unread bound (.coincidingStep map names) (executeStatement call scope statement)
        (executeStatement call other statement)
  | .binding _ name value, names, bound, scope, other, agree, behind => by
    rw [executeStatement, executeStatement]
    refine alike_bind (coincide_evaluate calls value agree) ?_
    intro later one two _ coincide
    refine alike_succeed (.goOn (.bind coincide ?_))
    -- Under every other name the statements behind read what they would read without the binding.
    intro free member different
    refine behind free member ?_
    rintro binder is rfl
    cases List.mem_singleton.mp is
    exact different rfl
  | .expression _ value, names, bound, scope, other, agree, behind => by
    rw [executeStatement, executeStatement]
    refine alike_bind (coincide_evaluate calls value agree) ?_
    intro later one two _ _
    exact alike_succeed (.goOn fun name member => behind name member (List.forall_mem_nil _))
  | .branch _ condition consequent alternative, names, bound, scope, other, agree, behind => by
    -- What a branch declares is not visible behind it: the block goes on in the scopes from before.
    have after : scope.AgreeOn map.relabel names other :=
      fun name member => behind name member (List.forall_mem_nil _)
    have finish : ∀ {low : Nat} (high : Nat) (one two : Flow), low ≤ high →
        Flow.Coincides map.relabel one two → Run.Alike unread high (.coincidingStep map names)
          (match one with
            | .next => pure (.goOn scope)
            | .result value => pure (.finish value))
          (match two with
            | .next => pure (.goOn other)
            | .result value => pure (.finish value)) := by
      intro low high one two _ coincide
      cases coincide with
      | next => exact alike_succeed (.goOn after)
      | result coincide => exact alike_succeed (.finish coincide)
    rw [executeStatement, executeStatement]
    cases alternative with
    | none =>
      obtain ⟨own, further⟩ := Scope.agreeOn_append.mp agree
      refine alike_bind (coincide_evaluate calls condition own) ?_
      intro later one two _ coincide
      dsimp only
      rw [coincide.isTruthy]
      split
      · exact alike_bind (coincide_executeBlock calls consequent further) finish
      · exact finish later .next .next (Nat.le_refl _) .next
    | some statements =>
      obtain ⟨own, branches⟩ := Scope.agreeOn_append.mp agree
      obtain ⟨yes, no⟩ := Scope.agreeOn_append.mp branches
      refine alike_bind (coincide_evaluate calls condition own) ?_
      intro later one two _ coincide
      dsimp only
      rw [coincide.isTruthy]
      split
      · exact alike_bind (coincide_executeBlock calls consequent yes) finish
      · exact alike_bind (coincide_executeBlock calls statements no) finish
  | .result _ none, names, bound, scope, other, _, _ => by
    rw [executeStatement, executeStatement]
    exact alike_succeed (.finish .null)
  | .result _ (some value), names, bound, scope, other, agree, _ => by
    rw [executeStatement, executeStatement]
    refine alike_bind (coincide_evaluate calls value agree) ?_
    intro later one two _ coincide
    exact alike_succeed (.finish coincide)

theorem coincide_executeBlock (calls : call.Coincides unread) :
    ∀ (statements : List Statement) {bound : Nat} {scope other : Scope},
      scope.AgreeOn map.relabel (Statement.blockFreeNames statements) other →
      Run.Alike unread bound (.coincidingFlow map) (executeBlock call scope statements)
        (executeBlock call other statements)
  | [], bound, scope, other, _ => by
    rw [executeBlock, executeBlock]
    exact alike_succeed .next
  | statement :: rest, bound, scope, other, agree => by
    obtain ⟨own, _⟩ := Scope.agreeOn_append.mp agree
    rw [executeBlock, executeBlock]
    refine alike_bind (coincide_executeStatement calls statement own
      fun name free other => agree name (Source.mem_blockFreeNames_cons free other)) ?_
    intro later one two _ coincide
    cases coincide with
    | goOn agree => exact coincide_executeBlock calls rest agree
    | finish coincide => exact alike_succeed (.result coincide)

end

end Syntax

section Calls

variable {call : Caller}

private theorem agreeOn_bindParameters {relabel : Nat → Nat} {names parameters : List String}
    {scope other : Scope} {arguments others : List Value}
    (each : List.Forall₂ (Value.Coincides relabel) arguments others)
    (agree : ∀ name ∈ names, name ∉ parameters →
      Option.Rel (Value.Coincides relabel) (Scope.lookup? name scope) (Scope.lookup? name other)) :
    (bindParameters scope parameters arguments).AgreeOn relabel names
      (bindParameters other parameters others) := by
  induction parameters generalizing scope other arguments others with
  | nil =>
    intro name member
    have same := agree name member List.not_mem_nil
    cases each <;> exact same
  | cons parameter rest ih =>
    have bound : ∀ {one two : Value}, one.Coincides relabel two → ∀ name ∈ names, name ∉ rest →
        Option.Rel (Value.Coincides relabel) (Scope.lookup? name (Scope.bind parameter one scope))
          (Scope.lookup? name (Scope.bind parameter two other)) := by
      intro one two coincide name member absent
      have single : Scope.AgreeOn relabel [name] (Scope.bind parameter one scope)
          (Scope.bind parameter two other) := by
        refine .bind coincide fun free is different => ?_
        cases List.mem_singleton.mp is
        exact agree name member (List.not_mem_cons_of_ne_of_not_mem different absent)
      exact single name (List.mem_singleton_self name)
    cases each with
    | nil => exact ih .nil (bound .null)
    | cons first behind => exact ih behind (bound first)

theorem coincide_callClosure (calls : call.Coincides unread) {closure also : Closure}
    {arguments others : List Value}
    (coincide : Value.Coincides map.relabel (.function closure) (.function also))
    (each : List.Forall₂ (Value.Coincides map.relabel) arguments others) :
    Run.Alike unread bound (.coinciding map) (callClosure call closure arguments)
      (callClosure call also others) := by
  cases coincide with
  | @function span parameters body scope other agree =>
    have inner : (bindParameters scope parameters arguments).AgreeOn map.relabel body.freeNames
        (bindParameters other parameters others) :=
      agreeOn_bindParameters each fun name free absent =>
        agree name (Source.mem_freeNames_arrow span free absent)
    unfold callClosure
    dsimp only
    cases body with
    | expression value => exact coincide_evaluate calls value inner
    | block statements =>
      refine alike_bind (coincide_executeBlock calls statements inner) ?_
      intro later flow _ _ ended
      cases ended with
      | next => exact alike_succeed .null
      | result coincide => exact alike_succeed coincide

private theorem coincide_enter (source : String) (calls : call.Coincides unread) (name : String)
    (span : Span) {callee other : Value} {arguments others : List Value}
    (coincide : callee.Coincides map.relabel other)
    (each : List.Forall₂ (Value.Coincides map.relabel) arguments others) :
    Run.Alike unread bound (.coinciding map) (enter source call ⟨name, callee, arguments, span⟩)
      (enter source call ⟨name, other, others, span⟩) := by
  cases coincide with
  | function place parameters body agree =>
    exact coincide_callClosure calls (.function place parameters body agree) each
  | _ => exact alike_fail _ _

/-- Calls of values that coincide run alike, however many further calls may be in progress. -/
theorem coincide_callWithin (source : String) (room : Nat) :
    (callWithin source room).Coincides unread := by
  induction room with
  | zero =>
    intro bound name span callee other arguments others coincide _
    rw [callWithin]
    dsimp only
    rw [coincide.isCallable]
    split
    · exact alike_fail _ _
    · exact alike_fail _ _
  | succ room ih =>
    intro bound name span callee other arguments others coincide each
    show Run.Alike _ _ _ (if callee.isCallable = true then _ else _)
      (if other.isCallable = true then _ else _)
    rw [coincide.isCallable]
    split
    · exact Run.alike_withFrame _ (coincide_enter source ih name span coincide each)
    · exact alike_fail _ _

end Calls

end ScreenStudio.Evaluation
