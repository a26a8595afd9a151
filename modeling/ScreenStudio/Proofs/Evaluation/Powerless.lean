/- digest: Single expressions call no builtin or adder, open no collector and leave the host alone. -/

import ScreenStudio.Action
import ScreenStudio.Proofs.Evaluation.Confined
import ScreenStudio.Proofs.Evaluation.Passage
import ScreenStudio.Proofs.Value.Reach

/-!
Powerlessness is kept by evaluation, and a document is powerless whatever its keys are. So all that is in
scope at a point within a single expression is powerless, all that is called there is an arrow function,
and what the expression gives has a document unless an arrow function stands in it.
-/

set_option autoImplicit false
set_option relaxedAutoImplicit false

namespace ScreenStudio.Evaluation

open Source (Span Expression Statement Body)

variable {source : String}

theorem kept_powerless : Value.Kept Value.Powerless where
  null := Value.powerless_null
  bool := Value.powerless_bool
  number := Value.powerless_number
  text := Value.powerless_text
  array := Value.powerless_array.mpr
  item := Value.powerless_array.mp
  object held := Value.powerless_object.mpr
    fun entry member => held entry (Dictionary.mem_of_mem_ofEntries member)
  entry := Value.powerless_object.mp
  function held := Value.powerless_function.mpr held
  captured := Value.powerless_function.mp
  builtin _ held := held _ (.self _) trivial
  adder _ held := held _ (.self _) trivial

/-- What is evaluated is syntax in a scope with the property, or a call of values with the property. -/
def Activity.Keeps (holds : Value → Prop) : Activity → Prop
  | .expression scope _ => Binds holds scope
  | .items scope _ => Binds holds scope
  | .entries scope _ => Binds holds scope
  | .statement scope _ => Binds holds scope
  | .block scope _ => Binds holds scope
  | .call request => request.Keeps holds
  | .entered request => request.Keeps holds
  | _ => False

private theorem keeps_nil {holds : Value → Prop} :
    ∀ part ∈ ([] : List Point), part.activity.Keeps holds := fun _ member => nomatch member

private theorem keeps_one {holds : Value → Prop} {room : Nat} {activity : Activity} {start : Machine}
    (keeps : activity.Keeps holds) :
    ∀ part ∈ [(⟨room, activity, start⟩ : Point)], part.activity.Keeps holds :=
  List.forall_mem_cons.mpr ⟨keeps, keeps_nil⟩

section Parts

variable {holds : Value → Prop} (kept : Value.Kept holds) {room : Nat} {machine : Machine}

include kept

private theorem held_of_evaluate {scope : Scope} (binds : Binds holds scope) {expression : Expression}
    {value : Value} {after : Machine}
    (ran : evaluate (callWithin source room) scope expression machine = (.ok value, after)) :
    holds value :=
  (quiet_evaluate kept (keeps_callWithin kept source room) expression binds machine).1 value
    (congrArg Prod.fst ran)

private theorem keeps_expressionParts {scope : Scope} (binds : Binds holds scope)
    (expression : Expression) :
    ∀ part ∈ expressionParts room (callWithin source room) machine scope expression,
      part.activity.Keeps holds := by
  cases expression with
  | literal => exact keeps_nil
  | name => exact keeps_nil
  | arrow => exact keeps_nil
  | array => exact keeps_one binds
  | object => exact keeps_one binds
  | member => exact keeps_one binds
  | unary => exact keeps_one binds
  | index =>
    refine List.forall_mem_cons.mpr ⟨binds, forall_mem_following.mpr fun _ _ _ => ?_⟩
    exact keeps_one binds
  | call span callee arguments =>
    refine List.forall_mem_cons.mpr ⟨binds, forall_mem_following.mpr fun function middle called => ?_⟩
    refine List.forall_mem_cons.mpr ⟨binds, forall_mem_following.mpr fun values after given => ?_⟩
    have held := (quiet_evaluateItems kept (keeps_callWithin kept source room) arguments binds
      middle).1 values (congrArg Prod.fst given)
    exact keeps_one ⟨held_of_evaluate kept binds called, held⟩
  | binary =>
    refine List.forall_mem_cons.mpr ⟨binds, forall_mem_following.mpr fun _ _ _ => ?_⟩
    split
    · exact keeps_nil
    · exact keeps_one binds
  | conditional =>
    refine List.forall_mem_cons.mpr ⟨binds, forall_mem_following.mpr fun _ _ _ => ?_⟩
    exact keeps_one binds

theorem keeps_parts {whole : Point} (keeps : whole.activity.Keeps holds) :
    ∀ part ∈ whole.parts source, part.activity.Keeps holds := by
  obtain ⟨room, activity, machine⟩ := whole
  cases activity with
  | expression scope value => exact keeps_expressionParts kept keeps value
  | items scope values =>
    cases values with
    | nil => exact keeps_nil
    | cons item rest =>
      refine List.forall_mem_cons.mpr ⟨keeps, forall_mem_following.mpr fun _ _ _ => ?_⟩
      exact keeps_one keeps
  | entries scope values =>
    cases values with
    | nil => exact keeps_nil
    | cons entry rest =>
      refine List.forall_mem_cons.mpr ⟨keeps, forall_mem_following.mpr fun _ _ _ => ?_⟩
      exact keeps_one keeps
  | statement scope statement =>
    cases statement with
    | binding => exact keeps_one keeps
    | expression => exact keeps_one keeps
    | branch span condition consequent alternative =>
      refine List.forall_mem_cons.mpr ⟨keeps, forall_mem_following.mpr fun _ _ _ => ?_⟩
      split
      · exact keeps_one keeps
      · cases alternative with
        | none => exact keeps_nil
        | some statements => exact keeps_one keeps
    | result span value =>
      cases value with
      | none => exact keeps_nil
      | some value => exact keeps_one keeps
  | block scope statements =>
    cases statements with
    | nil => exact keeps_nil
    | cons statement rest =>
      refine List.forall_mem_cons.mpr ⟨keeps, forall_mem_following.mpr fun step after ran => ?_⟩
      have held := (quiet_executeStatement kept (keeps_callWithin kept source room) statement keeps
        machine).1 step (congrArg Prod.fst ran)
      cases step with
      | goOn inner => exact keeps_one held
      | finish value => exact keeps_nil
  | call request =>
    cases room with
    | zero => exact keeps_nil
    | succ left =>
      show ∀ part ∈ ite _ _ _, _
      split
      · exact keeps_one keeps
      · exact keeps_nil
  | entered request =>
    obtain ⟨name, callee, arguments, span⟩ := request
    cases callee with
    | builtin known => exact absurd keeps.callee (kept.builtin known)
    | function closure =>
      have inner : Binds holds (bindParameters closure.scope closure.parameters arguments) :=
        kept.hereditary.bindParameters (kept.captured keeps.callee) keeps.arguments
      obtain ⟨place, parameters, body, scope⟩ := closure
      cases body with
      | expression value => exact keeps_one inner
      | block statements => exact keeps_one inner
    | _ => exact keeps_nil
  | _ => exact absurd keeps id

end Parts

private theorem opened_of_keeps {holds : Value → Prop} {point : Point}
    (keeps : point.activity.Keeps holds) : point.opened? = none := by
  obtain ⟨room, activity, machine⟩ := point
  cases activity with
  | collection builder span => exact absurd keeps id
  | _ => rfl

/-- A single expression leaves the recording of its host as it was. It opens no collector and calls only
what reaches no builtin, adder or node; neither does its value reach one. An action cannot store such a
value only where an arrow function stands in it. -/
theorem expression_is_powerless (source : String) (state : Json) (host : Recording) :
    (singleExpression source state host).2 = host ∧
    (∀ expression, Source.expression source = .ok expression →
      ∀ point ∈ (Point.single state host expression).points source,
        point.opened? = none ∧
          ∀ request, point.activity = .call request → request.callee.Powerless) ∧
    (∀ value, (singleExpression source state host).1 = .ok value →
      value.Powerless ∧ ∀ kind, value.toJson = .error kind →
        kind = .function ∧ ∃ closure, value.Holds (.function closure)) ∧
    (∀ statement path kind, Action.evaluate statement state = .error (.notData path kind) →
      kind = .function) := by
  have binds : Binds Value.Powerless (documentScope state).1 :=
    binds_documentScope (Value.holds_ofJson Value.cumulative_powerless state 0)
      (fun _ _ _ => Value.holds_ofJson Value.cumulative_powerless _ _)
  have quiet := fun source host => quiet_singleExpression kept_powerless source binds host
  have convert : ∀ source host value, (singleExpression source state host).1 = .ok value →
      ∀ kind, value.toJson = .error kind →
        kind = .function ∧ ∃ closure, value.Holds (.function closure) :=
    fun source host value is _ failed => Value.function_of_toJson ((quiet source host).1 value is) failed
  refine ⟨(quiet source host).2, ?_, ?_, ?_⟩
  · intro expression _ point within
    have begins : (Point.single state host expression).activity.Keeps Value.Powerless := binds
    have step : ∀ whole : Point, whole.activity.Keeps Value.Powerless →
        ∀ part ∈ whole.parts source, part.activity.Keeps Value.Powerless :=
      fun _ keeps => keeps_parts kept_powerless keeps
    have keeps := Point.inherited step begins within
    refine ⟨opened_of_keeps keeps, fun request is => ?_⟩
    rw [is] at keeps
    exact keeps.callee
  · exact fun value is => ⟨(quiet source host).1 value is, convert source host value is⟩
  · intro statement path kind failed
    unfold Action.evaluate at failed
    split at failed
    · cases failed
    · split at failed
      · cases failed
      · split at failed
        · cases failed
        · split at failed
          · cases failed
          · rename_i value evaluated
            split at failed
            · rename_i other notData
              cases failed
              exact (convert _ _ value evaluated _ notData).1
            · cases failed

end ScreenStudio.Evaluation
