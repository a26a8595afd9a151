/- digest: Evaluation in a scope without builtins hands nothing to the host and stays without them. -/

import ScreenStudio.Evaluation.Program
import ScreenStudio.Proofs.Evaluation.Operators
import ScreenStudio.Proofs.Value.Confined

set_option autoImplicit false
set_option relaxedAutoImplicit false

namespace ScreenStudio.Evaluation

open Source (Span Literal Expression Statement Body)

/-- What a program can be noticed by is the same in both machines. -/
structure Machine.SameEffects (before after : Machine) : Prop where
  collectors : after.collectors = before.collectors
  root : after.root = before.root
  host : after.host = before.host

/-- The run has no effects, and what it returns has a property. -/
def Run.Quiet {α : Type} (holds : α → Prop) (run : Run α) : Prop :=
  ∀ machine, (∀ value, (run machine).1 = .ok value → holds value) ∧
    machine.SameEffects (run machine).2

namespace Run

variable {α β : Type}

theorem quiet_succeed {holds : α → Prop} {value : α} (held : holds value) :
    Quiet holds (succeed value) := by
  intro machine
  refine ⟨?_, rfl, rfl, rfl⟩
  intro other equal
  cases equal
  exact held

theorem quiet_fail {holds : α → Prop} (span : Span) (fault : Fault) :
    Quiet holds (fail span fault : Run α) := by
  intro machine
  refine ⟨?_, rfl, rfl, rfl⟩
  intro value equal
  cases equal

theorem quiet_bind {holds : α → Prop} {also : β → Prop} {run : Run α} {next : α → Run β}
    (first : Quiet holds run) (second : ∀ value, holds value → Quiet also (next value)) :
    Quiet also (run >>= next) := by
  intro machine
  obtain ⟨held, same⟩ := first machine
  show (∀ value, (andThen run next machine).1 = .ok value → also value) ∧
    machine.SameEffects (andThen run next machine).2
  unfold andThen
  generalize run machine = ran at held same
  obtain ⟨result, after⟩ := ran
  cases result with
  | error error => exact ⟨fun _ equal => (nomatch equal), same⟩
  | ok value =>
    obtain ⟨later, behind⟩ := second value (held value rfl) after
    exact ⟨later, behind.collectors.trans same.collectors, behind.root.trans same.root,
      behind.host.trans same.host⟩

theorem quiet_identity : Quiet (fun _ => True) identity :=
  fun _ => ⟨fun _ _ => trivial, rfl, rfl, rfl⟩

theorem quiet_withFrame {holds : α → Prop} {run : Run α} (quiet : Quiet holds run) (frame : Frame) :
    Quiet holds (withFrame frame run) := by
  intro machine
  obtain ⟨held, same⟩ := quiet { machine with frames := frame :: machine.frames }
  exact ⟨held, same.collectors, same.root, same.host⟩

end Run

/-- Data has the property, what is put together from parts that have it has it too and the other way
round, and no builtin and no adder has it. -/
structure Value.Kept (holds : Value → Prop) : Prop where
  null : holds .null
  bool : ∀ value, holds (.bool value)
  number : ∀ value, holds (.number value)
  text : ∀ value, holds (.text value)
  array : ∀ {identity items}, (∀ item ∈ items, holds item) → holds (.array identity items)
  item : ∀ {identity items}, holds (.array identity items) → ∀ item ∈ items, holds item
  object : ∀ {identity entries}, (∀ entry ∈ entries, holds entry.2) →
    holds (.object identity (Dictionary.ofEntries entries))
  entry : ∀ {identity entries}, holds (.object identity entries) → ∀ entry ∈ entries, holds entry.2
  function : ∀ {span parameters body scope}, (∀ binding ∈ scope, holds binding.2) →
    holds (.function (.mk span parameters body scope))
  captured : ∀ {closure}, holds (.function closure) → ∀ binding ∈ closure.scope, holds binding.2
  builtin : ∀ known, ¬ holds (.builtin known)
  adder : ∀ collector, ¬ holds (.adder collector)

theorem Value.Kept.hereditary {holds : Value → Prop} (kept : Value.Kept holds) : Hereditary holds where
  null := kept.null
  bool := kept.bool
  number := kept.number
  text := kept.text
  item := kept.item
  entry := kept.entry

theorem kept_confined : Value.Kept Value.Confined where
  null := trivial
  bool _ := trivial
  number _ := trivial
  text _ := trivial
  array held := Value.itemsConfined_iff.mpr held
  item held := Value.itemsConfined_iff.mp held
  object held := ⟨Dictionary.ascending_ofEntries _, Value.entriesConfined_iff.mpr
    fun entry member => held entry (Dictionary.mem_of_mem_ofEntries member)⟩
  entry held := Value.entriesConfined_iff.mp held.2
  function held := Value.entriesConfined_iff.mpr held
  captured := by
    rintro ⟨span, parameters, body, scope⟩ held
    exact Value.entriesConfined_iff.mp held
  builtin _ held := held
  adder _ held := held

/-- Every value that is bound has the property. -/
def Binds (holds : Value → Prop) (scope : Scope) : Prop := ∀ binding ∈ scope, holds binding.2

/-- What a call calls and its arguments have the property. -/
structure Call.Keeps (holds : Value → Prop) (request : Call) : Prop where
  callee : holds request.callee
  arguments : ∀ argument ∈ request.arguments, holds argument

/-- Calls whose values have the property are quiet and have a result with the property. -/
def Caller.Keeps (holds : Value → Prop) (call : Caller) : Prop :=
  ∀ request : Call, request.Keeps holds → Run.Quiet holds (call request)

/-- What a block returns has the property. -/
def Flow.Keeps (holds : Value → Prop) : Flow → Prop
  | .next => True
  | .result value => holds value

/-- What a statement returns or binds has the property. -/
def Step.Keeps (holds : Value → Prop) : Step → Prop
  | .goOn scope => Binds holds scope
  | .finish value => holds value

section Operators

variable {holds : Value → Prop} (kept : Value.Kept holds)

include kept

private theorem quiet_memberOf {target : Value} (held : holds target) (property : String)
    (span : Span) : Run.Quiet holds (memberOf target property span) := by
  obtain failed | ⟨value, has, read⟩ := kept.hereditary.memberOf held property span
  · rw [failed]
    exact Run.quiet_fail _ _
  · rw [read]
    exact Run.quiet_succeed has

private theorem quiet_indexOf {target : Value} (held : holds target) (key : Value) (span : Span) :
    Run.Quiet holds (indexOf target key span) := by
  obtain failed | ⟨value, has, read⟩ := kept.hereditary.indexOf held key span
  · rw [failed]
    exact Run.quiet_fail _ _
  · rw [read]
    exact Run.quiet_succeed has

end Operators

section Syntax

variable {holds : Value → Prop}

mutual

theorem quiet_evaluate {call : Caller} (kept : Value.Kept holds) (calls : call.Keeps holds) :
    ∀ (expression : Expression) {scope : Scope}, Binds holds scope →
      Run.Quiet holds (evaluate call scope expression)
  | .literal _ value, scope, _ => by
    rw [evaluate]
    exact Run.quiet_succeed (kept.hereditary.literalValue value)
  | .array _ items, scope, binds => by
    rw [evaluate]
    refine Run.quiet_bind (quiet_evaluateItems kept calls items binds) ?_
    intro values held
    exact Run.quiet_bind Run.quiet_identity
      (fun identity _ => Run.quiet_succeed (kept.array held))
  | .object _ entries, scope, binds => by
    rw [evaluate]
    refine Run.quiet_bind (quiet_evaluateEntries kept calls entries binds) ?_
    intro values held
    exact Run.quiet_bind Run.quiet_identity
      (fun identity _ => Run.quiet_succeed (kept.object held))
  | .name span name, scope, binds => by
    rw [evaluate]
    split
    · rename_i value found
      rw [Value.lookup?_eq_get?] at found
      exact Run.quiet_succeed (binds _ (Dictionary.mem_of_get? found))
    · exact Run.quiet_fail _ _
  | .member span target property, scope, binds => by
    rw [evaluate]
    exact Run.quiet_bind (quiet_evaluate kept calls target binds)
      (fun value held => quiet_memberOf kept held property span)
  | .index span target key, scope, binds => by
    rw [evaluate]
    refine Run.quiet_bind (quiet_evaluate kept calls target binds) ?_
    intro value held
    exact Run.quiet_bind (quiet_evaluate kept calls key binds)
      (fun key _ => quiet_indexOf kept held key span)
  | .call span callee arguments, scope, binds => by
    rw [evaluate]
    refine Run.quiet_bind (quiet_evaluate kept calls callee binds) ?_
    intro function callable
    refine Run.quiet_bind (quiet_evaluateItems kept calls arguments binds) ?_
    intro values held
    exact calls _ ⟨callable, held⟩
  | .arrow span parameters body, scope, binds => by
    rw [evaluate]
    exact Run.quiet_succeed (kept.function binds)
  | .unary _ operator operand, scope, binds => by
    rw [evaluate]
    exact Run.quiet_bind (quiet_evaluate kept calls operand binds)
      (fun value _ => Run.quiet_succeed (kept.hereditary.applyUnary operator value))
  | .binary _ operator left right, scope, binds => by
    have rightQuiet := quiet_evaluate kept calls right binds
    rw [evaluate]
    refine Run.quiet_bind (quiet_evaluate kept calls left binds) ?_
    intro a leftHeld
    split
    · exact Run.quiet_succeed leftHeld
    · exact Run.quiet_succeed leftHeld
    · exact rightQuiet
    · exact rightQuiet
    · exact Run.quiet_bind rightQuiet
        (fun b rightHeld => Run.quiet_succeed (kept.hereditary.applyBinary _ leftHeld rightHeld))
  | .conditional _ condition consequent alternative, scope, binds => by
    have consequentQuiet := quiet_evaluate kept calls consequent binds
    have alternativeQuiet := quiet_evaluate kept calls alternative binds
    rw [evaluate]
    refine Run.quiet_bind (quiet_evaluate kept calls condition binds) ?_
    intro value _
    split
    · exact consequentQuiet
    · exact alternativeQuiet

theorem quiet_evaluateItems {call : Caller} (kept : Value.Kept holds) (calls : call.Keeps holds) :
    ∀ (items : List Expression) {scope : Scope}, Binds holds scope →
      Run.Quiet (fun values => ∀ value ∈ values, holds value) (evaluateItems call scope items)
  | [], scope, _ => by
    rw [evaluateItems]
    exact Run.quiet_succeed (fun _ member => nomatch member)
  | item :: rest, scope, binds => by
    rw [evaluateItems]
    refine Run.quiet_bind (quiet_evaluate kept calls item binds) ?_
    intro value held
    exact Run.quiet_bind (quiet_evaluateItems kept calls rest binds)
      (fun values others => Run.quiet_succeed (List.forall_mem_cons.mpr ⟨held, others⟩))

theorem quiet_evaluateEntries {call : Caller} (kept : Value.Kept holds) (calls : call.Keeps holds) :
    ∀ (entries : List (String × Expression)) {scope : Scope}, Binds holds scope →
      Run.Quiet (Binds holds) (evaluateEntries call scope entries)
  | [], scope, _ => by
    rw [evaluateEntries]
    exact Run.quiet_succeed (fun _ member => nomatch member)
  | (key, item) :: rest, scope, binds => by
    rw [evaluateEntries]
    refine Run.quiet_bind (quiet_evaluate kept calls item binds) ?_
    intro value held
    exact Run.quiet_bind (quiet_evaluateEntries kept calls rest binds)
      (fun values others => Run.quiet_succeed (List.forall_mem_cons.mpr ⟨held, others⟩))

theorem quiet_executeStatement {call : Caller} (kept : Value.Kept holds) (calls : call.Keeps holds) :
    ∀ (statement : Statement) {scope : Scope}, Binds holds scope →
      Run.Quiet (Step.Keeps holds) (executeStatement call scope statement)
  | .binding _ name value, scope, binds => by
    rw [executeStatement]
    exact Run.quiet_bind (quiet_evaluate kept calls value binds)
      (fun value held => Run.quiet_succeed (List.forall_mem_cons.mpr ⟨held, binds⟩))
  | .expression _ value, scope, binds => by
    rw [executeStatement]
    exact Run.quiet_bind (quiet_evaluate kept calls value binds)
      (fun value held => Run.quiet_succeed binds)
  | .branch _ condition consequent alternative, scope, binds => by
    have consequentQuiet := quiet_executeBlock kept calls consequent binds
    rw [executeStatement]
    refine Run.quiet_bind (quiet_evaluate kept calls condition binds) ?_
    intro value _
    have finish : ∀ flow : Flow, flow.Keeps holds → Run.Quiet (Step.Keeps holds)
        (match flow with
          | .next => pure (.goOn scope)
          | .result value => pure (.finish value)) := by
      intro flow held
      cases flow with
      | next => exact Run.quiet_succeed binds
      | result value => exact Run.quiet_succeed held
    dsimp only
    split
    · exact Run.quiet_bind consequentQuiet finish
    · cases alternative with
      | none => exact finish .next trivial
      | some statements =>
        exact Run.quiet_bind (quiet_executeBlock kept calls statements binds) finish
  | .result _ none, scope, _ => by
    rw [executeStatement]
    exact Run.quiet_succeed kept.null
  | .result _ (some value), scope, binds => by
    rw [executeStatement]
    exact Run.quiet_bind (quiet_evaluate kept calls value binds)
      (fun value held => Run.quiet_succeed held)

theorem quiet_executeBlock {call : Caller} (kept : Value.Kept holds) (calls : call.Keeps holds) :
    ∀ (statements : List Statement) {scope : Scope}, Binds holds scope →
      Run.Quiet (Flow.Keeps holds) (executeBlock call scope statements)
  | [], scope, _ => by
    rw [executeBlock]
    exact Run.quiet_succeed trivial
  | statement :: rest, scope, binds => by
    rw [executeBlock]
    refine Run.quiet_bind (quiet_executeStatement kept calls statement binds) ?_
    intro step held
    cases step with
    | goOn inner => exact quiet_executeBlock kept calls rest held
    | finish value => exact Run.quiet_succeed held

end

end Syntax

section Calls

variable {holds : Value → Prop} (kept : Value.Kept holds)

include kept

private theorem quiet_callClosure {call : Caller} (calls : call.Keeps holds) {closure : Closure}
    (callable : holds (.function closure)) {arguments : List Value}
    (held : ∀ argument ∈ arguments, holds argument) :
    Run.Quiet holds (callClosure call closure arguments) := by
  have inner : Binds holds (bindParameters closure.scope closure.parameters arguments) :=
    kept.hereditary.bindParameters (kept.captured callable) held
  obtain ⟨span, parameters, body, scope⟩ := closure
  cases body with
  | expression value => exact quiet_evaluate kept calls value inner
  | block statements =>
    refine Run.quiet_bind (quiet_executeBlock kept calls statements inner) ?_
    intro flow returned
    cases flow with
    | next => exact Run.quiet_succeed kept.null
    | result value => exact Run.quiet_succeed returned

private theorem quiet_enter {call : Caller} (calls : call.Keeps holds) (source : String)
    {request : Call} (keeps : request.Keeps holds) :
    Run.Quiet holds (enter source call request) := by
  obtain ⟨name, callee, arguments, span⟩ := request
  cases callee with
  | builtin known => exact absurd keeps.callee (kept.builtin known)
  | adder collector => exact absurd keeps.callee (kept.adder collector)
  | function closure => exact quiet_callClosure kept calls keeps.callee keeps.arguments
  | _ => exact Run.quiet_fail _ _

theorem keeps_callWithin (source : String) (room : Nat) : (callWithin source room).Keeps holds := by
  induction room with
  | zero =>
    intro request _
    unfold callWithin
    split <;> exact Run.quiet_fail _ _
  | succ room ih =>
    intro request keeps
    unfold callWithin
    split
    · exact Run.quiet_withFrame (quiet_enter kept ih source keeps) _
    · exact Run.quiet_fail _ _

/-- A single expression leaves the recording of its host as it was, and its value has the property. -/
theorem quiet_singleExpression (source : String) {state : Json}
    (binds : Binds holds (documentScope state).1) (host : Recording) :
    (∀ value, (singleExpression source state host).1 = .ok value → holds value) ∧
      (singleExpression source state host).2 = host := by
  unfold singleExpression
  cases Source.expression source with
  | error error => exact ⟨fun _ is => (nomatch is), rfl⟩
  | ok expression =>
    obtain ⟨held, same⟩ := quiet_evaluate kept (keeps_callWithin kept source callLimit) expression
      binds (Machine.initial (documentScope state).2 host)
    refine ⟨fun value is => held value ?_, same.host⟩
    dsimp only at is
    cases outcome : (evaluate (callWithin source callLimit) (documentScope state).1 expression
        (Machine.initial (documentScope state).2 host)).1 with
    | error error =>
      rw [outcome] at is
      cases is
    | ok other =>
      rw [outcome] at is
      cases is
      rfl

end Calls

/-- The scope of a single expression binds values with the property if the values of the document and of
its entries have it, whatever the keys are. -/
theorem binds_documentScope {holds : Value → Prop} {state : Json} (own : holds (Value.ofJson 0 state).1)
    (parts : ∀ entry ∈ (state.entries?).getD [], ∀ next, holds (Value.ofJson next entry.2).1) :
    Binds holds (documentScope state).1 := by
  have entries : ∀ (entries : List (String × Json)) (next : Nat) (scope : Scope),
      (∀ entry ∈ entries, ∀ next, holds (Value.ofJson next entry.2).1) → Binds holds scope →
      Binds holds (bindEntries next scope entries).1 := by
    intro entries
    induction entries with
    | nil => exact fun _ _ _ binds => binds
    | cons entry rest ih =>
      intro next scope held binds
      obtain ⟨first, behind⟩ := List.forall_mem_cons.mp held
      exact ih _ _ behind (List.forall_mem_cons.mpr ⟨first next, binds⟩)
  refine entries _ _ _ parts (List.forall_mem_cons.mpr ⟨own, ?_⟩)
  exact fun _ member => nomatch member

theorem confined_singleExpression {source : String} {state : Json} (regular : state.Regular)
    {host : Recording} {value : Value} (result : (singleExpression source state host).1 = .ok value) :
    value.Confined := by
  have binds : Binds Value.Confined (documentScope state).1 := by
    refine binds_documentScope (Value.confined_ofJson state 0 regular) ?_
    cases state with
    | object entries =>
      intro entry member next
      exact Value.confined_ofJson _ next (Json.entriesRegular_iff.mp regular.2 entry member)
    | _ => exact fun _ member => nomatch member
  exact (quiet_singleExpression kept_confined source binds host).1 value result

end ScreenStudio.Evaluation
