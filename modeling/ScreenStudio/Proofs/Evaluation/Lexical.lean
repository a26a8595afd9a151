/- digest: Names are resolved by where they stand in the source, whoever calls and whenever. -/

import ScreenStudio.Proofs.Evaluation.Lawful
import ScreenStudio.Proofs.Evaluation.Bounded
import ScreenStudio.Proofs.Source.Occurrence
import ScreenStudio.Proofs.Value.Functions
import Mathlib.Data.List.Forall2

/-!
A scope holds what the binders have bound that are visible at a place of the source: every arrow function
has captured the scope of its place, its parameters are bound over what it has captured and not over the
scope of a caller, and a declaration is bound over the scope that it was evaluated in. This is a law of all
that a program evaluates, also in the handlers of its tree.
-/

set_option autoImplicit false
set_option relaxedAutoImplicit false

namespace ScreenStudio

open Source (Span Expression Statement Body Binder Occurrence parameterBinders)

/-- The binders of the vocabulary, the innermost first. -/
def Vocabulary.binders (vocabulary : Vocabulary) : List Binder :=
  .vocabulary "state" ::
    ((vocabulary.builders ++ Vocabulary.hostFunctions).map (fun known => .vocabulary known.name)).reverse

/-- The names that a program uses, with what is visible to each of them. -/
def Vocabulary.occurrences (vocabulary : Vocabulary) (statements : List Statement) : List Occurrence :=
  Statement.listOccurrences vocabulary.binders statements

namespace Evaluation

def Piece.occurrences (visible : List Binder) : Piece → List Occurrence
  | .expression value => value.occurrences visible
  | .items values => Expression.listOccurrences visible values
  | .entries values => Expression.entryOccurrences visible values
  | .statement next => next.occurrences visible
  | .block statements => Statement.listOccurrences visible statements

private theorem flatMap_inside_subset (piece : Piece) (visible : List Binder) :
    piece.inside.flatMap (Piece.occurrences visible) ⊆ piece.occurrences visible := by
  cases piece with
  | expression value => cases value <;> simp [Piece.inside, Piece.occurrences, Expression.occurrences]
  | items values => cases values <;> simp [Piece.inside, Piece.occurrences, Expression.listOccurrences]
  | entries values => cases values <;> simp [Piece.inside, Piece.occurrences, Expression.entryOccurrences]
  | statement next =>
    cases next with
    | binding span name value => simp [Piece.inside, Piece.occurrences, Statement.occurrences]
    | expression span value => simp [Piece.inside, Piece.occurrences, Statement.occurrences]
    | branch span condition consequent alternative =>
      cases alternative <;> simp [Piece.inside, Piece.occurrences, Statement.occurrences]
    | result span value => cases value <;> simp [Piece.inside, Piece.occurrences, Statement.occurrences]
  | block statements => cases statements <;> simp [Piece.inside, Piece.occurrences, Statement.listOccurrences]

theorem Piece.occurrences_inside {piece inner : Piece} (member : inner ∈ piece.inside)
    (visible : List Binder) : inner.occurrences visible ⊆ piece.occurrences visible :=
  fun _ within => flatMap_inside_subset piece visible (List.mem_flatMap.mpr ⟨inner, member, within⟩)

private theorem Run.ok_of_bind {α β : Type} {run : Run α} {next : α → Run β} {machine after : Machine}
    {value : β} (ran : (run >>= next) machine = (.ok value, after)) :
    ∃ first middle, run machine = (.ok first, middle) ∧ next first middle = (.ok value, after) := by
  cases begun : run machine with
  | mk result middle =>
    cases result with
    | error error =>
      rw [Run.bind_of_error begun] at ran
      cases ran
    | ok first =>
      rw [Run.bind_of_ok begun] at ran
      exact ⟨first, middle, rfl, ran⟩

/-- What follows a block in a scope: the next statement, or the end. -/
private def onwards (scope : Scope) : Flow → Run Step
  | .next => pure (.goOn scope)
  | .result value => pure (.finish value)

/-- Behind a declaration the scope has one more binding, and behind any other statement it is the same. -/
theorem scope_of_executeStatement {call : Caller} {scope inner : Scope} {statement : Statement}
    {machine after : Machine}
    (ran : executeStatement call scope statement machine = (.ok (.goOn inner), after)) :
    (∃ span name initial value, statement = .binding span name initial ∧
      evaluate call scope initial machine = (.ok value, after) ∧ inner = Scope.bind name value scope) ∨
    (statement.binders = [] ∧ inner = scope) := by
  cases statement with
  | binding span name initial =>
    rw [executeStatement] at ran
    obtain ⟨value, middle, given, bound⟩ := Run.ok_of_bind ran
    cases bound
    exact .inl ⟨span, name, initial, value, rfl, given, rfl⟩
  | expression span value =>
    rw [executeStatement] at ran
    obtain ⟨_, _, _, same⟩ := Run.ok_of_bind ran
    cases same
    exact .inr ⟨rfl, rfl⟩
  | branch span condition consequent alternative =>
    have same : ∀ (run : Run Flow) (middle : Machine),
        (run >>= onwards scope) middle = (.ok (.goOn inner), after) → inner = scope := by
      intro run middle ended
      obtain ⟨flow, _, _, left⟩ := Run.ok_of_bind ended
      cases flow with
      | next =>
        cases left
        rfl
      | result value => cases left
    rw [executeStatement] at ran
    obtain ⟨truth, middle, _, behind⟩ := Run.ok_of_bind ran
    dsimp only at behind
    refine .inr ⟨rfl, ?_⟩
    split at behind
    · exact same _ _ behind
    · cases alternative with
      | none => exact same _ _ behind
      | some statements => exact same _ _ behind
  | result span value =>
    cases value with
    | none =>
      rw [executeStatement] at ran
      cases ran
    | some value =>
      rw [executeStatement] at ran
      obtain ⟨_, _, _, finished⟩ := Run.ok_of_bind ran
      cases finished

/-- A source and what it is run with. -/
structure Setting where
  source : String
  next : Nat
  vocabulary : Vocabulary
  state : Json
  host : Recording

namespace Setting

variable (setting : Setting)

/-- Where the evaluation of a program starts: with its statements, and with every handler of its tree,
whenever that is invoked. -/
inductive Starts : Point → Prop
  | screen {statements : List Statement} (read : Source.program setting.source = .ok statements) :
    Starts (Point.screen setting.next setting.vocabulary setting.state setting.host statements)
  | handler {root : Node} {property : String} {closure : Closure} {fresh : Nat}
    (made : (screenFrom setting.next setting.source setting.vocabulary setting.state setting.host).1 =
      .ok root)
    (among : (property, .callback closure setting.source fresh) ∈ root.handlers)
    (later : Nat) (recording : Recording) : Starts (Point.handler closure later recording)

/-- The points that the evaluation of a program goes through. -/
def Reached (point : Point) : Prop :=
  ∃ start, setting.Starts start ∧ point ∈ start.points setting.source

/-- What the vocabulary binds. -/
def initialScope : Scope := setting.vocabulary.scope (Value.ofJson setting.next setting.state).1

/-- What a binder binds: something of the vocabulary, an argument of a call of its arrow function, or what
the value of its declaration has given. -/
inductive Binds : Binder → Value → Prop
  | vocabulary {name : String} {value : Value} (known : (name, value) ∈ setting.initialScope) :
    Binds (.vocabulary name) value
  | parameter {room index : Nat} {called name : String} {arrow span : Span} {parameters : List String}
    {body : Body} {scope : Scope} {arguments : List Value} {machine : Machine}
    (entered : setting.Reached
      ⟨room, .entered ⟨called, .function ⟨arrow, parameters, body, scope⟩, arguments, span⟩, machine⟩)
    (is : parameters[index]? = some name) :
    Binds (.parameter arrow index name) (arguments[index]?.getD .null)
  | declaration {room : Nat} {scope : Scope} {span : Span} {name : String} {initial : Expression}
    {machine after : Machine} {value : Value}
    (executed : setting.Reached ⟨room, .statement scope (.binding span name initial), machine⟩)
    (given : evaluate (callWithin setting.source room) scope initial machine = (.ok value, after)) :
    Binds (.declaration span name initial) value

/-- The scope consists of what the binders have bound: the vocabulary, over it the arguments of a call of
an arrow function over what that has captured, and the values of declarations over the scope that they
were evaluated in. -/
inductive Bound : List Binder → Scope → Prop
  | vocabulary : Bound setting.vocabulary.binders setting.initialScope
  | parameters {visible : List Binder} {room : Nat} {called : String} {arrow span : Span}
    {parameters : List String} {body : Body} {scope : Scope} {arguments : List Value} {machine : Machine}
    (captured : Bound visible scope)
    (entered : setting.Reached
      ⟨room, .entered ⟨called, .function ⟨arrow, parameters, body, scope⟩, arguments, span⟩, machine⟩) :
    Bound (parameterBinders arrow parameters ++ visible) (bindParameters scope parameters arguments)
  | declaration {visible : List Binder} {room : Nat} {scope : Scope} {span : Span} {name : String}
    {initial : Expression} {machine after : Machine} {value : Value} (before : Bound visible scope)
    (executed : setting.Reached ⟨room, .statement scope (.binding span name initial), machine⟩)
    (given : evaluate (callWithin setting.source room) scope initial machine = (.ok value, after)) :
    Bound (.declaration span name initial :: visible) (Scope.bind name value scope)

variable {setting}

private theorem points_subset {source : String} {start whole : Point}
    (within : whole ∈ start.points source) : whole.points source ⊆ start.points source := by
  have step : ∀ whole : Point, whole.points source ⊆ start.points source →
      ∀ part ∈ whole.parts source, part.points source ⊆ start.points source :=
    fun _ all _ member _ inner => all (Point.mem_points_of_part member inner)
  exact Point.inherited step (List.Subset.refl _) within

theorem Reached.part {whole part : Point} (reached : setting.Reached whole)
    (member : part ∈ whole.parts setting.source) : setting.Reached part := by
  obtain ⟨start, starts, within⟩ := reached
  exact ⟨start, starts,
    points_subset within (Point.mem_points_of_part member (Point.mem_points_self _ _))⟩

/-- A law that holds where the screen starts, and of the callbacks of every tree that it holds of, holds at
every point that is reached. -/
theorem Reached.holds {law : Law setting.source} {statements : List Statement} {point : Point}
    (read : Source.program setting.source = .ok statements)
    (here : law.At (Point.screen setting.next setting.vocabulary setting.state setting.host statements))
    (callback : ∀ {bound root property closure fresh}, law.child bound (.node root) →
      (property, .callback closure setting.source fresh) ∈ root.handlers →
      ∀ later, law.value later (.function closure))
    (reaches : ∀ {point}, setting.Reached point → law.reached point) (reached : setting.Reached point) :
    law.At point := by
  obtain ⟨start, starts, within⟩ := reached
  refine Law.at_points ?_ within
  cases starts with
  | screen again =>
    cases read.symm.trans again
    exact here
  | handler made among later recording =>
    obtain ⟨_, held⟩ := Law.holds_of_screenFrom here read made
    exact Law.at_handler (callback held among later)
      (reaches ⟨_, .handler made among later recording, Point.mem_points_self _ _⟩)

section Scopes

variable {visible : List Binder} {scope : Scope}

private theorem initialScope_eq : setting.initialScope =
    ("state", (Value.ofJson setting.next setting.state).1) ::
      ((setting.vocabulary.builders ++ Vocabulary.hostFunctions).map
        (fun known => (known.name, Value.builtin known))).reverse := by
  refine congrArg (List.cons _) ?_
  exact List.foldl_flip_cons_eq_append.trans (List.append_nil _)

/-- A binding of a scope that a binder has made. -/
def Made (setting : Setting) (binder : Binder) (entry : String × Value) : Prop :=
  entry.1 = binder.name ∧ setting.Binds binder entry.2

theorem Bound.made (bound : setting.Bound visible scope) : List.Forall₂ setting.Made visible scope := by
  induction bound with
  | vocabulary =>
    have each : ∀ entry ∈ setting.initialScope, setting.Binds (.vocabulary entry.1) entry.2 :=
      fun entry member => .vocabulary member
    have binders : setting.vocabulary.binders =
        setting.initialScope.map (fun entry => .vocabulary entry.1) := by
      rw [initialScope_eq, List.map_cons, List.map_reverse, List.map_map]
      rfl
    rw [binders, List.forall₂_map_left_iff, List.forall₂_same]
    exact fun entry member => ⟨rfl, each entry member⟩
  | @parameters visible room called arrow span parameters body scope arguments machine captured entered ih =>
    rw [bindParameters_eq, parameterBinders]
    refine List.rel_append (List.forall₂_reverse_iff.mpr ?_) ih
    rw [List.forall₂_map_left_iff, List.forall₂_map_right_iff, List.forall₂_same]
    intro entry member
    exact ⟨rfl, .parameter entered (List.mem_zipIdx_iff_getElem?.mp member)⟩
  | declaration before executed given ih => exact .cons ⟨rfl, .declaration executed given⟩ ih

theorem Bound.names (bound : setting.Bound visible scope) :
    scope.map Prod.fst = visible.map Binder.name := by
  have each := bound.made
  clear bound
  induction each with
  | nil => rfl
  | cons same _ ih => rw [List.map_cons, List.map_cons, same.1, ih]

theorem Bound.lookup {name : String} {inner outer : List Binder} {binder : Binder}
    (bound : setting.Bound visible scope) (is : visible = inner ++ binder :: outer)
    (named : binder.name = name) (innermost : ∀ other ∈ inner, other.name ≠ name) :
    ∃ value, scope[inner.length]? = some (name, value) ∧ Scope.lookup? name scope = some value ∧
      setting.Binds binder value := by
  have each := bound.made
  rw [is] at each
  clear bound is
  induction inner generalizing scope with
  | nil =>
    obtain ⟨⟨key, value⟩, _, ⟨same, binds⟩, _, rfl⟩ := List.forall₂_cons_left_iff.mp each
    have here : key = name := same.trans named
    rw [here]
    exact ⟨value, rfl, if_pos rfl, binds⟩
  | cons first rest ih =>
    obtain ⟨⟨key, value⟩, _, ⟨same, _⟩, others, rfl⟩ := List.forall₂_cons_left_iff.mp each
    obtain ⟨other, apart⟩ := List.forall_mem_cons.mp innermost
    obtain ⟨found, is, looked, binds⟩ := ih apart others
    refine ⟨found, is, (if_neg ?_).trans looked, binds⟩
    exact fun equal => other (same.symm.trans equal)

theorem Bound.lookup_eq_none {name : String} (bound : setting.Bound visible scope) :
    Scope.lookup? name scope = none ↔ ∀ binder ∈ visible, binder.name ≠ name := by
  have each := bound.made
  clear bound
  induction each with
  | nil => exact iff_of_true rfl (List.forall_mem_nil _)
  | @cons binder entry visible scope same _ ih =>
    obtain ⟨key, value⟩ := entry
    have named : key = binder.name := same.1
    rw [List.forall_mem_cons, ← named, ← propext ih]
    have looked : Scope.lookup? name ((key, value) :: scope) =
        if key = name then some value else Scope.lookup? name scope := rfl
    rw [looked]
    split
    · next equal => exact iff_of_false (fun none => by cases none) (fun both => both.1 equal)
    · next other => exact ⟨fun none => ⟨other, none⟩, And.right⟩

end Scopes

section Law

variable (setting) (program : List Occurrence)

/-- The syntax stands where the binders of the scope are visible. -/
def Placed (scope : Scope) (piece : Piece) : Prop :=
  ∃ visible, piece.occurrences visible ⊆ program ∧ setting.Bound visible scope

/-- An arrow function has captured the scope of its place. -/
def Captures (closure : Closure) : Prop :=
  setting.Placed program closure.scope
    (.expression (.arrow closure.span closure.parameters closure.body))

variable {setting program}

private theorem placed_behind {room : Nat} {scope inner : Scope} {statement : Statement}
    {rest : List Statement} {machine after : Machine}
    (reached : setting.Reached ⟨room, .statement scope statement, machine⟩)
    (ran : executeStatement (callWithin setting.source room) scope statement machine =
      (.ok (.goOn inner), after))
    (placed : setting.Placed program scope (.block (statement :: rest))) :
    setting.Placed program inner (.block rest) := by
  obtain ⟨visible, within, bound⟩ := placed
  have behind : Statement.listOccurrences (statement.binders ++ visible) rest ⊆ program :=
    List.Subset.trans (List.subset_append_right _ _) within
  refine ⟨statement.binders ++ visible, behind, ?_⟩
  obtain ⟨span, name, initial, value, rfl, given, rfl⟩ | ⟨none, rfl⟩ := scope_of_executeStatement ran
  · exact .declaration bound reached given
  · rw [none]
    exact bound

/-- The law of scopes that hold what is visible. -/
def lexical (setting : Setting) (program : List Occurrence) : Law setting.source where
  value _ := Value.Functions (setting.Captures program) setting.source
  child _ := Child.Functions (setting.Captures program) setting.source
  property _ := Property.Functions (setting.Captures program) setting.source
  placed := setting.Placed program
  reached := setting.Reached
  failure error := ∀ name, error.fault = .notDefined name →
    ∃ occurrence ∈ program, occurrence.name = name ∧ ¬ occurrence.IsBound
  value_mono _ held := held
  child_mono _ held := held
  property_mono _ held := held
  null := .null
  bool := .bool
  number := .number
  text := .text
  adder _ := .adder _
  array _ held := .array _ held
  item held := by
    cases held with
    | array identity items => exact items
  object _ held := .object _ held
  entry held := by
    cases held with
    | object identity entries => exact entries
  arrow placed captured := .function placed captured
  captured held := by
    cases held with
    | function own captured => exact captured
  node _ held := .node _ held
  tree held := by
    cases held with
    | node identity tree => exact tree
  element _ own inner := .node _ own inner
  childText := .text
  data := .data
  action := .action
  callback held _ := .callback _ held
  parts reached _ member := reached.part member
  inside := by
    rintro scope piece ⟨visible, within, bound⟩ inner member
    exact ⟨visible, List.Subset.trans (Piece.occurrences_inside member visible) within, bound⟩
  behind := placed_behind
  body := by
    rintro bound room name ⟨arrow, parameters, body, scope⟩ arguments span machine reached held
    cases held with
    | function own captured =>
      obtain ⟨visible, within, outer⟩ := own
      refine ⟨parameterBinders arrow parameters ++ visible, ?_, .parameters outer reached⟩
      cases body with
      | expression value => exact within
      | block statements => exact within
  raised _ fault _ other name is := absurd is (other name)
  unbound := by
    rintro span name scope frames ⟨visible, within, bound⟩ missing other is
    cases is
    refine ⟨⟨span, name, visible⟩, within List.mem_cons_self, rfl, ?_⟩
    rintro ⟨binder, member, named⟩
    exact bound.lookup_eq_none.mp missing binder member named

end Law

section Program

variable {statements : List Statement}

private theorem at_start (read : Source.program setting.source = .ok statements) :
    (setting.lexical (setting.vocabulary.occurrences statements)).At
      (Point.screen setting.next setting.vocabulary setting.state setting.host statements) :=
  Law.at_screen (fun known => .builtin known) (Value.holds_ofJson Value.cumulative_functions _ _)
    ⟨_, List.Subset.refl _, .vocabulary⟩ ⟨_, .screen read, Point.mem_points_self _ _⟩

private theorem functions_handlers (read : Source.program setting.source = .ok statements) {root : Node}
    (made : (screenFrom setting.next setting.source setting.vocabulary setting.state setting.host).1 =
      .ok root) :
    ∀ entry ∈ root.handlers,
      entry.2.Functions (setting.Captures (setting.vocabulary.occurrences statements)) setting.source := by
  obtain ⟨_, held⟩ := Law.holds_of_screenFrom (at_start read) read made
  exact Node.functions_handlers held

private theorem at_reached (read : Source.program setting.source = .ok statements) {point : Point}
    (reached : setting.Reached point) :
    (setting.lexical (setting.vocabulary.occurrences statements)).At point :=
  reached.holds read (at_start read) (fun held among _ => Node.functions_callback held among) id

theorem program_of_screenFrom {root : Node}
    (made : (screenFrom setting.next setting.source setting.vocabulary setting.state setting.host).1 =
      .ok root) : ∃ statements, Source.program setting.source = .ok statements := by
  cases read : Source.program setting.source with
  | ok statements => exact ⟨statements, rfl⟩
  | error error =>
    unfold screenFrom at made
    rw [read] at made
    cases made

theorem failure_of_outcome {source : String} {law : Law source} {point : Point}
    (outcome : law.Outcome point) {error : RuntimeError} (fails : point.failure? source = some error) :
    law.failure error := by
  have ended : ∀ {α : Type} {good : Nat → α → Prop} {low : Nat}
      {result : Except RuntimeError α × Machine}, law.Yields good low result →
      (ending result).1 = some error → law.failure error := by
    intro α good low result yields ends
    obtain ⟨result, after⟩ := result
    cases result with
    | error other =>
      cases ends
      exact yields.error error rfl
    | ok value => cases ends
  obtain ⟨room, activity, machine⟩ := point
  cases activity <;> exact ended outcome fails

end Program

/-- A name is resolved by where it stands. The scope holds what the binders have bound that are visible
there, and nothing else. The value is what the innermost one of the name has bound, and where there is none
the evaluation fails. -/
structure Resolves (setting : Setting) (occurrence : Occurrence) (scope : Scope) (machine : Machine)
    (outcome : Except RuntimeError Value × Machine) : Prop where
  bound : setting.Bound occurrence.visible scope
  names : scope.map Prod.fst = occurrence.visible.map Binder.name
  found : ∀ inner binder outer, occurrence.visible = inner ++ binder :: outer →
    binder.name = occurrence.name → (∀ other ∈ inner, other.name ≠ occurrence.name) →
    ∃ value, scope[inner.length]? = some (occurrence.name, value) ∧ setting.Binds binder value ∧
      outcome = (.ok value, machine)
  missing : ¬ occurrence.IsBound →
    outcome = (.error ⟨.notDefined occurrence.name, traceFrom occurrence.span machine.frames⟩, machine)

private theorem resolves_of_bound {occurrence : Occurrence} {scope : Scope}
    (bound : setting.Bound occurrence.visible scope) (call : Caller) (machine : Machine) :
    setting.Resolves occurrence scope machine
      (evaluate call scope (.name occurrence.span occurrence.name) machine) := by
  refine ⟨bound, bound.names, ?_, ?_⟩
  · intro inner binder outer is named innermost
    obtain ⟨value, here, looked, binds⟩ := bound.lookup is named innermost
    refine ⟨value, here, binds, ?_⟩
    rw [evaluate, looked]
    rfl
  · intro unbound
    have none : Scope.lookup? occurrence.name scope = none :=
      bound.lookup_eq_none.mpr fun binder member named => unbound ⟨binder, member, named⟩
    rw [evaluate, none]
    rfl

/-- Scoping is lexical. Whenever a name of a program is evaluated, in the screen or in a handler of its
tree that is invoked later, the scope holds what is visible where the name stands in the source, and the
name has the value that the innermost binder of the name has bound there. So a program in which something
visible has each of its names fails nowhere with a name that is not defined. -/
theorem scoping_is_lexical (setting : Setting) :
    (∀ statements, Source.program setting.source = .ok statements →
      ∀ room scope span name machine,
        setting.Reached ⟨room, .expression scope (.name span name), machine⟩ →
        ∃ occurrence ∈ setting.vocabulary.occurrences statements,
          occurrence.span = span ∧ occurrence.name = name ∧
          setting.Resolves occurrence scope machine
            (evaluate (callWithin setting.source room) scope (.name span name) machine)) ∧
    (∀ root, (screenFrom setting.next setting.source setting.vocabulary setting.state setting.host).1 =
        .ok root →
      ∀ entry ∈ root.handlers, ∀ closure origin fresh, entry.2 = .callback closure origin fresh →
        origin = setting.source) ∧
    (∀ statements, Source.program setting.source = .ok statements →
      (∀ occurrence ∈ setting.vocabulary.occurrences statements, occurrence.IsBound) → ∀ name,
        (∀ point error, setting.Reached point → point.failure? setting.source = some error →
          error.fault ≠ .notDefined name) ∧
        (∀ fault stack,
          (screenFrom setting.next setting.source setting.vocabulary setting.state setting.host).1 =
            .error (.runtime fault stack) → fault ≠ .notDefined name) ∧
        (∀ root,
          (screenFrom setting.next setting.source setting.vocabulary setting.state setting.host).1 =
            .ok root →
          ∀ entry ∈ root.handlers, ∀ later recording fault stack,
            (entry.2.invokeFrom later recording).1 = .error (.runtime fault stack) →
            fault ≠ .notDefined name)) := by
  refine ⟨?_, ?_, ?_⟩
  · intro statements read room scope span name machine reached
    obtain ⟨visible, within, bound⟩ := (at_reached read reached).placed scope _ rfl
    exact ⟨⟨span, name, visible⟩, within List.mem_cons_self, rfl, rfl, resolves_of_bound bound _ machine⟩
  · intro root made entry member closure origin fresh is
    obtain ⟨statements, read⟩ := program_of_screenFrom made
    have held := functions_handlers read made entry member
    rw [is] at held
    cases held
    rfl
  · intro statements read closed name
    have nowhere : ∀ point error, setting.Reached point →
        point.failure? setting.source = some error → error.fault ≠ .notDefined name := by
      intro point error reached fails is
      obtain ⟨occurrence, member, _, unbound⟩ :=
        failure_of_outcome (Law.at_parts (at_reached read reached)).2 fails name is
      exact unbound (closed occurrence member)
    refine ⟨nowhere, ?_, ?_⟩
    · intro fault stack failed is
      obtain ⟨others, error, again, fails, located⟩ := failure_of_screenFrom failed
      cases located
      exact nowhere _ error ⟨_, .screen again, Point.mem_points_self _ _⟩ fails is
    · intro root made entry member later recording fault stack failed is
      obtain ⟨property, reaction⟩ := entry
      have held := functions_handlers read made _ member
      cases held with
      | action content => cases failed
      | callback fresh captured =>
        obtain ⟨error, fails, located⟩ := failure_of_invokeFrom failed
        cases located
        exact nowhere _ error ⟨_, .handler made member later recording, Point.mem_points_self _ _⟩ fails is

end Setting

end Evaluation

end ScreenStudio
