/- digest: The points that an evaluation goes through, in order, and why there are finitely many. -/

import ScreenStudio.Evaluation.Program

/-!
An evaluation consists of evaluations. A point is one of them: what is evaluated, the machine it starts
in, and how many further calls may be in progress there. The parts of a point are the evaluations that
it starts itself, in their order, each in the machine that the one before has left; where one of them
fails, the ones behind it are not started. The points within a point are the point, its parts, their
parts and so on, in the order in which they are started.

A part either enters a call, which leaves room for one call less, or has less syntax or fewer items
before it. So the points within a point are finitely many.
-/

set_option autoImplicit false
set_option relaxedAutoImplicit false

namespace ScreenStudio.Evaluation

open Source (Span Expression Statement Body BinaryOperator)

/-- What is evaluated at a point. A call is asked for by `call`; behind `entered` it is in progress.
The other five of the last six are what builders do. -/
inductive Activity
  | expression (scope : Scope) (value : Expression)
  | items (scope : Scope) (items : List Expression)
  | entries (scope : Scope) (entries : List (String × Expression))
  | statement (scope : Scope) (statement : Statement)
  | block (scope : Scope) (statements : List Statement)
  | call (request : Call)
  | entered (request : Call)
  | collection (builder : Option Value) (span : Span)
  | content (content : Option Value) (absent : String) (span : Span)
  | list (renderer : Value) (span : Span) (index : Nat) (items : List Value)
  | item (renderer item : Value) (index : Nat) (span : Span)

/-- A call that is asked for, and not yet in progress. -/
def Activity.isCall : Activity → Bool
  | .call _ => true
  | _ => false

/-- An evaluation that starts: with room for so many further calls, in a machine. -/
structure Point where
  room : Nat
  activity : Activity
  machine : Machine

/-- The failure of a run, if it fails, and the machine it leaves. -/
def ending {α : Type} (outcome : Except RuntimeError α × Machine) : Option RuntimeError × Machine :=
  match outcome with
  | (.ok _, after) => (none, after)
  | (.error error, after) => (some error, after)

def Activity.ending (source : String) (call : Caller) (machine : Machine) :
    Activity → Option RuntimeError × Machine
  | .expression scope value => Evaluation.ending (evaluate call scope value machine)
  | .items scope values => Evaluation.ending (evaluateItems call scope values machine)
  | .entries scope values => Evaluation.ending (evaluateEntries call scope values machine)
  | .statement scope next => Evaluation.ending (executeStatement call scope next machine)
  | .block scope statements => Evaluation.ending (executeBlock call scope statements machine)
  | .call request => Evaluation.ending (call request machine)
  | .entered request => Evaluation.ending (enter source call request machine)
  | .collection builder span => Evaluation.ending (childrenOf call builder span machine)
  | .content producer absent span => Evaluation.ending (contentOf call producer absent span machine)
  | .list renderer span index values =>
    Evaluation.ending (itemChildren call renderer span index values machine)
  | .item renderer value index span =>
    Evaluation.ending (itemChild call renderer value index span machine)

/-- The points behind an outcome: none where it is a failure. -/
def following {α : Type} (outcome : Except RuntimeError α × Machine)
    (next : α → Machine → List Point) : List Point :=
  match outcome with
  | (.ok value, after) => next value after
  | (.error _, _) => []

/-- The left operand alone gives the value of the operation. -/
def isDecided (operator : BinaryOperator) (left : Value) : Bool :=
  match operator with
  | .and => !left.isTruthy
  | .or => left.isTruthy
  | _ => false

/-- The machine in which a call is in progress. -/
def Machine.entering (machine : Machine) (request : Call) : Machine :=
  { machine with frames := ⟨request.name, request.span⟩ :: machine.frames }

/-- The machine in which a new collector is open. -/
def Machine.collecting (machine : Machine) : Machine :=
  { machine with
    next := machine.next + 1, collectors := (machine.next, []) :: machine.collectors }

section Parts

variable (source : String) (room : Nat) (call : Caller) (machine : Machine)

def expressionParts (scope : Scope) : Expression → List Point
  | .literal _ _ => []
  | .array _ items => [⟨room, .items scope items, machine⟩]
  | .object _ entries => [⟨room, .entries scope entries, machine⟩]
  | .name _ _ => []
  | .member _ target _ => [⟨room, .expression scope target, machine⟩]
  | .index _ target key =>
    ⟨room, .expression scope target, machine⟩ ::
      following (evaluate call scope target machine) fun _ after =>
        [⟨room, .expression scope key, after⟩]
  | .call span callee arguments =>
    ⟨room, .expression scope callee, machine⟩ ::
      following (evaluate call scope callee machine) fun function middle =>
        ⟨room, .items scope arguments, middle⟩ ::
          following (evaluateItems call scope arguments middle) fun values after =>
            [⟨room, .call ⟨callName callee function, function, values, span⟩, after⟩]
  | .arrow _ _ _ => []
  | .unary _ _ operand => [⟨room, .expression scope operand, machine⟩]
  | .binary _ operator left right =>
    ⟨room, .expression scope left, machine⟩ ::
      following (evaluate call scope left machine) fun value after =>
        if isDecided operator value then [] else [⟨room, .expression scope right, after⟩]
  | .conditional _ condition consequent alternative =>
    ⟨room, .expression scope condition, machine⟩ ::
      following (evaluate call scope condition machine) fun value after =>
        [⟨room, .expression scope (if value.isTruthy then consequent else alternative), after⟩]

def statementParts (scope : Scope) : Statement → List Point
  | .binding _ _ value => [⟨room, .expression scope value, machine⟩]
  | .expression _ value => [⟨room, .expression scope value, machine⟩]
  | .branch _ condition consequent alternative =>
    ⟨room, .expression scope condition, machine⟩ ::
      following (evaluate call scope condition machine) fun value after =>
        if value.isTruthy then [⟨room, .block scope consequent, after⟩]
        else (alternative.map (fun statements => ⟨room, .block scope statements, after⟩)).toList
  | .result _ value => (value.map (fun value => ⟨room, .expression scope value, machine⟩)).toList

/-- The body of an arrow function in the scope of its parameters. -/
def bodyParts (closure : Closure) (arguments : List Value) : List Point :=
  let scope := bindParameters closure.scope closure.parameters arguments
  match closure.body with
  | .expression value => [⟨room, .expression scope value, machine⟩]
  | .block statements => [⟨room, .block scope statements, machine⟩]

def builtinParts (behaviour : Behaviour) (arguments : List Value) (span : Span) : List Point :=
  match behaviour with
  | .column => [⟨room, .collection arguments.head? span, machine⟩]
  | .row => [⟨room, .collection arguments.head? span, machine⟩]
  | .text => [⟨room, .content arguments.head? "" span, machine⟩]
  | .button =>
    following (handlerOf source arguments.head? span machine) fun _ after =>
      [⟨room, .content arguments[1]? "Button" span, after⟩]
  | .lazyColumn =>
    let renderer : Value := arguments[1]?.getD .null
    following (itemsOf arguments.head? span machine) fun items after =>
      if renderer.isCallable then [⟨room, .list renderer span 0 items, after⟩] else []
  | .render =>
    let producer : Value := arguments.head?.getD .null
    if producer.isCallable then
      [⟨room, .call ⟨traceName producer, producer, [], span⟩, machine⟩]
    else []
  | .image => []
  | .execute => []
  | .log => []
  | .label _ => []

def activityParts : Activity → List Point
  | .expression scope value => expressionParts room call machine scope value
  | .items _ [] => []
  | .items scope (item :: rest) =>
    ⟨room, .expression scope item, machine⟩ ::
      following (evaluate call scope item machine) fun _ after => [⟨room, .items scope rest, after⟩]
  | .entries _ [] => []
  | .entries scope ((_, item) :: rest) =>
    ⟨room, .expression scope item, machine⟩ ::
      following (evaluate call scope item machine) fun _ after =>
        [⟨room, .entries scope rest, after⟩]
  | .statement scope statement => statementParts room call machine scope statement
  | .block _ [] => []
  | .block scope (statement :: rest) =>
    ⟨room, .statement scope statement, machine⟩ ::
      following (executeStatement call scope statement machine) fun step after =>
        match step with
        | .goOn inner => [⟨room, .block inner rest, after⟩]
        | .finish _ => []
  | .call request =>
    match room with
    | 0 => []
    | left + 1 =>
      if request.callee.isCallable then [⟨left, .entered request, machine.entering request⟩] else []
  | .entered request =>
    match request.callee with
    | .builtin function =>
      builtinParts source room machine function.behaviour request.arguments request.span
    | .function closure => bodyParts room machine closure request.arguments
    | _ => []
  | .collection builder span =>
    match builder with
    | none => []
    | some builder =>
      if builder.isCallable then
        [⟨room, .call ⟨traceName builder, builder, [.adder machine.next], span⟩, machine.collecting⟩]
      else []
  | .content content _ span =>
    match content with
    | none => []
    | some content =>
      if content.isCallable then [⟨room, .call ⟨traceName content, content, [], span⟩, machine⟩]
      else []
  | .list _ _ _ [] => []
  | .list renderer span index (item :: rest) =>
    [⟨room, .item renderer item index span, machine⟩,
      ⟨room, .list renderer span (index + 1) rest,
        (itemShown call renderer item index span machine).2⟩]
  | .item renderer item index span =>
    [⟨room, .call ⟨traceName renderer, renderer, [item, .number (Number.ofInt index)], span⟩,
      machine⟩]

end Parts

namespace Point

def caller (source : String) (point : Point) : Caller := callWithin source point.room

/-- The failure of the evaluation that starts at the point. -/
def failure? (source : String) (point : Point) : Option RuntimeError :=
  (point.activity.ending source (point.caller source) point.machine).1

/-- The machine that the evaluation leaves, whether it fails or not. -/
def after (source : String) (point : Point) : Machine :=
  (point.activity.ending source (point.caller source) point.machine).2

/-- The evaluations that an evaluation starts itself, in order. -/
def parts (source : String) (point : Point) : List Point :=
  activityParts source point.room (point.caller source) point.machine point.activity

end Point

/-- The number of items that the first argument of a builder has. -/
def itemCount (arguments : List Value) : Nat :=
  match arguments.head? with
  | some (.array _ items) => items.length
  | _ => 0

/-- How much syntax or how many items an evaluation has before it until the next call. -/
noncomputable def Activity.weight : Activity → Nat
  | .expression _ value => sizeOf value
  | .items _ values => sizeOf values
  | .entries _ values => sizeOf values
  | .statement _ next => sizeOf next
  | .block _ statements => sizeOf statements
  | .call _ => 0
  | .entered request =>
    match request.callee with
    | .function closure => sizeOf closure.body
    | .builtin _ => itemCount request.arguments + 3
    | _ => 0
  | .collection _ _ => 1
  | .content _ _ _ => 1
  | .list _ _ _ values => values.length + 2
  | .item _ _ _ _ => 1

theorem forall_mem_following {α : Type} {outcome : Except RuntimeError α × Machine}
    {next : α → Machine → List Point} {holds : Point → Prop} :
    (∀ point ∈ following outcome next, holds point) ↔
      ∀ value after, outcome = (.ok value, after) → ∀ point ∈ next value after, holds point := by
  obtain ⟨result, machine⟩ := outcome
  cases result with
  | error error =>
    constructor
    · intro _ value after equal
      cases equal
    · intro _ point member
      cases member
  | ok value =>
    constructor
    · intro all other after equal
      cases equal
      exact all
    · intro all
      exact all value machine rfl

section Lighter

variable {source : String} {room weight : Nat} {call : Caller} {machine : Machine}

/-- All of the points have the given room and less before them than the given weight. -/
def Lighter (room weight : Nat) (points : List Point) : Prop :=
  ∀ point ∈ points, point.room = room ∧ point.activity.weight < weight

theorem lighter_nil : Lighter room weight [] := fun _ member => nomatch member

theorem lighter_cons {activity : Activity} {rest : List Point} (less : activity.weight < weight)
    (others : Lighter room weight rest) :
    Lighter room weight (⟨room, activity, machine⟩ :: rest) :=
  List.forall_mem_cons.mpr ⟨⟨rfl, less⟩, others⟩

theorem lighter_following {α : Type} {outcome : Except RuntimeError α × Machine}
    {next : α → Machine → List Point} (others : ∀ value after, Lighter room weight (next value after)) :
    Lighter room weight (following outcome next) :=
  forall_mem_following.mpr (fun value after _ => others value after)

theorem lighter_if {condition : Prop} [Decidable condition] {first second : List Point}
    (yes : Lighter room weight first) (no : Lighter room weight second) :
    Lighter room weight (if condition then first else second) := by
  split
  · exact yes
  · exact no

theorem lighter_expressionParts (scope : Scope) (value : Expression) :
    Lighter room (sizeOf value) (expressionParts room call machine scope value) := by
  cases value with
  | literal => exact lighter_nil
  | name => exact lighter_nil
  | arrow => exact lighter_nil
  | array => exact lighter_cons (by simp +arith [Activity.weight]) lighter_nil
  | object => exact lighter_cons (by simp +arith [Activity.weight]) lighter_nil
  | member => exact lighter_cons (by simp +arith [Activity.weight]) lighter_nil
  | unary => exact lighter_cons (by simp +arith [Activity.weight]) lighter_nil
  | index =>
    refine lighter_cons (by simp +arith [Activity.weight]) (lighter_following fun _ _ => ?_)
    exact lighter_cons (by simp +arith [Activity.weight]) lighter_nil
  | call =>
    refine lighter_cons (by simp +arith [Activity.weight]) (lighter_following fun _ _ => ?_)
    refine lighter_cons (by simp +arith [Activity.weight]) (lighter_following fun _ _ => ?_)
    exact lighter_cons (by simp +arith [Activity.weight]) lighter_nil
  | binary =>
    refine lighter_cons (by simp +arith [Activity.weight]) (lighter_following fun _ _ => ?_)
    exact lighter_if lighter_nil (lighter_cons (by simp +arith [Activity.weight]) lighter_nil)
  | conditional =>
    refine lighter_cons (by simp +arith [Activity.weight]) (lighter_following fun _ _ => ?_)
    exact lighter_cons (by simp only [Activity.weight]; split <;> simp +arith) lighter_nil

theorem lighter_statementParts (scope : Scope) (statement : Statement) :
    Lighter room (sizeOf statement) (statementParts room call machine scope statement) := by
  cases statement with
  | binding => exact lighter_cons (by simp +arith [Activity.weight]) lighter_nil
  | expression => exact lighter_cons (by simp +arith [Activity.weight]) lighter_nil
  | branch span condition consequent alternative =>
    refine lighter_cons (by simp +arith [Activity.weight]) (lighter_following fun _ _ => ?_)
    refine lighter_if (lighter_cons (by simp +arith [Activity.weight]) lighter_nil) ?_
    cases alternative with
    | none => exact lighter_nil
    | some statements => exact lighter_cons (by simp +arith [Activity.weight]) lighter_nil
  | result span value =>
    cases value with
    | none => exact lighter_nil
    | some value => exact lighter_cons (by simp +arith [Activity.weight]) lighter_nil

theorem lighter_bodyParts (closure : Closure) (arguments : List Value) :
    Lighter room (sizeOf closure.body) (bodyParts room machine closure arguments) := by
  obtain ⟨span, parameters, body, scope⟩ := closure
  cases body with
  | expression value => exact lighter_cons (by simp [Activity.weight]) lighter_nil
  | block statements => exact lighter_cons (by simp [Activity.weight]) lighter_nil

private theorem length_of_itemsOf {arguments items : List Value} {span : Span} {after : Machine}
    (found : itemsOf arguments.head? span machine = (.ok items, after)) :
    items.length ≤ itemCount arguments := by
  unfold itemCount
  cases first : arguments.head? with
  | none =>
    rw [first] at found
    cases found
    exact Nat.zero_le _
  | some value =>
    rw [first] at found
    cases value with
    | array identity list =>
      cases found
      exact Nat.le_refl _
    | null =>
      cases found
      exact Nat.zero_le _
    | _ => cases found

theorem lighter_builtinParts (behaviour : Behaviour) (arguments : List Value) (span : Span) :
    Lighter room (itemCount arguments + 3)
      (builtinParts source room machine behaviour arguments span) := by
  cases behaviour with
  | column => exact lighter_cons (by simp [Activity.weight]) lighter_nil
  | row => exact lighter_cons (by simp [Activity.weight]) lighter_nil
  | text => exact lighter_cons (by simp [Activity.weight]) lighter_nil
  | button =>
    exact lighter_following fun _ _ => lighter_cons (by simp [Activity.weight]) lighter_nil
  | lazyColumn =>
    refine forall_mem_following.mpr (fun items after found => ?_)
    have count := length_of_itemsOf found
    have less : items.length + 2 < itemCount arguments + 3 := by omega
    exact lighter_if (lighter_cons less lighter_nil) lighter_nil
  | render => exact lighter_if (lighter_cons (by simp [Activity.weight]) lighter_nil) lighter_nil
  | image => exact lighter_nil
  | execute => exact lighter_nil
  | log => exact lighter_nil
  | label => exact lighter_nil

theorem lighter_activityParts {activity : Activity} (noCall : activity.isCall = false) :
    Lighter room activity.weight (activityParts source room call machine activity) := by
  cases activity with
  | expression scope value => exact lighter_expressionParts scope value
  | items scope list =>
    cases list with
    | nil => exact lighter_nil
    | cons item rest =>
      refine lighter_cons (by simp +arith [Activity.weight]) (lighter_following fun _ _ => ?_)
      exact lighter_cons (by simp +arith [Activity.weight]) lighter_nil
  | entries scope list =>
    cases list with
    | nil => exact lighter_nil
    | cons entry rest =>
      obtain ⟨key, item⟩ := entry
      refine lighter_cons (by simp +arith [Activity.weight]) (lighter_following fun _ _ => ?_)
      exact lighter_cons (by simp +arith [Activity.weight]) lighter_nil
  | statement scope next => exact lighter_statementParts scope next
  | block scope list =>
    cases list with
    | nil => exact lighter_nil
    | cons statement rest =>
      refine lighter_cons (by simp +arith [Activity.weight]) (lighter_following fun step _ => ?_)
      cases step with
      | goOn inner => exact lighter_cons (by simp +arith [Activity.weight]) lighter_nil
      | finish value => exact lighter_nil
  | call request => cases noCall
  | entered request =>
    obtain ⟨name, callee, arguments, span⟩ := request
    cases callee with
    | builtin function => exact lighter_builtinParts function.behaviour arguments span
    | function closure => exact lighter_bodyParts closure arguments
    | _ => exact lighter_nil
  | collection builder span =>
    cases builder with
    | none => exact lighter_nil
    | some builder => exact lighter_if (lighter_cons Nat.one_pos lighter_nil) lighter_nil
  | content producer absent span =>
    cases producer with
    | none => exact lighter_nil
    | some producer => exact lighter_if (lighter_cons Nat.one_pos lighter_nil) lighter_nil
  | list renderer span index list =>
    cases list with
    | nil => exact lighter_nil
    | cons item rest =>
      refine lighter_cons (by simp [Activity.weight]) (lighter_cons ?_ lighter_nil)
      simp [Activity.weight]
  | item renderer item index span => exact lighter_cons Nat.one_pos lighter_nil

end Lighter

/-- The part of a call that is not refused: what is called runs with room for one call less. -/
theorem parts_call_succ (source : String) (left : Nat) (request : Call) (machine : Machine)
    (callable : request.callee.isCallable = true) :
    Point.parts source ⟨left + 1, .call request, machine⟩ =
      [⟨left, .entered request, machine.entering request⟩] := if_pos callable

/-- A part leaves room for one call less, or it has less before it. -/
def Point.Smaller (part whole : Point) : Prop :=
  part.room < whole.room ∨
    (part.room = whole.room ∧ part.activity.weight < whole.activity.weight)

theorem smaller_parts {source : String} {whole part : Point} (member : part ∈ whole.parts source) :
    part.Smaller whole := by
  obtain ⟨room, activity, machine⟩ := whole
  cases activity with
  | call request =>
    refine .inl ?_
    cases room with
    | zero => cases member
    | succ left =>
      change part ∈ ite _ _ _ at member
      split at member
      · cases List.mem_singleton.mp member
        exact Nat.lt_succ_self left
      · cases member
  | _ => exact .inr (lighter_activityParts rfl part member)

theorem wellFounded_smaller : WellFounded Point.Smaller := by
  refine Subrelation.wf ?_ (InvImage.wf (fun point : Point => (point.room, point.activity.weight))
    (Prod.lex Nat.lt_wfRel Nat.lt_wfRel).wf)
  rintro part whole (less | ⟨same, less⟩)
  · exact .left _ _ less
  · show Prod.Lex _ _ (part.room, _) (whole.room, _)
    rw [same]
    exact .right _ less

instance : WellFoundedRelation Point := ⟨Point.Smaller, wellFounded_smaller⟩

namespace Point

/-- Where a program starts that is a screen. -/
def screen (next : Nat) (vocabulary : Vocabulary) (state : Json) (host : Recording)
    (statements : List Statement) : Point :=
  let (value, start) := Value.ofJson next state
  ⟨callLimit, .block (vocabulary.scope value) statements, Machine.initial start host⟩

/-- Where the callback of a handler starts. -/
def handler (closure : Closure) (next : Nat) (host : Recording) : Point :=
  ⟨callLimit, .call ⟨Handler.traceName, .function closure, [], closure.span⟩,
    Machine.initial next host⟩

/-- Where a single expression starts that sees a document. -/
def single (state : Json) (host : Recording) (expression : Expression) : Point :=
  let (scope, next) := documentScope state
  ⟨callLimit, .expression scope expression, Machine.initial next host⟩

/-- The points within a point: the point and the points within its parts, in order. -/
def points (source : String) (whole : Point) : List Point :=
  whole :: (whole.parts source).attach.flatMap (fun part => points source part.1)
termination_by whole
decreasing_by exact smaller_parts part.2

/-- The points within the parts of a point. -/
def inner (source : String) (whole : Point) : List Point :=
  (whole.parts source).flatMap (points source)

theorem points_eq (source : String) (whole : Point) :
    whole.points source = whole :: whole.inner source := by
  rw [points, inner, ← List.flatMap_map Subtype.val, List.attach_map_subtype_val]

variable {source : String} {whole part point : Point}

theorem mem_inner : point ∈ whole.inner source ↔
    ∃ part ∈ whole.parts source, point ∈ part.points source := List.mem_flatMap

theorem mem_points : point ∈ whole.points source ↔ point = whole ∨ point ∈ whole.inner source := by
  rw [points_eq, List.mem_cons]

theorem mem_points_self (source : String) (whole : Point) : whole ∈ whole.points source :=
  mem_points.mpr (.inl rfl)

theorem mem_points_of_part (member : part ∈ whole.parts source)
    (within : point ∈ part.points source) : point ∈ whole.points source :=
  mem_points.mpr (.inr (mem_inner.mpr ⟨part, member, within⟩))

theorem parts_induction (source : String) {holds : Point → Prop}
    (step : ∀ whole, (∀ part ∈ whole.parts source, holds part) → holds whole) (whole : Point) :
    holds whole := by
  induction whole using wellFounded_smaller.induction with
  | h whole ih => exact step whole (fun part member => ih part (smaller_parts member))

theorem inherited {holds : Point → Prop}
    (step : ∀ whole, holds whole → ∀ part ∈ whole.parts source, holds part) (start : holds whole)
    (within : point ∈ whole.points source) : holds point := by
  induction whole using parts_induction source with
  | step whole ih =>
    rcases mem_points.mp within with rfl | within
    · exact start
    · obtain ⟨part, member, within⟩ := mem_inner.mp within
      exact ih part member (step whole start part member) within

end Point

end ScreenStudio.Evaluation
