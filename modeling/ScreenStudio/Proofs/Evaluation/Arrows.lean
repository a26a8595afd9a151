/- digest: Arrow functions are the same exactly if they are made of one arrow expression. -/

import ScreenStudio.Proofs.Evaluation.Lexical
import ScreenStudio.Proofs.Source.Places
import ScreenStudio.Proofs.Value.Same

/-!
Every arrow function that an evaluation meets is made of an arrow expression of its program, and the places
of these nest, so that one place belongs to one expression. What the function has captured does not count:
where one expression is evaluated twice, the two functions are the same even if they see different values.
-/

set_option autoImplicit false
set_option relaxedAutoImplicit false

namespace ScreenStudio

open Source (Span Expression Statement Body Part)

/-- The arrow expression that the function is made of. -/
def Closure.arrow (closure : Closure) : Expression :=
  .arrow closure.span closure.parameters closure.body

theorem Closure.eq_iff (one two : Closure) : one = two ↔ one.arrow = two.arrow ∧ one.scope = two.scope := by
  obtain ⟨span, parameters, body, scope⟩ := one
  obtain ⟨otherSpan, otherParameters, otherBody, otherScope⟩ := two
  simp only [Closure.arrow, Closure.mk.injEq, Expression.arrow.injEq, and_assoc]

namespace Evaluation

/-- The expressions and statements that a piece of syntax consists of. -/
def Piece.parts : Piece → List Part
  | .expression value => [.expression value]
  | .items values => values.map .expression
  | .entries values => values.map fun entry => .expression entry.2
  | .statement next => [.statement next]
  | .block statements => statements.map .statement

/-- What is evaluated in one scope is part of the whole, or stands directly below a part of it. -/
theorem Piece.parts_inside {piece inner : Piece} (member : inner ∈ piece.inside) {part : Part}
    (own : part ∈ inner.parts) : ∃ whole ∈ piece.parts, part = whole ∨ part ∈ whole.inner := by
  have subset : piece.inside.flatMap Piece.parts ⊆ piece.parts ++ piece.parts.flatMap Part.inner := by
    cases piece with
    | expression value => cases value <;> simp [Piece.inside, Piece.parts, Part.inner]
    | items values => cases values <;> simp [Piece.inside, Piece.parts]
    | entries values => cases values <;> simp [Piece.inside, Piece.parts]
    | statement next =>
      cases next with
      | branch span condition consequent alternative =>
        cases alternative <;> simp [Piece.inside, Piece.parts, Part.inner]
      | result span value => cases value <;> simp [Piece.inside, Piece.parts, Part.inner]
      | _ => simp [Piece.inside, Piece.parts, Part.inner]
    | block statements => cases statements <;> simp [Piece.inside, Piece.parts]
  rcases List.mem_append.mp (subset (List.mem_flatMap.mpr ⟨inner, member, own⟩)) with here | below
  · exact ⟨part, here, .inl rfl⟩
  · obtain ⟨whole, among, within⟩ := List.mem_flatMap.mp below
    exact ⟨whole, among, .inr within⟩

namespace Setting

section Law

variable (setting : Setting) (statements : List Statement)

/-- The arrow function is made of an arrow expression of the program. -/
def IsWritten (closure : Closure) : Prop := (Part.expression closure.arrow).Of statements

/-- The law of arrow functions that the program is written with. -/
def written : Law setting.source where
  value _ := Value.Functions (IsWritten statements) setting.source
  child _ := Child.Functions (IsWritten statements) setting.source
  property _ := Property.Functions (IsWritten statements) setting.source
  placed _ piece := ∀ part ∈ piece.parts, part.Of statements
  reached := setting.Reached
  failure _ := True
  value_mono _ held := held
  child_mono _ held := held
  property_mono _ held := held
  null := .null
  bool := .bool
  number := .number
  text := .text
  adder _ := .adder _
  array _ held := .array _ held
  item held := by
    cases held with
    | array identity items => exact items
  object _ held := .object _ held
  entry held := by
    cases held with
    | object identity entries => exact entries
  arrow placed captured := .function (placed _ (List.mem_singleton_self _)) captured
  captured held := by
    cases held with
    | function own captured => exact captured
  node _ held := .node _ held
  tree held := by
    cases held with
    | node identity tree => exact tree
  element _ own inner := .node _ own inner
  childText := .text
  data := .data
  action := .action
  callback held _ := .callback _ held
  parts reached _ member := reached.part member
  inside := by
    intro scope piece placed inner member part own
    obtain ⟨whole, among, rfl | below⟩ := Piece.parts_inside member own
    · exact placed part among
    · exact (placed whole among).child below
  behind _ _ placed part member := placed part (List.mem_cons_of_mem _ member)
  body := by
    rintro bound room name ⟨span, parameters, body, scope⟩ arguments call machine _ held part own
    cases held with
    | function written _ =>
      refine Part.Of.child written ?_
      cases body with
      | expression value => exact own
      | block statements => exact own
  raised _ _ _ _ := trivial
  unbound _ _ _ := trivial

end Law

variable {setting : Setting}

/-- Some expression of the program gives the value. -/
def Arises (setting : Setting) (value : Value) : Prop :=
  ∃ room scope expression machine after,
    setting.Reached ⟨room, .expression scope expression, machine⟩ ∧
    evaluate (callWithin setting.source room) scope expression machine = (.ok value, after)

private theorem program_of_reached {point : Point} (reached : setting.Reached point) :
    ∃ statements, Source.program setting.source = .ok statements := by
  obtain ⟨_, starts, _⟩ := reached
  cases starts with
  | screen read => exact ⟨_, read⟩
  | handler made _ _ _ => exact program_of_screenFrom made

private theorem written_of_arises {statements : List Statement}
    (read : Source.program setting.source = .ok statements) {closure : Closure}
    (arises : setting.Arises (.function closure)) : IsWritten statements closure := by
  obtain ⟨room, scope, expression, machine, after, reached, given⟩ := arises
  have start : (setting.written statements).At
      (Point.screen setting.next setting.vocabulary setting.state setting.host statements) := by
    refine Law.at_screen (fun known => .builtin known) (Value.holds_ofJson Value.cumulative_functions _ _) ?_
      ⟨_, .screen read, Point.mem_points_self _ _⟩
    exact fun part member => ⟨part, member, .self part⟩
  have here := reached.holds read start (fun held among _ => Node.functions_callback held among) id
  have yields : (setting.written statements).Yields (setting.written statements).value machine.next
      (evaluate (callWithin setting.source room) scope expression machine) := (Law.at_parts here).2
  have held := yields.ok (.function closure) (congrArg Prod.fst given)
  cases held with
  | function own _ => exact own

private theorem same_iff_of_arise {one two : Closure} (first : setting.Arises (.function one))
    (second : setting.Arises (.function two)) :
    Value.same (.function one) (.function two) = true ↔ one.arrow = two.arrow := by
  obtain ⟨_, _, _, _, _, reached, _⟩ := id first
  obtain ⟨statements, read⟩ := program_of_reached reached
  have spans : Value.same (.function one) (.function two) = true ↔ one.span = two.span := beq_iff_eq
  rw [spans]
  refine ⟨fun place => ?_, fun equal => congrArg Expression.span equal⟩
  exact Part.expression.inj (Source.arrow_eq_of_span read trivial trivial (written_of_arises read first)
    (written_of_arises read second) place)

private theorem comparison {room : Nat} {scope : Scope} {span : Span} {left right : Expression}
    {machine middle after : Machine} {one two : Value}
    (reached : setting.Reached ⟨room, .expression scope (.binary span .equal left right), machine⟩)
    (first : evaluate (callWithin setting.source room) scope left machine = (.ok one, middle))
    (second : evaluate (callWithin setting.source room) scope right middle = (.ok two, after)) :
    setting.Arises one ∧ setting.Arises two ∧
      evaluate (callWithin setting.source room) scope (.binary span .equal left right) machine =
        (.ok (.bool (one.same two)), after) := by
  have parts : Point.parts setting.source
      ⟨room, .expression scope (.binary span .equal left right), machine⟩ =
      [⟨room, .expression scope left, machine⟩, ⟨room, .expression scope right, middle⟩] := by
    show _ :: following (evaluate (callWithin setting.source room) scope left machine) _ = _
    rw [first]
    rfl
  have here := reached.part (parts ▸ List.mem_cons_self ..)
  have behind := reached.part (parts ▸ List.mem_cons_of_mem _ (List.mem_cons_self ..))
  refine ⟨⟨_, _, _, _, _, here, first⟩, ⟨_, _, _, _, _, behind, second⟩, ?_⟩
  rw [evaluate, Run.bind_of_ok first]
  dsimp only
  rw [Run.bind_of_ok second]
  rfl

private theorem same_of_maker {maker : Closure} {span : Span} {parameters : List String} {body : Body}
    (is : maker.body = .expression (.arrow span parameters body)) (call : Caller) (machine : Machine)
    (first second : List Value) : ∃ one two,
      callClosure call maker first machine = (.ok (.function one), machine) ∧
      callClosure call maker second machine = (.ok (.function two), machine) ∧
      one.scope = bindParameters maker.scope maker.parameters first ∧
      two.scope = bindParameters maker.scope maker.parameters second ∧
      Value.same (.function one) (.function two) = true := by
  have made : ∀ arguments, callClosure call maker arguments machine =
      (.ok (.function ⟨span, parameters, body, bindParameters maker.scope maker.parameters arguments⟩),
        machine) := by
    intro arguments
    unfold callClosure
    rw [is]
    rfl
  exact ⟨_, _, made first, made second, rfl, rfl, beq_self_eq_true span⟩

/-- Arrow functions are the same exactly if they are made of one arrow expression. Every arrow function that
arises where a program is evaluated, in its screen or in the handlers of its tree, is made of an arrow
expression of the program. Two of them are the same if and only if this is one expression, whatever they have
captured: they are one closure only where they have captured the same, and what one function makes by a body
that is an arrow expression is always the same. The comparison of any values is symmetric and transitive, and
only NaN differs from itself. -/
theorem function_equality_is_by_arrow (setting : Setting) :
    (∀ closure, setting.Arises (.function closure) → ∃ statements,
      Source.program setting.source = .ok statements ∧ (Part.expression closure.arrow).Of statements) ∧
    (∀ one two, setting.Arises (.function one) → setting.Arises (.function two) →
      (Value.same (.function one) (.function two) = true ↔ one.arrow = two.arrow) ∧
      (Value.same (.function one) (.function two) = true → (one = two ↔ one.scope = two.scope))) ∧
    (∀ room scope span left right machine middle after one two,
      setting.Reached ⟨room, .expression scope (.binary span .equal left right), machine⟩ →
      evaluate (callWithin setting.source room) scope left machine = (.ok (.function one), middle) →
      evaluate (callWithin setting.source room) scope right middle = (.ok (.function two), after) →
      ∃ answer, evaluate (callWithin setting.source room) scope (.binary span .equal left right) machine =
        (.ok (.bool answer), after) ∧ (answer = true ↔ one.arrow = two.arrow)) ∧
    (∀ maker span parameters body, maker.body = .expression (.arrow span parameters body) →
      ∀ call machine first second, ∃ one two,
        callClosure call maker first machine = (.ok (.function one), machine) ∧
        callClosure call maker second machine = (.ok (.function two), machine) ∧
        one.scope = bindParameters maker.scope maker.parameters first ∧
        two.scope = bindParameters maker.scope maker.parameters second ∧
        Value.same (.function one) (.function two) = true) ∧
    (∀ one two : Value, one.same two = two.same one) ∧
    (∀ one two three : Value, one.same two = true → two.same three = true → one.same three = true) ∧
    (∀ value : Value, value.same value = true ↔ value ≠ .number Number.nan) := by
  refine ⟨?_, ?_, ?_, fun _ _ _ _ is => same_of_maker is, Value.same_comm, fun _ _ _ => Value.same_trans,
    Value.same_self_iff⟩
  · intro closure arises
    obtain ⟨_, _, _, _, _, reached, _⟩ := id arises
    obtain ⟨statements, read⟩ := program_of_reached reached
    exact ⟨statements, read, written_of_arises read arises⟩
  · intro one two first second
    have arrow := same_iff_of_arise first second
    refine ⟨arrow, fun same => (Closure.eq_iff one two).trans ?_⟩
    exact and_iff_right (arrow.mp same)
  · intro room scope span left right machine middle after one two reached first second
    obtain ⟨here, behind, is⟩ := comparison reached first second
    exact ⟨_, is, same_iff_of_arise here behind⟩

end Setting

end Evaluation

end ScreenStudio
