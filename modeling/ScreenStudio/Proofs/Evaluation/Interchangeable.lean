/- digest: Screens and their handlers do the same wherever identities are counted from. -/

import ScreenStudio.Proofs.Evaluation.RenamedCalls

/-!
A screen whose identities are counted from some number is, with its identities moved by that number,
the screen whose identities are counted from zero. So two screens of one source and one state differ in
their identities only, and a handler of the one does what the handler in its place does in the other,
as long as both are invoked with identities that neither of them has met before.
-/

set_option autoImplicit false
set_option relaxedAutoImplicit false

namespace ScreenStudio

/-- From where on identities are new to a handler. -/
def Handler.fresh : Handler → Nat
  | .action _ => 0
  | .callback _ _ fresh => fresh

/-- Invoked with any identities that are new to them, the handlers do the same. -/
def Handler.Interchangeable (one two : Handler) : Prop :=
  ∀ host first second, one.fresh ≤ first → two.fresh ≤ second →
    one.invokeFrom first host = two.invokeFrom second host

/-- The trees have the same document, and the handlers in corresponding places do the same. -/
structure Node.Interchangeable (one two : Node) : Prop where
  document : one.toJson = two.toJson
  names : one.handlers.map Prod.fst = two.handlers.map Prod.fst
  handlers : ∀ pair ∈ one.handlers.zip two.handlers, pair.1.2.Interchangeable pair.2.2

namespace Evaluation

/-- The same failure, or trees that can take each other's place. -/
inductive Interchangeable : Except EvaluationError Node → Except EvaluationError Node → Prop
  | tree {one two : Node} (same : one.Interchangeable two) : Interchangeable (.ok one) (.ok two)
  | failure (error : EvaluationError) : Interchangeable (.error error) (.error error)

variable {map : Renaming}

theorem alike_initial (map : Renaming) {next : Nat} (reached : map.start ≤ next)
    (host : Recording) :
    (Machine.initial next host).Alike (.renamed map) (Machine.initial (map.relabel next) host) :=
  ⟨reached, rfl, rfl, trivial, ⟨fun _ is => (nomatch is), rfl⟩, rfl⟩

section Handlers

private theorem reported_eq {low : Nat} {one two : Except RuntimeError Value × Machine}
    (alike : OutcomesAlike (.renamed map) (.value map) low one two)
    (located : RuntimeError → EvaluationError) :
    ((two.1.map (fun _ => ())).mapError located, two.2.host) =
      ((one.1.map (fun _ => ())).mapError located, one.2.host) := by
  obtain ⟨_, after, result⟩ := alike
  have recorded : two.2.host = one.2.host := after.host
  obtain ⟨first, one⟩ := one
  obtain ⟨second, two⟩ := two
  rw [recorded]
  cases result with
  | ok alike => rfl
  | error error => rfl

theorem invokeFrom_rename (map : Renaming) {closure : Closure} (below : closure.Below map.start)
    (source : String) (fresh other : Nat) (host : Recording) :
    (Handler.callback (closure.rename map.relabel) source other).invokeFrom (map.relabel map.start)
        host =
      (Handler.callback closure source fresh).invokeFrom map.start host := by
  have calls : (callWithin source callLimit).Alike (.renamed map) := alike_callWithin source callLimit
  have outcome := calls map.start
    ⟨Handler.traceName, .function closure, [], closure.span⟩ ⟨below, trivial⟩ _ _ (Nat.le_refl _)
    (alike_initial map (Nat.le_refl _) host)
  have span : (closure.rename map.relabel).span = closure.span := by
    cases closure
    rfl
  unfold Handler.invokeFrom
  dsimp only
  rw [span]
  exact reported_eq outcome _

theorem invokeFrom_shift {handler : Handler} {bound : Nat} (below : handler.Below bound)
    {distance later : Nat} (behind : (handler.rename (Renaming.shift distance).relabel).fresh ≤ later)
    (host : Recording) :
    (handler.rename (Renaming.shift distance).relabel).invokeFrom later host =
      handler.invokeFrom handler.fresh host := by
  cases handler with
  | action text => rfl
  | callback closure source fresh =>
    have far : fresh + distance ≤ later := by
      have moved := Renaming.relabel_shift distance fresh
      exact Nat.le_trans (Nat.le_of_eq moved.symm) behind
    let map := Renaming.splice distance fresh later far
    have same : closure.rename (Renaming.shift distance).relabel = closure.rename map.relabel :=
      Closure.rename_congr (Renaming.agree_splice far) below.1
    have start : map.relabel map.start = later := Renaming.relabel_splice_start far
    have invoked := invokeFrom_rename map below.1 source fresh
      ((Renaming.shift distance).relabel fresh) host
    rw [start] at invoked
    rw [Handler.rename, same]
    exact invoked

end Handlers

section Screens

private theorem scope_rename (relabel : Nat → Nat) (vocabulary : Vocabulary) (state : Value) :
    vocabulary.scope (state.rename relabel) = Value.renameEntries relabel (vocabulary.scope state) := by
  have functions : ∀ (functions : List Builtin) (scope : Scope),
      functions.foldl (fun scope function => Scope.bind function.name (.builtin function) scope)
          (Value.renameEntries relabel scope) =
        Value.renameEntries relabel (functions.foldl
          (fun scope function => Scope.bind function.name (.builtin function) scope) scope) := by
    intro functions
    induction functions with
    | nil => exact fun _ => rfl
    | cons function rest ih =>
      exact fun scope => ih (Scope.bind function.name (.builtin function) scope)
  unfold Vocabulary.scope Scope.bind
  rw [Value.renameEntries]
  exact congrArg (List.cons _) (functions _ [])

private theorem below_scope {bound : Nat} (vocabulary : Vocabulary) {state : Value}
    (below : state.Below bound) : Value.EntriesBelow bound (vocabulary.scope state) := by
  have functions : ∀ (functions : List Builtin) (scope : Scope), Value.EntriesBelow bound scope →
      Value.EntriesBelow bound (functions.foldl
        (fun scope function => Scope.bind function.name (.builtin function) scope) scope) := by
    intro functions
    induction functions with
    | nil => exact fun _ held => held
    | cons function rest ih => exact fun scope held => ih _ ⟨trivial, held⟩
  exact ⟨below, functions _ [] trivial⟩

/-- The outcome of a screen from the renamed identity on is the renamed outcome, and what its handlers
can see is bounded. -/
theorem screenFrom_rename (map : Renaming) {next : Nat} (reached : map.start ≤ next) (source : String)
    (vocabulary : Vocabulary) (state : Json) (host : Recording) :
    screenFrom (map.relabel next) source vocabulary state host =
        ((screenFrom next source vocabulary state host).1.map (Node.rename map.relabel),
          (screenFrom next source vocabulary state host).2) ∧
      ∀ root, (screenFrom next source vocabulary state host).1 = .ok root →
        ∃ bound, root.Below bound := by
  unfold screenFrom
  cases Source.program source with
  | error error => exact ⟨rfl, fun root is => (nomatch is)⟩
  | ok statements =>
    obtain ⟨le, below⟩ := Value.ofJson_below state next
    have calls : (callWithin source callLimit).Alike (.renamed map) := alike_callWithin source callLimit
    have outcome := alike_executeBlock calls statements (below_scope vocabulary below) _ _
      (Nat.le_refl _) (alike_initial map (Nat.le_trans reached le) host)
    rw [← scope_rename] at outcome
    dsimp only
    rw [Value.ofJson_rename map state next reached]
    dsimp only
    revert outcome
    generalize executeBlock (callWithin source callLimit) (vocabulary.scope (Value.ofJson next state).1)
      statements (Machine.initial (Value.ofJson next state).2 host) = one
    generalize executeBlock (callWithin source callLimit)
      (vocabulary.scope ((Value.ofJson next state).1.rename map.relabel)) statements
      (Machine.initial (map.relabel (Value.ofJson next state).2) host) = two
    rintro ⟨_, after, result⟩
    have recorded : two.2.host = one.2.host := after.host
    obtain ⟨bounded, root⟩ := after.root
    obtain ⟨first, one⟩ := one
    obtain ⟨second, two⟩ := two
    dsimp only at recorded bounded root ⊢
    rw [recorded, root]
    cases result with
    | error error => exact ⟨rfl, fun root is => (nomatch is)⟩
    | ok alike =>
      cases found : one.root with
      | none => exact ⟨rfl, fun root is => (nomatch is)⟩
      | some tree =>
        refine ⟨rfl, fun root is => ⟨one.next, ?_⟩⟩
        cases is
        exact bounded tree found

theorem screenFrom_shift (distance : Nat) (source : String) (vocabulary : Vocabulary) (state : Json)
    (host : Recording) :
    screenFrom distance source vocabulary state host =
      ((screenFrom 0 source vocabulary state host).1.map
          (Node.rename (Renaming.shift distance).relabel),
        (screenFrom 0 source vocabulary state host).2) := by
  have moved := (screenFrom_rename (Renaming.shift distance) (Nat.zero_le 0) source vocabulary state
    host).1
  rwa [Renaming.relabel_shift, Nat.zero_add] at moved

theorem bounded_screenFrom {next : Nat} {source : String} {vocabulary : Vocabulary} {state : Json}
    {host : Recording} {root : Node}
    (made : (screenFrom next source vocabulary state host).1 = .ok root) :
    ∃ bound, root.Below bound :=
  (screenFrom_rename (Renaming.shift 0) (Nat.zero_le next) source vocabulary state host).2 root made

end Screens

private theorem interchangeable_shift {tree : Node} {bound : Nat} (below : tree.Below bound)
    (first second : Nat) :
    (tree.rename (Renaming.shift first).relabel).Interchangeable
      (tree.rename (Renaming.shift second).relabel) := by
  refine ⟨?_, ?_, ?_⟩
  · rw [Node.toJson_rename, Node.toJson_rename]
  · rw [Node.handlers_rename, Node.handlers_rename, List.map_map, List.map_map]
    rfl
  · rw [Node.handlers_rename, Node.handlers_rename, List.zip_map']
    intro pair member
    obtain ⟨entry, inside, rfl⟩ := List.mem_map.mp member
    intro host one two onwards later
    have held := Node.below_handlers below entry inside
    exact (invokeFrom_shift held onwards host).trans (invokeFrom_shift held later host).symm

/-- Wherever identities are counted from, a screen has the same outcome, and its host has recorded the
same. -/
theorem screen_ignores_counter (source : String) (vocabulary : Vocabulary) (state : Json)
    (host : Recording) (first second : Nat) :
    (screenFrom first source vocabulary state host).2 =
        (screenFrom second source vocabulary state host).2 ∧
      Interchangeable (screenFrom first source vocabulary state host).1
        (screenFrom second source vocabulary state host).1 := by
  rw [screenFrom_shift first, screenFrom_shift second]
  refine ⟨rfl, ?_⟩
  cases outcome : (screenFrom 0 source vocabulary state host).1 with
  | error error => exact .failure error
  | ok tree =>
    obtain ⟨bound, below⟩ := bounded_screenFrom outcome
    exact .tree (interchangeable_shift below first second)

end Evaluation

end ScreenStudio
