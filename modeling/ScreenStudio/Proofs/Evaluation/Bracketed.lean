/- digest: Containers collect their own children; adders fail unless their container is being built. -/

import ScreenStudio.Proofs.Evaluation.Collected
import ScreenStudio.Proofs.Evaluation.Interchangeable
import ScreenStudio.Proofs.Value.Reach

/-!
The children of a column or a row are what the adder of that container was given while its builder was
called, in order. An adder whose container is not being built is refused, and its call leaves the machine
as it was. No handler can reach into a container: the adders that it can see belong to collectors whose
identities were handed out before the handler was made, and where the handler runs none of these is open.
-/

set_option autoImplicit false
set_option relaxedAutoImplicit false

namespace ScreenStudio.Evaluation

open Source (Span Statement)

variable {source : String}

namespace Point

/-- What is added to the collector that is opened at the point while the collector is open. -/
def children (source : String) (point : Point) : List Child :=
  match point.opened? with
  | some collector => point.added source collector
  | none => []

/-- The children that a container is given are those added to the collector that it opens. -/
theorem children_of_childrenOf {room : Nat} {builder : Option Value} {span : Span}
    {machine after : Machine} {made : List Child} (fresh : machine.Fresh)
    (ran : childrenOf (callWithin source room) builder span machine = (.ok made, after)) :
    made = children source ⟨room, .collection builder span, machine⟩ := by
  let whole : Point := ⟨room, .collection builder span, machine⟩
  cases builder with
  | none =>
    cases ran
    rfl
  | some builder =>
    by_cases callable : builder.isCallable = true
    · let part : Point :=
        ⟨room, .call ⟨traceName builder, builder, [.adder machine.next], span⟩, machine.collecting⟩
      have opens : whole.opened? = some machine.next := if_pos callable
      have parts : whole.parts source = [part] := if_pos callable
      have gains := gains source part (Machine.fresh_collecting fresh)
      rw [childrenOf_eq (callWithin source room) callable span machine] at ran
      have collected : Run.collected machine.next (part.after source).collectors =
          part.added source machine.next := by
        rw [gains.collectors]
        exact if_pos rfl
      have inner : (part.after source) =
          (callWithin source room _ machine.collecting).2 := ending_snd _
      have added : whole.added source machine.next = part.added source machine.next := by
        rw [added_eq, parts]
        exact List.append_nil _
      show made = match whole.opened? with
        | some collector => whole.added source collector
        | none => []
      rw [opens]
      dsimp only
      rw [added, ← collected, inner]
      obtain ⟨result, _⟩ := Prod.mk.inj ran
      cases outcome : (callWithin source room
          ⟨traceName builder, builder, [.adder machine.next], span⟩ machine.collecting).1 with
      | error error =>
        rw [outcome] at result
        cases result
      | ok value =>
        rw [outcome] at result
        exact (Except.ok.inj result).symm
    · have opens : whole.opened? = none := if_neg callable
      have nothing : children source whole = [] := by
        unfold children
        rw [opens]
      rw [nothing]
      obtain empty | refused := childrenOf_of_not_callable (callWithin source room) callable span
      · rw [empty] at ran
        cases ran
        rfl
      · rw [refused] at ran
        cases ran

theorem children_of_container {room : Nat} {name : String} {known : Builtin} {arguments : List Value}
    {span : Span} {machine after : Machine} {value : Value} (fresh : machine.Fresh)
    (container : known.behaviour = .column ∨ known.behaviour = .row)
    (ran : enter source (callWithin source room) ⟨name, .builtin known, arguments, span⟩ machine =
      (.ok value, after)) :
    ∃ part identity tag properties,
      Point.parts source ⟨room, .entered ⟨name, .builtin known, arguments, span⟩, machine⟩ = [part] ∧
        value = .node identity (.mk tag properties (part.children source)) := by
  let part : Point := ⟨room, .collection arguments.head? span, machine⟩
  have parts : Point.parts source
      ⟨room, .entered ⟨name, .builtin known, arguments, span⟩, machine⟩ = [part] := by
    show builtinParts _ _ _ known.behaviour _ _ = _
    rcases container with is | is <;> rw [is] <;> rfl
  have built : ∀ properties,
      (childrenOf (callWithin source room) arguments.head? span >>= newNode "div" properties) machine =
        (.ok value, after) →
      ∃ identity, value = .node identity (.mk "div" properties (part.children source)) := by
    intro properties made
    cases outcome : childrenOf (callWithin source room) arguments.head? span machine with
    | mk result middle =>
      cases result with
      | error error =>
        rw [Run.bind_of_error outcome] at made
        cases made
      | ok children =>
        rw [Run.bind_of_ok outcome] at made
        rw [children_of_childrenOf fresh outcome] at made
        cases made
        exact ⟨_, rfl⟩
  have runs : enter source (callWithin source room) ⟨name, .builtin known, arguments, span⟩ =
      runBuiltin source (callWithin source room) known.behaviour arguments span := rfl
  rw [runs] at ran
  rcases container with is | is
  · rw [is] at ran
    obtain ⟨identity, same⟩ := built _ ran
    exact ⟨part, identity, _, _, parts, same⟩
  · rw [is] at ran
    obtain ⟨identity, same⟩ := built _ ran
    exact ⟨part, identity, _, _, parts, same⟩

/-- The evaluation fails and changes nothing. -/
structure Refused (source : String) (point : Point) : Prop where
  fails : ∃ error, point.failure? source = some error
  unchanged : point.after source = point.machine

theorem refused_adder {room : Nat} {name : String} {collector : Nat} {arguments : List Value}
    {span : Span} {machine : Machine} (closed : collector ∉ machine.openIds) :
    Refused source ⟨room, .call ⟨name, .adder collector, arguments, span⟩, machine⟩ := by
  let request : Call := ⟨name, .adder collector, arguments, span⟩
  have failed : ∀ error, callWithin source room request machine = (.error error, machine) →
      Refused source ⟨room, .call request, machine⟩ := by
    intro error ran
    have ends : ending (callWithin source room request machine) = (some error, machine) := by
      rw [ran]
      rfl
    exact ⟨⟨error, congrArg Prod.fst ends⟩, congrArg Prod.snd ends⟩
  cases room with
  | zero => exact failed _ rfl
  | succ left =>
    have inside : collector ∉ (machine.entering request).openIds := closed
    obtain ⟨fault, fails⟩ := addTo_closed arguments span inside
    refine failed ⟨fault, traceFrom span (machine.entering request).frames⟩ ?_
    have ran : callWithin source (left + 1) request machine =
        (fun outcome : Except RuntimeError Value × Machine => (outcome.1, outcome.2.leaving))
          (addTo collector arguments span (machine.entering request)) := rfl
    rw [ran, fails]
    rfl

/-- Containers are built in brackets. -/
structure Bracketed (source : String) (start : Point) : Prop where
  /-- Every evaluation ends with the collectors open that were open where it has started. -/
  balanced : ∀ point ∈ start.points source, (point.after source).openIds = point.machine.openIds
  /-- Each of them has at its end, in order, what calls of its adder have added in between. -/
  extended : ∀ point ∈ start.points source,
    (point.after source).collectors = point.machine.collectors.map
      (fun entry => (entry.1, entry.2 ++ point.added source entry.1))
  /-- Collectors that are opened have identities that were not handed out before. -/
  ascending : Ascends start.machine.next (start.opened source) (start.after source).next
  /-- Open are the collectors that were open at the start and those whose container is being built. -/
  building : ∀ point ∈ start.points source, ∀ collector,
    collector ∈ point.machine.openIds ↔
      collector ∈ start.machine.openIds ∨ Builds source start collector point
  /-- A column or a row has the children that were added to the collector that it has opened. -/
  children : ∀ point ∈ start.points source, ∀ name known arguments span,
    point.activity = .entered ⟨name, .builtin known, arguments, span⟩ →
    known.behaviour = .column ∨ known.behaviour = .row → ∀ value after,
      enter source (point.caller source) ⟨name, .builtin known, arguments, span⟩ point.machine =
        (.ok value, after) →
      ∃ part identity tag properties, point.parts source = [part] ∧
        value = .node identity (.mk tag properties (part.children source))
  /-- A call of an adder whose container is not being built is refused. -/
  refused : ∀ point ∈ start.points source, ∀ name collector arguments span,
    point.activity = .call ⟨name, .adder collector, arguments, span⟩ →
    collector ∉ start.machine.openIds → ¬ Builds source start collector point →
      point.Refused source

theorem bracketed_of_fresh {start : Point} (fresh : start.machine.Fresh) : start.Bracketed source := by
  have still : ∀ point ∈ start.points source, point.machine.Fresh :=
    fun _ within => fresh_of_mem_points fresh within
  refine ⟨fun point within => openIds_after (still point within),
    fun point within => (gains source point (still point within)).collectors,
    ascends_opened source start, fun point within _ => mem_openIds_iff fresh within, ?_, ?_⟩
  · intro point within name known arguments span entered container value after ran
    obtain ⟨room, activity, machine⟩ := point
    cases entered
    exact children_of_container (still _ within) container ran
  · intro point within name collector arguments span called before notBuilding
    have closed : collector ∉ point.machine.openIds := by
      intro isOpen
      rcases (mem_openIds_iff fresh within).mp isOpen with found | building
      · exact before found
      · exact notBuilding building
    obtain ⟨room, activity, machine⟩ := point
    cases called
    exact refused_adder closed

theorem not_builds_of_lt {start point : Point} {collector : Nat}
    (before : collector < start.machine.next) : ¬ Builds source start collector point := by
  rintro ⟨container, among, opens, _⟩
  have opened : collector ∈ start.opened source := List.mem_filterMap.mpr ⟨container, among, opens⟩
  have above := (ascends_opened source start).above collector opened
  omega

end Point

private theorem fresh_initial (next : Nat) (host : Recording) : (Machine.initial next host).Fresh :=
  fun _ member => nomatch member

/-- In screens and in handlers every collector is open exactly while its container is being built, the
container gets what its own adder was given in the meantime, and any other call of an adder is refused.
An adder that a handler has captured is therefore refused whenever the handler is invoked. -/
theorem evaluation_is_bracketed (source : String) (next : Nat) (host : Recording) :
    (∀ vocabulary state statements,
      (Point.screen next vocabulary state host statements).Bracketed source) ∧
    (∀ closure, (Point.handler closure next host).Bracketed source) ∧
    (∀ vocabulary state root, (screenFrom next source vocabulary state host).1 = .ok root →
      ∀ entry ∈ root.handlers, ∀ closure origin fresh, entry.2 = .callback closure origin fresh →
      ∀ collector, (Value.function closure).Reaches (.adder collector) →
      ∀ later recording, fresh ≤ later →
      ∀ point ∈ (Point.handler closure later recording).points origin, ∀ name arguments span,
        point.activity = .call ⟨name, .adder collector, arguments, span⟩ → point.Refused origin) := by
  refine ⟨fun _ _ _ => Point.bracketed_of_fresh (fresh_initial _ _),
    fun _ => Point.bracketed_of_fresh (fresh_initial _ _), ?_⟩
  intro vocabulary state root made entry member closure origin fresh is collector reaches later
    recording onwards point within name arguments span called
  obtain ⟨bound, below⟩ := bounded_screenFrom made
  have held := Node.below_handlers below entry member
  rw [is] at held
  have old : collector < fresh := Value.below_of_reaches reaches held.1
  have bracketed : (Point.handler closure later recording).Bracketed origin :=
    Point.bracketed_of_fresh (fresh_initial _ _)
  refine bracketed.refused point within name collector arguments span called
    (fun found => nomatch found) (Point.not_builds_of_lt ?_)
  exact Nat.lt_of_lt_of_le old onwards

end ScreenStudio.Evaluation
