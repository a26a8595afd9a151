/- digest: The four ways in which an evaluation goes, and what each of them does to the machine. -/

import ScreenStudio.Proofs.Evaluation.Passes

set_option autoImplicit false
set_option relaxedAutoImplicit false

namespace ScreenStudio.Evaluation

open Source (Span Expression Statement Body)
open Run (IsOwn PassesThrough passesThrough_bind passesThrough_last passesThrough_point)

variable {source : String}

/-- The child that a value makes; null makes none, and neither does what is no child. -/
def madeChild? : Value → Option Child
  | .node _ node => some (.node node)
  | .text content => some (.text content)
  | .number value => some (.text (Value.number value).display)
  | .bool value => some (.text (Value.bool value).display)
  | _ => none

/-- What a call of the adder of a collector adds to it. -/
def Activity.added (collector : Nat) : Activity → List Child
  | .entered ⟨_, .adder own, arguments, _⟩ =>
    if own = collector then (madeChild? (arguments.head?.getD .null)).toList else []
  | _ => []

/-- The collector that is opened at the point. -/
def Point.opened? (point : Point) : Option Nat :=
  match point.activity with
  | .collection (some builder) _ => if builder.isCallable then some point.machine.next else none
  | _ => none

/-- The machine with its innermost call ended. -/
def Machine.leaving (machine : Machine) : Machine := { machine with frames := machine.frames.tail }

/-- The machine with a collector closed. -/
def Machine.closing (machine : Machine) (collector : Nat) : Machine :=
  { machine with collectors := machine.collectors.filter (fun entry => entry.1 != collector) }

/-- The machine with children added to its collectors. -/
def Machine.adding (machine : Machine) (children : Nat → List Child) : Machine :=
  { machine with
    collectors := machine.collectors.map (fun entry => (entry.1, entry.2 ++ children entry.1)) }

/-- How an evaluation goes: a call that is not refused, a container whose children are collected, a
call of an adder, or something that leaves calls and collectors to its parts. -/
inductive Passage (source : String) : Point → Prop
  | enters {left : Nat} {request : Call} {machine : Machine} {part : Point}
    (running : part = ⟨left, .entered request, machine.entering request⟩)
    (parts : Point.parts source ⟨left + 1, .call request, machine⟩ = [part])
    (failure : Point.failure? source ⟨left + 1, .call request, machine⟩ = part.failure? source)
    (after : Point.after source ⟨left + 1, .call request, machine⟩ = (part.after source).leaving) :
    Passage source ⟨left + 1, .call request, machine⟩
  | collects {whole part : Point} (opens : whole.opened? = some whole.machine.next)
    (room : part.room = whole.room) (inside : part.machine = whole.machine.collecting)
    (parts : whole.parts source = [part]) (failure : whole.failure? source = part.failure? source)
    (after : whole.after source = (part.after source).closing whole.machine.next) :
    Passage source whole
  | adds {whole : Point} (opens : whole.opened? = none) (parts : whole.parts source = [])
    (failure : ∀ error, whole.failure? source = some error →
      ∃ span fault, error = ⟨fault, traceFrom span whole.machine.frames⟩)
    (after : whole.after source = whole.machine.adding (fun collector =>
      whole.activity.added collector)) :
    Passage source whole
  | through {whole : Point} (opens : whole.opened? = none)
    (rooms : ∀ part ∈ whole.parts source, part.room = whole.room)
    (adds : ∀ collector, whole.activity.added collector = [])
    (passes : Passes source whole.machine (whole.parts source) (whole.failure? source)
      (whole.after source)) :
    Passage source whole

theorem ending_withFrame {α : Type} (run : Run α) (request : Call) (machine : Machine) :
    ending (Run.withFrame ⟨request.name, request.span⟩ run machine) =
      ((ending (run (machine.entering request))).1,
        (ending (run (machine.entering request))).2.leaving) := by
  unfold Run.withFrame Machine.entering
  cases run _ with
  | mk result after => cases result <;> rfl

private theorem passage_call (source : String) (room : Nat) (request : Call) (machine : Machine) :
    Passage source ⟨room, .call request, machine⟩ := by
  have refused : ∀ fault, callWithin source room request = Run.fail request.span fault →
      Point.parts source ⟨room, .call request, machine⟩ = [] →
        Passage source ⟨room, .call request, machine⟩ := by
    intro fault fails empty
    refine .through rfl ?_ (fun _ => rfl) ?_
    · rw [empty]
      exact fun _ member => nomatch member
    · rw [empty]
      show (callWithin source room request).PassesThrough source machine []
      rw [fails]
      exact Run.isOwn_fail _ _ _ _
  by_cases callable : request.callee.isCallable = true
  · cases room with
    | zero => exact refused .tooManyCalls (if_pos callable) rfl
    | succ left =>
      have ends := ending_withFrame (enter source (callWithin source left) request) request machine
      rw [← show callWithin source (left + 1) request = _ from if_pos callable] at ends
      have failure := congrArg Prod.fst ends
      have after := congrArg Prod.snd ends
      exact .enters rfl (parts_call_succ source left request machine callable) failure after
  · cases room with
    | zero => exact refused (.notFunction request.name) (if_neg callable) rfl
    | succ left => exact refused (.notFunction request.name) (if_neg callable) (if_neg callable)

theorem childrenOf_eq (call : Caller) {builder : Value} (callable : builder.isCallable = true)
    (span : Span) (machine : Machine) :
    childrenOf call (some builder) span machine =
      (fun outcome : Except RuntimeError Value × Machine =>
        (outcome.1.map (fun _ => Run.collected machine.next outcome.2.collectors),
          outcome.2.closing machine.next))
        (call ⟨traceName builder, builder, [.adder machine.next], span⟩ machine.collecting) := by
  have unfolded : childrenOf call (some builder) span machine =
      (Run.withCollector machine.next (call.apply builder [.adder machine.next] span) >>=
        fun collected => pure collected.2) { machine with next := machine.next + 1 } := by
    cases builder <;> first | rfl | cases callable
  rw [unfolded]
  have ran : Run.withCollector machine.next (call.apply builder [.adder machine.next] span)
      { machine with next := machine.next + 1 } =
      (fun outcome : Except RuntimeError Value × Machine =>
        (outcome.1.map (fun value => (value, Run.collected machine.next outcome.2.collectors)),
          outcome.2.closing machine.next))
        (call ⟨traceName builder, builder, [.adder machine.next], span⟩ machine.collecting) := rfl
  cases outcome : call ⟨traceName builder, builder, [.adder machine.next], span⟩ machine.collecting with
  | mk result after =>
    rw [outcome] at ran
    cases result with
    | error error => exact Run.bind_of_error ran
    | ok value => exact Run.bind_of_ok ran

theorem childrenOf_of_not_callable (call : Caller) {builder : Value}
    (callable : ¬ builder.isCallable = true) (span : Span) :
    childrenOf call (some builder) span = Run.succeed [] ∨
      childrenOf call (some builder) span = Run.fail span (.builderExpected builder.kind) := by
  cases builder with
  | null => exact .inl rfl
  | function closure => exact absurd rfl callable
  | builtin function => exact absurd rfl callable
  | adder collector => exact absurd rfl callable
  | _ => exact .inr rfl

private theorem through_of {room : Nat} {activity : Activity} {machine : Machine}
    (noCall : activity.isCall = false)
    (opens : Point.opened? ⟨room, activity, machine⟩ = none)
    (adds : ∀ collector, activity.added collector = [])
    (passes : Passes source machine (Point.parts source ⟨room, activity, machine⟩)
      (Point.failure? source ⟨room, activity, machine⟩)
      (Point.after source ⟨room, activity, machine⟩)) :
    Passage source ⟨room, activity, machine⟩ :=
  .through opens (fun part member => (lighter_activityParts noCall part member).1) adds passes

private theorem passage_collection (source : String) (room : Nat) (builder : Option Value)
    (span : Span) (machine : Machine) :
    Passage source ⟨room, .collection builder span, machine⟩ := by
  cases builder with
  | none => exact through_of rfl rfl (fun _ => rfl) (.ended (.refl machine))
  | some builder =>
    by_cases callable : builder.isCallable = true
    · let part : Point :=
        ⟨room, .call ⟨traceName builder, builder, [.adder machine.next], span⟩, machine.collecting⟩
      have ends : ending (childrenOf (callWithin source room) (some builder) span machine) =
          (part.failure? source, (part.after source).closing machine.next) := by
        rw [childrenOf_eq (callWithin source room) callable span machine]
        show _ = ((ending (callWithin source room _ machine.collecting)).1,
          (ending (callWithin source room _ machine.collecting)).2.closing machine.next)
        cases callWithin source room ⟨traceName builder, builder, [.adder machine.next], span⟩
            machine.collecting with
        | mk result after => cases result <;> rfl
      have failure := congrArg Prod.fst ends
      have after := congrArg Prod.snd ends
      have parts : Point.parts source ⟨room, .collection (some builder) span, machine⟩ = [part] :=
        if_pos callable
      exact @Passage.collects source _ part (if_pos callable) rfl rfl parts failure after
    · have parts : Point.parts source ⟨room, .collection (some builder) span, machine⟩ = [] :=
        if_neg callable
      refine through_of rfl (if_neg callable) (fun _ => rfl) ?_
      rw [parts]
      show (childrenOf (callWithin source room) (some builder) span).PassesThrough source machine []
      obtain nothing | refused := childrenOf_of_not_callable (callWithin source room) callable span
      · rw [nothing]
        exact Run.isOwn_succeed _ _ _
      · rw [refused]
        exact Run.isOwn_fail _ _ _ _

theorem childOf_eq (value : Value) (span : Span) (machine : Machine) :
    childOf value span machine = (.ok (madeChild? value), machine) ∨
      (madeChild? value = none ∧
        childOf value span machine = Run.fail span (.notChild value.kind) machine) := by
  cases value with
  | null => exact .inl rfl
  | bool value => exact .inl rfl
  | number value => exact .inl rfl
  | text content => exact .inl rfl
  | node identity node => exact .inl rfl
  | _ => exact .inr ⟨rfl, rfl⟩

theorem Machine.adding_nothing {machine : Machine} {children : Nat → List Child}
    (nothing : ∀ entry ∈ machine.collectors, children entry.1 = []) :
    machine.adding children = machine := by
  have maps : machine.collectors.map (fun entry => (entry.1, entry.2 ++ children entry.1)) =
      machine.collectors := by
    refine (List.map_congr_left (fun entry member => ?_)).trans (List.map_id _)
    rw [nothing entry member, List.append_nil]
    rfl
  unfold adding
  rw [maps]

section Adder

variable {collector : Nat} {arguments : List Value} {span : Span} {machine : Machine}

private theorem collect_closed (closed : collector ∉ machine.collectors.map Prod.fst)
    (children : List Child) : Run.collect collector children machine = (.ok false, machine) := by
  refine if_neg (fun found => closed ?_)
  obtain ⟨entry, member, same⟩ := List.any_eq_true.mp found
  exact List.mem_map.mpr ⟨entry, member, beq_iff_eq.mp same⟩

private theorem collect_open (isOpen : collector ∈ machine.collectors.map Prod.fst)
    (children : List Child) :
    Run.collect collector children machine =
      (.ok true, machine.adding (fun other => if collector = other then children else [])) := by
  obtain ⟨entry, member, same⟩ := List.mem_map.mp isOpen
  have found : machine.collectors.any (fun entry => entry.1 == collector) = true :=
    List.any_eq_true.mpr ⟨entry, member, beq_iff_eq.mpr same⟩
  have maps : machine.collectors.map (fun entry =>
        if entry.1 = collector then (entry.1, entry.2 ++ children) else entry) =
      machine.collectors.map (fun entry =>
        (entry.1, entry.2 ++ if collector = entry.1 then children else [])) := by
    refine List.map_congr_left (fun entry _ => ?_)
    by_cases own : collector = entry.1
    · rw [if_pos own.symm, if_pos own]
    · rw [if_neg (fun same => own same.symm), if_neg own, List.append_nil]
  unfold Run.collect Machine.adding
  rw [if_pos found, maps]

/-- A call of the adder of an open collector adds the child that its first argument makes. -/
theorem addTo_open
    (made : childOf (arguments.head?.getD .null) span machine =
      (.ok (madeChild? (arguments.head?.getD .null)), machine))
    (isOpen : collector ∈ machine.collectors.map Prod.fst) :
    addTo collector arguments span machine =
      (.ok .null, machine.adding (fun other =>
        if collector = other then (madeChild? (arguments.head?.getD .null)).toList else [])) := by
  unfold addTo
  rw [Run.bind_of_ok made, Run.bind_of_ok (collect_open isOpen _)]
  rfl

theorem addTo_closed (arguments : List Value) (span : Span)
    (closed : collector ∉ machine.collectors.map Prod.fst) :
    ∃ fault, addTo collector arguments span machine = Run.fail span fault machine := by
  unfold addTo
  rcases childOf_eq (arguments.head?.getD .null) span machine with made | ⟨_, fails⟩
  · refine ⟨.containerClosed, ?_⟩
    rw [Run.bind_of_ok made, Run.bind_of_ok (collect_closed closed _)]
    rfl
  · exact ⟨.notChild (arguments.head?.getD .null).kind, Run.bind_of_error fails⟩

private theorem passage_adder (source : String) (room : Nat) (name : String) :
    Passage source ⟨room, .entered ⟨name, .adder collector, arguments, span⟩, machine⟩ := by
  let whole : Point := ⟨room, .entered ⟨name, .adder collector, arguments, span⟩, machine⟩
  have refused : ∀ fault, addTo collector arguments span machine = Run.fail span fault machine →
      (∀ entry ∈ machine.collectors, whole.activity.added entry.1 = []) → Passage source whole := by
    intro fault failed nothing
    have failure : whole.failure? source = some ⟨fault, traceFrom span machine.frames⟩ :=
      congrArg (fun outcome => (ending outcome).1) failed
    have after : whole.after source = machine := congrArg (fun outcome => (ending outcome).2) failed
    refine .adds rfl rfl (fun error is => ?_) ?_
    · cases failure.symm.trans is
      exact ⟨span, fault, rfl⟩
    · rw [after]
      exact (Machine.adding_nothing nothing).symm
  rcases childOf_eq (arguments.head?.getD .null) span machine with made | ⟨none, failed⟩
  · by_cases isOpen : collector ∈ machine.collectors.map Prod.fst
    · have added := addTo_open made isOpen
      have failure : whole.failure? source = none :=
        congrArg (fun outcome => (ending outcome).1) added
      have after := congrArg (fun outcome => (ending outcome).2) added
      refine .adds rfl rfl (fun error is => ?_) after
      cases failure.symm.trans is
    · obtain ⟨fault, failed⟩ := addTo_closed arguments span isOpen
      refine refused fault failed (fun entry member => if_neg (fun own => isOpen ?_))
      rw [own]
      exact List.mem_map.mpr ⟨entry, member, rfl⟩
  · refine refused _ (Run.bind_of_error failed) (fun entry _ => ?_)
    show ite _ (madeChild? _).toList _ = _
    rw [none]
    exact ite_self _

end Adder

theorem passage (source : String) (whole : Point) : Passage source whole := by
  obtain ⟨room, activity, machine⟩ := whole
  cases activity with
  | expression scope value =>
    exact through_of rfl rfl (fun _ => rfl) (passesThrough_evaluate scope value)
  | items scope values =>
    refine through_of rfl rfl (fun _ => rfl) ?_
    cases values with
    | nil => exact .ended (.refl machine)
    | cons item rest =>
      show (evaluateItems (callWithin source room) scope (item :: rest)).PassesThrough _ _ _
      rw [evaluateItems]
      refine passesThrough_bind ⟨rfl, rfl⟩ (fun value after _ => ?_)
      exact passesThrough_last ⟨rfl, rfl⟩ (fun _ => Run.isOwn_succeed _)
  | entries scope values =>
    refine through_of rfl rfl (fun _ => rfl) ?_
    cases values with
    | nil => exact .ended (.refl machine)
    | cons entry rest =>
      obtain ⟨key, item⟩ := entry
      show (evaluateEntries (callWithin source room) scope ((key, item) :: rest)).PassesThrough _ _ _
      rw [evaluateEntries]
      refine passesThrough_bind ⟨rfl, rfl⟩ (fun value after _ => ?_)
      exact passesThrough_last ⟨rfl, rfl⟩ (fun _ => Run.isOwn_succeed _)
  | statement scope next =>
    exact through_of rfl rfl (fun _ => rfl) (passesThrough_executeStatement scope next)
  | block scope statements =>
    refine through_of rfl rfl (fun _ => rfl) ?_
    cases statements with
    | nil => exact .ended (.refl machine)
    | cons statement rest =>
      show (executeBlock (callWithin source room) scope (statement :: rest)).PassesThrough _ _ _
      rw [executeBlock]
      refine passesThrough_bind ⟨rfl, rfl⟩ (fun step after _ => ?_)
      cases step with
      | goOn inner => exact passesThrough_point ⟨rfl, rfl⟩
      | finish value => exact Run.isOwn_succeed _ _ _
  | call request => exact passage_call source room request machine
  | entered request =>
    obtain ⟨name, callee, arguments, span⟩ := request
    cases callee with
    | adder collector => exact passage_adder source room name
    | builtin function =>
      exact through_of rfl rfl (fun _ => rfl)
        (passesThrough_runBuiltin function.behaviour arguments span)
    | function closure =>
      exact through_of rfl rfl (fun _ => rfl) (passesThrough_callClosure closure arguments)
    | _ => exact through_of rfl rfl (fun _ => rfl) (.raised span _ (.refl machine))
  | collection builder span => exact passage_collection source room builder span machine
  | content producer absent span =>
    exact through_of rfl rfl (fun _ => rfl) (passesThrough_contentOf producer absent span)
  | list renderer span index values =>
    exact through_of rfl rfl (fun _ => rfl)
      (passesThrough_itemChildren renderer span index values)
  | item renderer value index span =>
    exact through_of rfl rfl (fun _ => rfl) (passesThrough_itemChild renderer value index span)

end ScreenStudio.Evaluation
