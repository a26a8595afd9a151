/- digest: Evaluation ends, nests calls no deeper than the limit, and traces its failures exactly. -/

import ScreenStudio.Proofs.Evaluation.Passage

/-!
Every evaluation leaves the calls in progress that it has found, whether it fails or not, and the room
for further calls is what the calls in progress leave of the limit. A failure is raised at one point and
handed on by the points around it; its trace has a line for every call in progress at the point that
has raised it, and one for the program.
-/

set_option autoImplicit false
set_option relaxedAutoImplicit false

namespace ScreenStudio.Evaluation

open Source (Span Statement)

variable {source : String}

/-- What holds between machines that are still, and across every part, holds from the first machine to
every part and to the last machine. -/
theorem Passes.related {related : Machine → Machine → Prop}
    (still : ∀ {before after : Machine}, before.Still after → related before after)
    (trans : ∀ {before middle after : Machine}, related before middle → related middle after →
      related before after)
    {before after : Machine} {parts : List Point} {failure : Option RuntimeError}
    (passes : Passes source before parts failure after)
    (across : ∀ part ∈ parts, related part.machine (part.after source)) :
    related before after ∧ ∀ part ∈ parts, related before part.machine := by
  have more : ∀ {before after : Machine} {part : Point} {rest : List Point},
      before.Still part.machine → related part.machine (part.after source) →
      related (part.after source) after ∧
        (∀ other ∈ rest, related (part.after source) other.machine) →
      related before after ∧ ∀ other ∈ part :: rest, related before other.machine := by
    intro before after part rest rests first others
    have reached := trans (still rests) first
    refine ⟨trans reached others.1, List.forall_mem_cons.mpr ⟨still rests, ?_⟩⟩
    exact fun other member => trans reached (others.2 other member)
  have none : ∀ {before after : Machine}, before.Still after →
      related before after ∧ ∀ other ∈ ([] : List Point), related before other.machine :=
    fun rests => ⟨still rests, fun _ member => (nomatch member)⟩
  let along (before : Machine) (parts : List Point) (after : Machine) : Prop :=
    related before after ∧ ∀ part ∈ parts, related before part.machine
  exact passes.addUp along none more across

/-- The same calls are in progress. -/
def Machine.SameFrames (before after : Machine) : Prop := after.frames = before.frames

theorem Passes.frames {before after : Machine} {parts : List Point} {failure : Option RuntimeError}
    (passes : Passes source before parts failure after)
    (across : ∀ part ∈ parts, part.machine.SameFrames (part.after source)) :
    before.SameFrames after ∧ ∀ part ∈ parts, before.SameFrames part.machine :=
  passes.related Machine.Still.frames (fun first second => Eq.trans second first) across

namespace Point

theorem frames_after (source : String) (point : Point) :
    (point.after source).frames = point.machine.frames := by
  induction point using parts_induction source with
  | step point ih =>
    cases passage source point with
    | enters running parts failure after =>
      have inner := ih _ (by rw [parts]; exact List.mem_cons_self)
      rw [after]
      unfold Machine.leaving
      rw [inner, running]
      rfl
    | collects opens room inside parts failure after =>
      have inner := ih _ (by rw [parts]; exact List.mem_cons_self)
      have same := congrArg Machine.frames inside
      rw [after]
      exact inner.trans same
    | adds opens parts failure after =>
      rw [after]
      rfl
    | through opens rooms adds passes => exact (passes.frames ih).1

/-- The parts of a point start with the calls in progress that the point has found, or with one more
and room for one less. -/
theorem room_of_mem_parts {whole part : Point} (member : part ∈ whole.parts source) :
    part.room + part.machine.frames.length = whole.room + whole.machine.frames.length := by
  cases passage source whole with
  | @enters left request machine inner running parts failure after =>
    rw [parts] at member
    cases List.mem_singleton.mp member
    rw [running]
    show left + (machine.frames.length + 1) = left + 1 + machine.frames.length
    omega
  | collects opens room inside parts failure after =>
    rw [parts] at member
    cases List.mem_singleton.mp member
    rw [room, inside]
    rfl
  | adds opens parts failure after =>
    rw [parts] at member
    cases member
  | through opens rooms adds passes =>
    have same := (passes.frames (fun part _ => frames_after source part)).2 part member
    rw [rooms part member, same]

/-- The failure starts at the point: it fails, and none of its parts does. -/
structure Raises (source : String) (point : Point) (error : RuntimeError) : Prop where
  fails : point.failure? source = some error
  itself : ∀ part ∈ point.parts source, part.failure? source = none

end Point

/-- A failure is that of a part, or no part fails and the trace is that of the calls in progress. -/
theorem Passes.failure {before after : Machine} {parts : List Point} {error : RuntimeError}
    (passes : Passes source before parts (some error) after) :
    (∃ part ∈ parts, part.failure? source = some error) ∨
      ((∀ part ∈ parts, part.failure? source = none) ∧
        ∃ span, error.trace = traceFrom span before.frames) := by
  generalize outcome : some error = failure at passes
  induction passes with
  | ended => cases outcome
  | overcome => cases outcome
  | raised span fault still =>
    cases outcome
    exact .inr ⟨(fun _ member => nomatch member), span, rfl⟩
  | failed still failure =>
    cases outcome
    exact .inl ⟨_, List.mem_cons_self, failure⟩
  | @behind before after part rest failure still succeeded others ih =>
    rcases ih outcome with ⟨other, member, fails⟩ | ⟨none, span, trace⟩
    · exact .inl ⟨other, List.mem_cons_of_mem _ member, fails⟩
    · refine .inr ⟨List.forall_mem_cons.mpr ⟨succeeded, none⟩, span, ?_⟩
      rw [trace, Point.frames_after, still.frames]

namespace Point

/-- A failure of a point is that of a part, or the point raises it and its trace is that of the calls in
progress. -/
theorem failure_cases {point : Point} {error : RuntimeError}
    (fails : point.failure? source = some error) :
    (∃ part ∈ point.parts source, part.failure? source = some error) ∨
      (point.Raises source error ∧ ∃ span, error.trace = traceFrom span point.machine.frames) := by
  cases passage source point with
  | enters running parts failure after =>
    exact .inl ⟨_, by rw [parts]; exact List.mem_cons_self, failure.symm.trans fails⟩
  | collects opens room inside parts failure after =>
    exact .inl ⟨_, by rw [parts]; exact List.mem_cons_self, failure.symm.trans fails⟩
  | adds opens parts failure after =>
    obtain ⟨span, fault, rfl⟩ := failure error fails
    refine .inr ⟨⟨fails, ?_⟩, span, rfl⟩
    rw [parts]
    exact fun _ member => nomatch member
  | through opens rooms adds passes =>
    rw [fails] at passes
    rcases passes.failure with part | ⟨none, trace⟩
    · exact .inl part
    · exact .inr ⟨⟨fails, none⟩, trace⟩

theorem exists_raises {point : Point} {error : RuntimeError}
    (fails : point.failure? source = some error) :
    ∃ origin ∈ point.points source, origin.Raises source error ∧
      ∃ span, error.trace = traceFrom span origin.machine.frames := by
  induction point using parts_induction source with
  | step point ih =>
    rcases failure_cases fails with ⟨part, member, failed⟩ | ⟨raises, trace⟩
    · obtain ⟨origin, within, raised⟩ := ih part member failed
      exact ⟨origin, mem_points_of_part member within, raised⟩
    · exact ⟨point, mem_points_self source point, raises, trace⟩

end Point

theorem callees_traceFrom (span : Span) (frames : List Frame) :
    (traceFrom span frames).map TraceEntry.callee = frames.map Frame.callee ++ [programName] := by
  induction frames generalizing span with
  | nil => rfl
  | cons frame outer ih =>
    rw [traceFrom, List.map_cons, ih]
    rfl

/-- An evaluation ends, with calls nested no deeper than the limit. -/
structure Point.Bounded (source : String) (start : Point) : Prop where
  /-- There is no endless chain of evaluations, each of them started by the one before. -/
  ends : Acc (fun part whole : Point => part ∈ whole.parts source) start
  /-- Nowhere are more calls in progress than the limit allows. -/
  nested : ∀ point ∈ start.points source, point.machine.frames.length ≤ callLimit
  /-- Everywhere there is room for as many calls as the calls in progress leave of the limit. -/
  room : ∀ point ∈ start.points source, point.room + point.machine.frames.length = callLimit
  /-- Every evaluation ends with the calls in progress that it has started with. -/
  balanced : ∀ point ∈ start.points source,
    (point.after source).frames = point.machine.frames
  /-- Every failure is raised at a point, and its trace names the calls in progress there. -/
  traced : ∀ point ∈ start.points source, ∀ error, point.failure? source = some error →
    ∃ origin ∈ point.points source, origin.Raises source error ∧
      error.trace.length = origin.machine.frames.length + 1 ∧
      error.trace.map TraceEntry.callee =
        origin.machine.frames.map Frame.callee ++ [programName]

/-- Whatever starts with no call in progress and room for all that the limit allows is bounded. -/
theorem Point.bounded_of_start {start : Point} (room : start.room = callLimit)
    (frames : start.machine.frames = []) : start.Bounded source := by
  have left : ∀ point ∈ start.points source,
      point.room + point.machine.frames.length = callLimit := by
    intro point within
    have begins : start.room + start.machine.frames.length = callLimit := by
      rw [room, frames]
      rfl
    exact inherited (fun whole same part member => (room_of_mem_parts member).trans same) begins within
  refine ⟨?_, fun point within => ?_, left, fun point _ => frames_after source point, ?_⟩
  · exact Subrelation.accessible (fun member => smaller_parts member)
      (wellFounded_smaller.apply start)
  · have same := left point within
    omega
  · intro point _ error fails
    obtain ⟨origin, within, raises, span, trace⟩ := exists_raises fails
    have callees := callees_traceFrom span origin.machine.frames
    rw [← trace] at callees
    refine ⟨origin, within, raises, ?_, callees⟩
    have lengths := congrArg List.length callees
    simpa using lengths

theorem failure_of_screenFrom {next : Nat} {vocabulary : Vocabulary} {state : Json}
    {host : Recording} {fault : Fault} {stack : List TraceLine}
    (failed : (screenFrom next source vocabulary state host).1 = .error (.runtime fault stack)) :
    ∃ statements error, Source.program source = .ok statements ∧
      (Point.screen next vocabulary state host statements).failure? source = some error ∧
      error.located source = .runtime fault stack := by
  unfold screenFrom at failed
  cases read : Source.program source with
  | error error =>
    rw [read] at failed
    cases failed
  | ok statements =>
    rw [read] at failed
    let start := Point.screen next vocabulary state host statements
    have ends : (start.failure? source, start.after source) =
        ending (executeBlock (callWithin source callLimit)
          (vocabulary.scope (Value.ofJson next state).1) statements
          (Machine.initial (Value.ofJson next state).2 host)) := rfl
    dsimp only at failed
    cases ran : executeBlock (callWithin source callLimit)
        (vocabulary.scope (Value.ofJson next state).1) statements
        (Machine.initial (Value.ofJson next state).2 host) with
    | mk result after =>
      rw [ran] at failed ends
      cases result with
      | error error =>
        exact ⟨statements, error, rfl, (Prod.mk.inj ends).1, Except.error.inj failed⟩
      | ok flow =>
        dsimp only at failed
        split at failed
        · cases failed
        · cases failed

theorem failure_of_invokeFrom {next fresh : Nat} {closure : Closure} {host : Recording}
    {fault : Fault} {stack : List TraceLine}
    (failed : ((Handler.callback closure source fresh).invokeFrom next host).1 =
      .error (.runtime fault stack)) :
    ∃ error, (Point.handler closure next host).failure? source = some error ∧
      error.located source = .runtime fault stack := by
  let start := Point.handler closure next host
  let request : Call := ⟨Handler.traceName, .function closure, [], closure.span⟩
  have ends : (start.failure? source, start.after source) =
      ending (callWithin source callLimit request (Machine.initial next host)) := rfl
  unfold Handler.invokeFrom at failed
  dsimp only at failed
  cases ran : callWithin source callLimit request (Machine.initial next host) with
  | mk result after =>
    rw [ran] at failed ends
    cases result with
    | error error => exact ⟨error, (Prod.mk.inj ends).1, Except.error.inj failed⟩
    | ok value => cases failed

private theorem callees_located {error : RuntimeError} {fault : Fault} {stack : List TraceLine}
    (located : error.located source = .runtime fault stack) :
    stack.map TraceLine.callee = error.trace.map TraceEntry.callee := by
  cases located
  rw [List.map_map]
  rfl

/-- Screens and handlers are evaluated within the limit on nested calls, whatever the program is, and the
stack of a failure is that of the calls in progress where it was raised. -/
theorem evaluation_is_bounded (source : String) (next : Nat) (host : Recording) :
    (∀ vocabulary state statements,
      (Point.screen next vocabulary state host statements).Bounded source) ∧
    (∀ closure, (Point.handler closure next host).Bounded source) ∧
    (∀ vocabulary state fault stack,
      (screenFrom next source vocabulary state host).1 = .error (.runtime fault stack) →
      ∃ statements, Source.program source = .ok statements ∧
        ∃ origin ∈ (Point.screen next vocabulary state host statements).points source,
          stack.map TraceLine.callee =
            origin.machine.frames.map Frame.callee ++ [programName]) ∧
    (∀ closure fresh fault stack,
      ((Handler.callback closure source fresh).invokeFrom next host).1 =
        .error (.runtime fault stack) →
      ∃ origin ∈ (Point.handler closure next host).points source,
        stack.map TraceLine.callee =
          origin.machine.frames.map Frame.callee ++ [programName]) := by
  have screens : ∀ vocabulary state statements,
      (Point.screen next vocabulary state host statements).Bounded source :=
    fun _ _ _ => Point.bounded_of_start rfl rfl
  have handlers : ∀ closure, (Point.handler closure next host).Bounded source :=
    fun _ => Point.bounded_of_start rfl rfl
  refine ⟨screens, handlers, ?_, ?_⟩
  · intro vocabulary state fault stack failed
    obtain ⟨statements, error, read, fails, located⟩ := failure_of_screenFrom failed
    obtain ⟨origin, within, _, _, callees⟩ :=
      (screens vocabulary state statements).traced _ (Point.mem_points_self _ _) error fails
    exact ⟨statements, read, origin, within, (callees_located located).trans callees⟩
  · intro closure fresh fault stack failed
    obtain ⟨error, fails, located⟩ := failure_of_invokeFrom failed
    obtain ⟨origin, within, _, _, callees⟩ :=
      (handlers closure).traced _ (Point.mem_points_self _ _) error fails
    exact ⟨origin, within, (callees_located located).trans callees⟩

/-- A function that calls its argument with itself without end, and a screen that calls it so. -/
private def endless : List Statement :=
  let place : Span := default
  let spin : Source.Expression := .name place "spin"
  let self : Source.Expression := .name place "self"
  [.binding place "spin" (.arrow place ["self"] (.expression (.call place self [self]))),
    .expression place (.call place (.name place "render")
      [.arrow place [] (.expression (.call place spin [spin]))])]

example : ((Point.screen 0 .standard .null .empty endless).failure? "").map
    (fun error => (error.fault, error.trace.length)) = some (.tooManyCalls, 257) := by
  decide +kernel

end ScreenStudio.Evaluation
