/- digest: Every evaluation passes through its parts: runs of its own between them change little. -/

import ScreenStudio.Proofs.Evaluation.Point

set_option autoImplicit false
set_option relaxedAutoImplicit false

namespace ScreenStudio.Evaluation

open Source (Span Expression Statement Body)

/-- The same calls are in progress, and the same collectors have collected the same. -/
structure Machine.Still (before after : Machine) : Prop where
  frames : after.frames = before.frames
  collectors : after.collectors = before.collectors
  next : before.next ≤ after.next

namespace Machine.Still

theorem refl (machine : Machine) : machine.Still machine := ⟨rfl, rfl, Nat.le_refl _⟩

theorem trans {before middle after : Machine} (first : before.Still middle)
    (second : middle.Still after) : before.Still after :=
  ⟨second.frames.trans first.frames, second.collectors.trans first.collectors,
    Nat.le_trans first.next second.next⟩

end Machine.Still

/-- From one machine through some points to a failure, if there is one, and another machine. A point
that fails is the last one, unless the failure is overcome. -/
inductive Passes (source : String) : Machine → List Point → Option RuntimeError → Machine → Prop
  | ended {before after : Machine} (still : before.Still after) : Passes source before [] none after
  | raised {before after : Machine} (span : Span) (fault : Fault) (still : before.Still after) :
    Passes source before [] (some ⟨fault, traceFrom span before.frames⟩) after
  | failed {before : Machine} {part : Point} {error : RuntimeError}
    (still : before.Still part.machine) (failure : part.failure? source = some error) :
    Passes source before [part] (some error) (part.after source)
  | behind {before after : Machine} {part : Point} {rest : List Point}
    {failure : Option RuntimeError} (still : before.Still part.machine)
    (succeeded : part.failure? source = none)
    (others : Passes source (part.after source) rest failure after) :
    Passes source before (part :: rest) failure after
  | overcome {before after : Machine} {part : Point} {rest : List Point}
    (still : before.Still part.machine) (others : Passes source (part.after source) rest none after) :
    Passes source before (part :: rest) none after

variable {source : String}

theorem Passes.of_still {before middle after : Machine} {parts : List Point}
    {failure : Option RuntimeError} (still : before.Still middle)
    (passes : Passes source middle parts failure after) : Passes source before parts failure after := by
  cases passes with
  | ended later => exact .ended (still.trans later)
  | raised span fault later =>
    rw [still.frames]
    exact .raised span fault (still.trans later)
  | failed later failure => exact .failed (still.trans later) failure
  | behind later succeeded others => exact .behind (still.trans later) succeeded others
  | overcome later others => exact .overcome (still.trans later) others

/-- What holds of still machines, and still holds with one more part in front, holds from the first machine
through all parts to the last. Whether there is a failure does not matter. -/
theorem Passes.addUp (along : Machine → List Point → Machine → Prop) {holds : Point → Prop}
    (still : ∀ {before after : Machine}, before.Still after → along before [] after)
    (more : ∀ {before after : Machine} {part : Point} {rest : List Point},
      before.Still part.machine → holds part → along (part.after source) rest after →
        along before (part :: rest) after)
    {before after : Machine} {parts : List Point} {failure : Option RuntimeError}
    (passes : Passes source before parts failure after) (across : ∀ part ∈ parts, holds part) :
    along before parts after := by
  induction passes with
  | ended rests => exact still rests
  | raised span fault rests => exact still rests
  | failed rests failure => exact more rests (across _ List.mem_cons_self) (still (.refl _))
  | behind rests succeeded others ih =>
    obtain ⟨first, behind⟩ := List.forall_mem_cons.mp across
    exact more rests first (ih behind)
  | overcome rests others ih =>
    obtain ⟨first, behind⟩ := List.forall_mem_cons.mp across
    exact more rests first (ih behind)

theorem ending_snd {α : Type} (outcome : Except RuntimeError α × Machine) :
    (ending outcome).2 = outcome.2 := by
  obtain ⟨result, after⟩ := outcome
  cases result <;> rfl

namespace Run

variable {α β : Type}

/-- The run passes through the points and ends as they say. -/
def PassesThrough (source : String) (run : Run α) (machine : Machine) (parts : List Point) : Prop :=
  Passes source machine parts (ending (run machine)).1 (ending (run machine)).2

/-- The run starts no evaluation: it is still, and its failures are its own. -/
def IsOwn (run : Run α) : Prop :=
  ∀ machine source, run.PassesThrough source machine []

theorem bind_of_ok {run : Run α} {next : α → Run β} {machine after : Machine} {value : α}
    (ran : run machine = (.ok value, after)) : (run >>= next) machine = next value after := by
  show andThen run next machine = _
  unfold andThen
  rw [ran]

theorem bind_of_error {run : Run α} {next : α → Run β} {machine after : Machine}
    {error : RuntimeError} (ran : run machine = (.error error, after)) :
    (run >>= next) machine = (.error error, after) := by
  show andThen run next machine = _
  unfold andThen
  rw [ran]

theorem isOwn_succeed (value : α) : IsOwn (succeed value) :=
  fun machine _ => .ended (.refl machine)

theorem isOwn_fail (span : Span) (fault : Fault) : IsOwn (fail span fault : Run α) :=
  fun machine _ => .raised span fault (.refl machine)

theorem isOwn_identity : IsOwn identity :=
  fun _ _ => .ended ⟨rfl, rfl, Nat.le_succ _⟩

theorem isOwn_log (line : String) : IsOwn (log line) :=
  fun _ _ => .ended ⟨rfl, rfl, Nat.le_refl _⟩

theorem isOwn_dispatch (action : String) : IsOwn (dispatch action) :=
  fun _ _ => .ended ⟨rfl, rfl, Nat.le_refl _⟩

theorem isOwn_setRoot (node : Node) : IsOwn (setRoot node) :=
  fun _ _ => .ended ⟨rfl, rfl, Nat.le_refl _⟩

theorem passesThrough_own_bind {run : Run α} {next : α → Run β} {machine : Machine}
    {rest : α → Machine → List Point} (own : IsOwn run)
    (others : ∀ value after, run machine = (.ok value, after) →
      (next value).PassesThrough source after (rest value after)) :
    (run >>= next).PassesThrough source machine (following (run machine) rest) := by
  have first := own machine source
  unfold PassesThrough at first ⊢
  cases ran : run machine with
  | mk result after =>
    rw [ran] at first
    cases result with
    | error error =>
      rw [bind_of_error ran]
      exact first
    | ok value =>
      rw [bind_of_ok ran]
      cases first with
      | ended still => exact (others value after ran).of_still still

theorem isOwn_bind {run : Run α} {next : α → Run β} (own : IsOwn run)
    (others : ∀ value, IsOwn (next value)) : IsOwn (run >>= next) := by
  intro machine source
  have passes : (run >>= next).PassesThrough source machine
      (following (run machine) (fun _ _ => [])) :=
    passesThrough_own_bind own (fun value after _ => others value after source)
  cases ran : run machine with
  | mk result after =>
    rw [ran] at passes
    cases result <;> exact passes

/-- The run is the evaluation that starts at the point. -/
def IsPoint (source : String) (run : Run α) (machine : Machine) (point : Point) : Prop :=
  point.machine = machine ∧ ending (run machine) = (point.failure? source, point.after source)

theorem passesThrough_point {run : Run α} {machine : Machine} {point : Point}
    (same : IsPoint source run machine point) : run.PassesThrough source machine [point] := by
  obtain ⟨rfl, ends⟩ := same
  unfold PassesThrough
  rw [ends]
  cases failure : point.failure? source with
  | none => exact .behind (.refl _) failure (.ended (.refl _))
  | some error => exact .failed (.refl _) failure

theorem passesThrough_bind {run : Run α} {next : α → Run β} {machine : Machine} {point : Point}
    {rest : α → Machine → List Point} (same : IsPoint source run machine point)
    (others : ∀ value after, run machine = (.ok value, after) →
      (next value).PassesThrough source after (rest value after)) :
    (run >>= next).PassesThrough source machine (point :: following (run machine) rest) := by
  obtain ⟨rfl, ends⟩ := same
  unfold PassesThrough
  cases ran : run point.machine with
  | mk result after =>
    rw [ran] at ends
    cases result with
    | error error =>
      obtain ⟨failure, rfl⟩ := Prod.mk.inj ends
      rw [bind_of_error ran]
      exact .failed (.refl _) failure.symm
    | ok value =>
      obtain ⟨succeeded, rfl⟩ := Prod.mk.inj ends
      rw [bind_of_ok ran]
      exact .behind (.refl _) succeeded.symm (others value _ ran)

theorem passesThrough_last {run : Run α} {next : α → Run β} {machine : Machine} {point : Point}
    (same : IsPoint source run machine point) (others : ∀ value, IsOwn (next value)) :
    (run >>= next).PassesThrough source machine [point] := by
  have passes : (run >>= next).PassesThrough source machine
      (point :: following (run machine) (fun _ _ => [])) :=
    passesThrough_bind same (fun value after _ => others value after source)
  cases ran : run machine with
  | mk result after =>
    rw [ran] at passes
    cases result <;> exact passes

end Run

open Run (IsOwn PassesThrough passesThrough_bind passesThrough_last passesThrough_point
  passesThrough_own_bind)

theorem isOwn_memberOf (target : Value) (property : String) (span : Span) :
    IsOwn (memberOf target property span) := by
  unfold memberOf
  split
  · exact Run.isOwn_fail _ _
  all_goals exact Run.isOwn_succeed _

theorem isOwn_indexOf (target key : Value) (span : Span) : IsOwn (indexOf target key span) := by
  unfold indexOf
  split
  · exact Run.isOwn_succeed _
  · exact Run.isOwn_succeed _
  · exact isOwn_memberOf _ _ _

theorem isOwn_childOf (value : Value) (span : Span) : IsOwn (childOf value span) := by
  unfold childOf
  split
  all_goals first | exact Run.isOwn_succeed _ | exact Run.isOwn_fail _ _

theorem isOwn_newNode (tag : String) (properties : List (String × Property))
    (children : List Child) : IsOwn (newNode tag properties children) :=
  Run.isOwn_bind Run.isOwn_identity (fun _ => Run.isOwn_succeed _)

theorem isOwn_handlerOf (action : Option Value) (span : Span) :
    IsOwn (handlerOf source action span) := by
  cases action with
  | none => exact Run.isOwn_succeed _
  | some action =>
    cases action with
    | function closure => exact fun machine _ => .ended (.refl machine)
    | builtin function => exact Run.isOwn_fail _ _
    | adder collector => exact Run.isOwn_fail _ _
    | _ => exact Run.isOwn_succeed _

theorem isOwn_itemsOf (items : Option Value) (span : Span) : IsOwn (itemsOf items span) := by
  unfold itemsOf
  split
  all_goals first | exact Run.isOwn_succeed _ | exact Run.isOwn_fail _ _

section Syntax

variable {room : Nat} {machine : Machine}

theorem passesThrough_evaluate (scope : Scope) (value : Expression) :
    (evaluate (callWithin source room) scope value).PassesThrough source machine
      (expressionParts room (callWithin source room) machine scope value) := by
  cases value with
  | literal span value =>
    rw [evaluate]
    exact Run.isOwn_succeed _ _ _
  | array span items =>
    rw [evaluate]
    exact passesThrough_last ⟨rfl, rfl⟩
      (fun _ => Run.isOwn_bind Run.isOwn_identity (fun _ => Run.isOwn_succeed _))
  | object span entries =>
    rw [evaluate]
    exact passesThrough_last ⟨rfl, rfl⟩
      (fun _ => Run.isOwn_bind Run.isOwn_identity (fun _ => Run.isOwn_succeed _))
  | name span name =>
    rw [evaluate]
    split
    · exact Run.isOwn_succeed _ _ _
    · exact Run.isOwn_fail _ _ _ _
  | member span target property =>
    rw [evaluate]
    exact passesThrough_last ⟨rfl, rfl⟩ (fun value => isOwn_memberOf value property span)
  | index span target key =>
    rw [evaluate]
    refine passesThrough_bind ⟨rfl, rfl⟩ (fun value after _ => ?_)
    exact passesThrough_last ⟨rfl, rfl⟩ (fun key => isOwn_indexOf value key span)
  | call span callee arguments =>
    rw [evaluate]
    refine passesThrough_bind ⟨rfl, rfl⟩ (fun function middle _ => ?_)
    refine passesThrough_bind ⟨rfl, rfl⟩ (fun values after _ => ?_)
    exact passesThrough_point ⟨rfl, rfl⟩
  | arrow span parameters body =>
    rw [evaluate]
    exact Run.isOwn_succeed _ _ _
  | unary span operator operand =>
    rw [evaluate]
    exact passesThrough_last ⟨rfl, rfl⟩ (fun _ => Run.isOwn_succeed _)
  | binary span operator left right =>
    rw [evaluate]
    refine passesThrough_bind ⟨rfl, rfl⟩ (fun value after _ => ?_)
    have decided : (Run.succeed value).PassesThrough source after [] := Run.isOwn_succeed _ _ _
    have second : (evaluate (callWithin source room) scope right).PassesThrough source after
        [⟨room, .expression scope right, after⟩] := passesThrough_point ⟨rfl, rfl⟩
    cases operator with
    | or =>
      cases truth : value.isTruthy with
      | true =>
        simp only [isDecided, truth]
        exact decided
      | false =>
        simp only [isDecided, truth]
        exact second
    | and =>
      cases truth : value.isTruthy with
      | true =>
        simp only [isDecided, truth]
        exact second
      | false =>
        simp only [isDecided, truth]
        exact decided
    | _ => exact passesThrough_last ⟨rfl, rfl⟩ (fun _ => Run.isOwn_succeed _)
  | conditional span condition consequent alternative =>
    rw [evaluate]
    refine passesThrough_bind ⟨rfl, rfl⟩ (fun value after _ => ?_)
    split
    · exact passesThrough_point ⟨rfl, rfl⟩
    · exact passesThrough_point ⟨rfl, rfl⟩

theorem passesThrough_executeStatement (scope : Scope) (statement : Statement) :
    (executeStatement (callWithin source room) scope statement).PassesThrough source machine
      (statementParts room (callWithin source room) machine scope statement) := by
  cases statement with
  | binding span name value =>
    rw [executeStatement]
    exact passesThrough_last ⟨rfl, rfl⟩ (fun _ => Run.isOwn_succeed _)
  | expression span value =>
    rw [executeStatement]
    exact passesThrough_last ⟨rfl, rfl⟩ (fun _ => Run.isOwn_succeed _)
  | branch span condition consequent alternative =>
    rw [executeStatement]
    refine passesThrough_bind ⟨rfl, rfl⟩ (fun value after _ => ?_)
    dsimp only
    split
    · refine passesThrough_last ⟨rfl, rfl⟩ (fun flow => ?_)
      cases flow <;> exact Run.isOwn_succeed _
    · cases alternative with
      | none => exact Run.isOwn_succeed (Step.goOn scope) _ _
      | some statements =>
        refine passesThrough_last ⟨rfl, rfl⟩ (fun flow => ?_)
        cases flow <;> exact Run.isOwn_succeed _
  | result span value =>
    cases value with
    | none =>
      rw [executeStatement]
      exact Run.isOwn_succeed _ _ _
    | some value =>
      rw [executeStatement]
      exact passesThrough_last ⟨rfl, rfl⟩ (fun _ => Run.isOwn_succeed _)

theorem passesThrough_callClosure (closure : Closure) (arguments : List Value) :
    (callClosure (callWithin source room) closure arguments).PassesThrough source machine
      (bodyParts room machine closure arguments) := by
  obtain ⟨span, parameters, body, scope⟩ := closure
  cases body with
  | expression value => exact passesThrough_point ⟨rfl, rfl⟩
  | block statements =>
    refine passesThrough_last ⟨rfl, rfl⟩ (fun flow => ?_)
    cases flow <;> exact Run.isOwn_succeed _

end Syntax

section Builders

variable {room : Nat} {machine : Machine}

theorem passesThrough_runBuiltin (behaviour : Behaviour) (arguments : List Value) (span : Span) :
    (runBuiltin source (callWithin source room) behaviour arguments span).PassesThrough source machine
      (builtinParts source room machine behaviour arguments span) := by
  cases behaviour with
  | column => exact passesThrough_last ⟨rfl, rfl⟩ (fun _ => isOwn_newNode _ _ _)
  | row => exact passesThrough_last ⟨rfl, rfl⟩ (fun _ => isOwn_newNode _ _ _)
  | text => exact passesThrough_last ⟨rfl, rfl⟩ (fun _ => isOwn_newNode _ _ _)
  | button =>
    refine passesThrough_own_bind (isOwn_handlerOf _ _) (fun handler after _ => ?_)
    exact passesThrough_last ⟨rfl, rfl⟩ (fun _ => isOwn_newNode _ _ _)
  | image => exact isOwn_newNode _ _ _ _ _
  | lazyColumn =>
    refine passesThrough_own_bind (isOwn_itemsOf _ _) (fun items after _ => ?_)
    dsimp only
    split
    · exact passesThrough_last ⟨rfl, rfl⟩ (fun _ => isOwn_newNode _ _ _)
    · exact Run.isOwn_fail _ _ _ _
  | render =>
    show (render (callWithin source room) arguments span).PassesThrough _ _ _
    unfold render builtinParts
    dsimp only
    split
    · refine passesThrough_last ⟨rfl, rfl⟩ (fun produced => ?_)
      cases produced with
      | node identity node =>
        exact Run.isOwn_bind (Run.isOwn_setRoot node) (fun _ => Run.isOwn_succeed _)
      | _ => exact Run.isOwn_fail _ _
    · exact Run.isOwn_fail _ _ _ _
  | execute =>
    show (execute arguments).PassesThrough _ _ _
    unfold execute
    split
    · exact Run.isOwn_succeed _ _ _
    · exact Run.isOwn_succeed _ _ _
    · exact Run.isOwn_bind (Run.isOwn_dispatch _) (fun _ => Run.isOwn_succeed _) _ _
  | log => exact Run.isOwn_bind (Run.isOwn_log _) (fun _ => Run.isOwn_succeed _) _ _
  | label tag => exact isOwn_newNode _ _ _ _ _

theorem passesThrough_contentOf (content : Option Value) (absent : String) (span : Span) :
    (contentOf (callWithin source room) content absent span).PassesThrough source machine
      (activityParts source room (callWithin source room) machine
        (.content content absent span)) := by
  cases content with
  | none => exact Run.isOwn_succeed _ _ _
  | some content =>
    unfold contentOf activityParts
    dsimp only
    split
    · refine passesThrough_last ⟨rfl, rfl⟩ (fun produced => ?_)
      cases produced <;> exact Run.isOwn_succeed _
    · split
      · exact Run.isOwn_succeed _ _ _
      · exact Run.isOwn_succeed _ _ _

theorem passesThrough_itemChild (renderer item : Value) (index : Nat) (span : Span) :
    (itemChild (callWithin source room) renderer item index span).PassesThrough source machine
      (activityParts source room (callWithin source room) machine
        (.item renderer item index span)) := by
  refine passesThrough_last ⟨rfl, rfl⟩ (fun rendered => ?_)
  refine Run.isOwn_bind (isOwn_childOf _ _) (fun child => ?_)
  cases child with
  | none => exact Run.isOwn_fail _ _
  | some child => exact Run.isOwn_succeed _

theorem itemShown_eq (call : Caller) (renderer item : Value) (index : Nat) (span : Span)
    (machine : Machine) :
    ∃ child after, itemShown call renderer item index span machine = (.ok child, after) ∧
      (itemChild call renderer item index span machine).2.Still after := by
  unfold itemShown
  cases ran : itemChild call renderer item index span machine with
  | mk result after =>
    have tried : Run.attempt (itemChild call renderer item index span) machine =
        (.ok result, after) := by
      unfold Run.attempt
      rw [ran]
    rw [Run.bind_of_ok tried]
    cases result with
    | ok child => exact ⟨child, after, rfl, .refl after⟩
    | error error => exact ⟨_, _, rfl, rfl, rfl, Nat.le_refl _⟩

theorem itemChildren_succeeds (call : Caller) (renderer : Value) (span : Span) (items : List Value)
    (index : Nat) (machine : Machine) :
    ∃ children after, itemChildren call renderer span index items machine = (.ok children, after) := by
  induction items generalizing index machine with
  | nil => exact ⟨[], machine, rfl⟩
  | cons item rest ih =>
    obtain ⟨child, middle, shown, _⟩ := itemShown_eq call renderer item index span machine
    obtain ⟨children, after, others⟩ := ih (index + 1) middle
    refine ⟨child :: children, after, ?_⟩
    rw [itemChildren, Run.bind_of_ok shown, Run.bind_of_ok others]
    rfl

theorem passesThrough_itemChildren (renderer : Value) (span : Span) (index : Nat)
    (items : List Value) :
    (itemChildren (callWithin source room) renderer span index items).PassesThrough source machine
      (activityParts source room (callWithin source room) machine
        (.list renderer span index items)) := by
  cases items with
  | nil => exact Run.isOwn_succeed _ _ _
  | cons item rest =>
    obtain ⟨child, middle, shown, still⟩ :=
      itemShown_eq (callWithin source room) renderer item index span machine
    obtain ⟨children, after, others⟩ :=
      itemChildren_succeeds (callWithin source room) renderer span rest (index + 1) middle
    have whole : itemChildren (callWithin source room) renderer span index (item :: rest) machine =
        (.ok (child :: children), after) := by
      rw [itemChildren, Run.bind_of_ok shown, Run.bind_of_ok others]
      rfl
    let first : Point := ⟨room, .item renderer item index span, machine⟩
    let second : Point := ⟨room, .list renderer span (index + 1) rest, middle⟩
    have firstAfter : first.after source =
        (itemChild (callWithin source room) renderer item index span machine).2 := ending_snd _
    have ends : ending (itemChildren (callWithin source room) renderer span (index + 1) rest middle) =
        (none, after) := by
      rw [others]
      rfl
    have succeeded : second.failure? source = none := congrArg Prod.fst ends
    have secondAfter : second.after source = after := congrArg Prod.snd ends
    have parts : activityParts source room (callWithin source room) machine
        (.list renderer span index (item :: rest)) = [first, second] := by
      show [first, ⟨room, _, (itemShown _ _ _ _ _ _).2⟩] = _
      rw [shown]
    show Passes source machine (activityParts _ _ _ _ _) (ending (itemChildren _ _ _ _ _ _)).1
      (ending (itemChildren _ _ _ _ _ _)).2
    rw [parts, whole]
    refine .overcome (.refl machine) (.behind ?_ succeeded (.ended ?_))
    · rw [firstAfter]
      exact still
    · rw [secondAfter]
      exact .refl after

end Builders

end ScreenStudio.Evaluation
