/- digest: Runs that differ in their identities only, and that evaluation keeps them so. -/

import ScreenStudio.Proofs.Value.Confined
import ScreenStudio.Proofs.Value.InStep
import ScreenStudio.Evaluation.Program

set_option autoImplicit false
set_option relaxedAutoImplicit false

namespace ScreenStudio.Evaluation

open Source (Span Literal Expression Statement Body)

/-- How two machines may differ in what a program writes and does not read: what is collected, the root,
and what the host has recorded. -/
structure Unread (map : Renaming) where
  content : (bound collector : Nat) → List Child → List Child → Prop
  root : (bound : Nat) → Option Node → Option Node → Prop
  host : Recording → Recording → Prop
  content_mono : ∀ {low high collector first second}, low ≤ high →
    content low collector first second → content high collector first second
  content_new : ∀ {bound collector}, map.start ≤ collector → content bound collector [] []
  content_own : ∀ {bound collector first second}, map.start ≤ collector →
    content bound collector first second →
      Child.ListBelow bound first ∧ second = Child.renameList map.relabel first
  content_append : ∀ {bound collector first second children},
    content bound collector first second → Child.ListBelow bound children →
      content bound collector (first ++ children) (second ++ Child.renameList map.relabel children)
  root_mono : ∀ {low high first second}, low ≤ high → root low first second → root high first second
  root_set : ∀ {bound node}, node.Below bound → root bound (some node) (some (node.rename map.relabel))
  host_log : ∀ {first second} line, host first second → host (first.log line) (second.log line)
  host_dispatch : ∀ {first second} action, host first second →
    host (first.dispatch action) (second.dispatch action)

/-- No difference but that of the identities. -/
def Unread.renamed (map : Renaming) : Unread map where
  content bound _ first second :=
    Child.ListBelow bound first ∧ second = Child.renameList map.relabel first
  root bound first second :=
    (∀ node, first = some node → node.Below bound) ∧ second = first.map (Node.rename map.relabel)
  host first second := second = first
  content_mono le := fun ⟨below, same⟩ => ⟨below.mono le, same⟩
  content_new _ := ⟨trivial, rfl⟩
  content_own _ related := related
  content_append := by
    rintro bound collector first _ children ⟨below, rfl⟩ more
    exact ⟨Child.listBelow_append below more, (Child.renameList_append _ _ _).symm⟩
  root_mono le := fun ⟨below, same⟩ => ⟨fun node is => (below node is).mono le, same⟩
  root_set below := ⟨fun _ is => Option.some.inj is ▸ below, rfl⟩
  host_log _ same := by rw [same]
  host_dispatch _ same := by rw [same]

variable {map : Renaming}

/-- The same collectors are open up to the renaming, and what they have collected is related. -/
def CollectorsAlike (unread : Unread map) (bound : Nat) :
    List (Nat × List Child) → List (Nat × List Child) → Prop
  | [], [] => True
  | (collector, children) :: outer, (renamed, others) :: rest =>
    renamed = map.relabel collector ∧ unread.content bound collector children others ∧
      CollectorsAlike unread bound outer rest
  | _, _ => False

/-- The second machine is the first one with its identities renamed. -/
structure Machine.Alike (unread : Unread map) (first second : Machine) : Prop where
  reached : map.start ≤ first.next
  next : second.next = map.relabel first.next
  frames : second.frames = first.frames
  collectors : CollectorsAlike unread first.next first.collectors second.collectors
  root : unread.root first.next first.root second.root
  host : unread.host first.host second.host

/-- When two results are alike, given a bound on the identities of the first. -/
structure Likeness (α : Type) where
  holds : (bound : Nat) → α → α → Prop
  mono : ∀ {low high first second}, low ≤ high → holds low first second → holds high first second

namespace Likeness

/-- The second is the first renamed. -/
def of {α : Type} (below : Nat → α → Prop) (rename : α → α)
    (mono : ∀ {low high value}, low ≤ high → below low value → below high value) : Likeness α where
  holds bound first second := below bound first ∧ second = rename first
  mono le := fun ⟨held, same⟩ => ⟨mono le held, same⟩

def equal (α : Type) : Likeness α where
  holds _ first second := second = first
  mono _ same := same

def both {α β : Type} (left : Likeness α) (right : Likeness β) : Likeness (α × β) where
  holds bound first second := left.holds bound first.1 second.1 ∧ right.holds bound first.2 second.2
  mono le := fun ⟨one, two⟩ => ⟨left.mono le one, right.mono le two⟩

/-- The same failure, or results that are alike. -/
inductive Result {α : Type} (like : Likeness α) (bound : Nat) :
    Except RuntimeError α → Except RuntimeError α → Prop
  | ok {first second : α} (alike : like.holds bound first second) :
    Result like bound (.ok first) (.ok second)
  | error (error : RuntimeError) : Result like bound (.error error) (.error error)

theorem Result.mapped {α β : Type} {like : Likeness α} {also : Likeness β} {bound : Nat}
    {first second : Except RuntimeError α} (result : like.Result bound first second) {f g : α → β}
    (keeps : ∀ {one two}, like.holds bound one two → also.holds bound (f one) (g two)) :
    also.Result bound (first.map f) (second.map g) := by
  cases result with
  | ok alike => exact .ok (keeps alike)
  | error error => exact .error error

def attempt {α : Type} (like : Likeness α) : Likeness (Except RuntimeError α) where
  holds := like.Result
  mono le alike := by
    cases alike with
    | ok alike => exact .ok (like.mono le alike)
    | error error => exact .error error

variable (map : Renaming)

def value : Likeness Value := .of Value.Below (Value.rename map.relabel) (Value.Below.mono · ·)

def values : Likeness (List Value) :=
  .of Value.ItemsBelow (Value.renameItems map.relabel) (Value.ItemsBelow.mono · ·)

def entries : Likeness (List (String × Value)) :=
  .of Value.EntriesBelow (Value.renameEntries map.relabel) (Value.EntriesBelow.mono · ·)

def child : Likeness Child := .of Child.Below (Child.rename map.relabel) (Child.Below.mono · ·)

def children : Likeness (List Child) :=
  .of Child.ListBelow (Child.renameList map.relabel) (Child.ListBelow.mono · ·)

def made : Likeness (Option Child) :=
  .of (fun bound made => ∀ child, made = some child → child.Below bound)
    (Option.map (Child.rename map.relabel)) (fun le below child is => (below child is).mono le)

/-- An identity that has been handed out since the two runs are in step. -/
def identity : Likeness Nat :=
  .of (fun bound identity => map.start ≤ identity ∧ identity < bound) map.relabel
    (fun le held => ⟨held.1, Nat.lt_of_lt_of_le held.2 le⟩)

/-- A handler whose bound may be the next identity. -/
def listener : Likeness (Option Handler) :=
  .of (fun bound listener => ∀ handler, listener = some handler → handler.Below (bound + 1))
    (Option.map (Handler.rename map.relabel))
    (fun le below handler is => by
      have held := below handler is
      cases handler with
      | action text => trivial
      | callback closure source fresh =>
        exact ⟨held.1, Nat.lt_of_lt_of_le held.2 (Nat.succ_le_succ le)⟩)

end Likeness

/-- How a block ends, with its identities renamed. -/
def Flow.rename (relabel : Nat → Nat) : Flow → Flow
  | .next => .next
  | .result value => .result (value.rename relabel)

def Flow.Below (bound : Nat) : Flow → Prop
  | .next => True
  | .result value => value.Below bound

theorem Flow.Below.mono {low high : Nat} (le : low ≤ high) {flow : Flow} (below : flow.Below low) :
    flow.Below high := by
  cases flow with
  | next => trivial
  | result value => exact Value.Below.mono le below

/-- How a statement ends, with its identities renamed. -/
def Step.rename (relabel : Nat → Nat) : Step → Step
  | .goOn scope => .goOn (Value.renameEntries relabel scope)
  | .finish value => .finish (value.rename relabel)

def Step.Below (bound : Nat) : Step → Prop
  | .goOn scope => Value.EntriesBelow bound scope
  | .finish value => value.Below bound

theorem Step.Below.mono {low high : Nat} (le : low ≤ high) {step : Step} (below : step.Below low) :
    step.Below high := by
  cases step with
  | goOn scope => exact Value.EntriesBelow.mono le below
  | finish value => exact Value.Below.mono le below

def Likeness.flow (map : Renaming) : Likeness Flow :=
  .of Flow.Below (Flow.rename map.relabel) (Flow.Below.mono · ·)

def Likeness.step (map : Renaming) : Likeness Step :=
  .of Step.Below (Step.rename map.relabel) (Step.Below.mono · ·)

/-- A call with its identities renamed. -/
def Call.rename (relabel : Nat → Nat) (request : Call) : Call :=
  ⟨request.name, request.callee.rename relabel, Value.renameItems relabel request.arguments,
    request.span⟩

structure Call.Below (bound : Nat) (request : Call) : Prop where
  callee : request.callee.Below bound
  arguments : Value.ItemsBelow bound request.arguments

variable {unread : Unread map} {bound : Nat} {α β : Type}

theorem CollectorsAlike.mono {low high : Nat} (le : low ≤ high) :
    ∀ {first second : List (Nat × List Child)}, CollectorsAlike unread low first second →
      CollectorsAlike unread high first second
  | [], [], _ => trivial
  | _ :: _, _ :: _, alike =>
    ⟨alike.1, unread.content_mono le alike.2.1, CollectorsAlike.mono le alike.2.2⟩

/-- The outcomes of two runs are alike, and no identity below `low` was handed out. -/
structure OutcomesAlike (unread : Unread map) (like : Likeness α) (low : Nat)
    (first second : Except RuntimeError α × Machine) : Prop where
  next : low ≤ first.2.next
  machine : first.2.Alike unread second.2
  result : like.Result first.2.next first.1 second.1

/-- From machines that are alike and have reached the bound, the runs have outcomes that are alike. -/
def Run.Alike (unread : Unread map) (bound : Nat) (like : Likeness α) (first second : Run α) : Prop :=
  ∀ one two : Machine, bound ≤ one.next → one.Alike unread two →
    OutcomesAlike unread like one.next (first one) (second two)

/-- Calls that are alike run alike. -/
def Caller.Alike (unread : Unread map) (call : Caller) : Prop :=
  ∀ bound request, request.Below bound →
    Run.Alike unread bound (.value map) (call request) (call (request.rename map.relabel))

namespace Run

variable {like : Likeness α} {also : Likeness β}

theorem alike_succeed {first second : α} (alike : like.holds bound first second) :
    Alike unread bound like (succeed first) (succeed second) :=
  fun _ _ reached machines => ⟨Nat.le_refl _, machines, .ok (like.mono reached alike)⟩

theorem alike_fail (span : Span) (fault : Fault) :
    Alike unread bound like (fail span fault) (fail span fault) := by
  intro one two _ machines
  refine ⟨Nat.le_refl _, machines, ?_⟩
  show like.Result _ (.error ⟨fault, traceFrom span one.frames⟩)
    (.error ⟨fault, traceFrom span two.frames⟩)
  rw [machines.frames]
  exact .error _

theorem alike_bind {first second : Run α} {next later : α → Run β}
    (runs : Alike unread bound like first second)
    (others : ∀ high one two, bound ≤ high → like.holds high one two →
      Alike unread high also (next one) (later two)) :
    Alike unread bound also (first >>= next) (second >>= later) := by
  intro one two reached machines
  obtain ⟨le, middle, result⟩ := runs one two reached machines
  show OutcomesAlike unread also one.next (andThen first next one) (andThen second later two)
  unfold andThen
  cases ran : first one with
  | mk firstResult firstAfter =>
    cases ranToo : second two with
    | mk secondResult secondAfter =>
      rw [ran, ranToo] at result middle
      rw [ran] at le
      cases result with
      | error error => exact ⟨le, middle, .error error⟩
      | ok alike =>
        have outcome := others _ _ _ (Nat.le_trans reached le) alike firstAfter secondAfter
          (Nat.le_refl _) middle
        exact ⟨Nat.le_trans le outcome.next, outcome.machine, outcome.result⟩

theorem alike_identity : Alike unread bound (.identity map) identity identity := by
  intro one two _ machines
  have next : two.next + 1 = map.relabel (one.next + 1) := by
    rw [machines.next, map.relabel_succ machines.reached]
  have le := Nat.le_succ one.next
  exact ⟨le, ⟨Nat.le_succ_of_le machines.reached, next, machines.frames, machines.collectors.mono le,
    unread.root_mono le machines.root, machines.host⟩,
    .ok ⟨⟨machines.reached, Nat.lt_succ_self _⟩, machines.next⟩⟩

theorem alike_log (line : String) : Alike unread bound (.equal Unit) (log line) (log line) :=
  fun _ _ _ machines => ⟨Nat.le_refl _, ⟨machines.reached, machines.next, machines.frames,
    machines.collectors, machines.root, unread.host_log line machines.host⟩, .ok rfl⟩

theorem alike_dispatch (action : String) :
    Alike unread bound (.equal Unit) (dispatch action) (dispatch action) :=
  fun _ _ _ machines => ⟨Nat.le_refl _, ⟨machines.reached, machines.next, machines.frames,
    machines.collectors, machines.root, unread.host_dispatch action machines.host⟩, .ok rfl⟩

theorem alike_setRoot {node : Node} (below : node.Below bound) :
    Alike unread bound (.equal Unit) (setRoot node) (setRoot (node.rename map.relabel)) :=
  fun _ _ reached machines => ⟨Nat.le_refl _, ⟨machines.reached, machines.next, machines.frames,
    machines.collectors, unread.root_set (below.mono reached), machines.host⟩, .ok rfl⟩

theorem alike_attempt {first second : Run α} (runs : Alike unread bound like first second) :
    Alike unread bound like.attempt (attempt first) (attempt second) := by
  intro one two reached machines
  obtain ⟨le, after, result⟩ := runs one two reached machines
  exact ⟨le, after, .ok result⟩

theorem alike_withFrame (frame : Frame) {first second : Run α}
    (runs : Alike unread bound like first second) :
    Alike unread bound like (withFrame frame first) (withFrame frame second) := by
  intro one two reached machines
  obtain ⟨le, after, result⟩ := runs { one with frames := frame :: one.frames }
    { two with frames := frame :: two.frames } reached
    ⟨machines.reached, machines.next, congrArg (List.cons frame) machines.frames, machines.collectors,
      machines.root, machines.host⟩
  exact ⟨le, ⟨after.reached, after.next, congrArg List.tail after.frames, after.collectors, after.root,
    after.host⟩, result⟩

section Collecting

variable {collector : Nat}

private theorem collected_alike (own : map.start ≤ collector) :
    ∀ {first second : List (Nat × List Child)}, CollectorsAlike unread bound first second →
      (Likeness.children map).holds bound (collected collector first)
        (collected (map.relabel collector) second)
  | [], [], _ => ⟨trivial, rfl⟩
  | (identity, children) :: outer, (renamed, others) :: rest, ⟨same, content, behind⟩ => by
    unfold collected
    rw [same]
    by_cases found : identity = collector
    · rw [if_pos found, if_pos (congrArg map.relabel found)]
      exact unread.content_own (found ▸ own) content
    · rw [if_neg found, if_neg (fun equal => found (map.injective equal))]
      exact collected_alike own behind

private theorem filter_alike :
    ∀ {first second : List (Nat × List Child)}, CollectorsAlike unread bound first second →
      CollectorsAlike unread bound (first.filter (fun entry => entry.1 != collector))
        (second.filter (fun entry => entry.1 != map.relabel collector))
  | [], [], _ => trivial
  | (identity, children) :: outer, (renamed, others) :: rest, ⟨same, content, behind⟩ => by
    have kept : (map.relabel identity != map.relabel collector) = (identity != collector) :=
      congrArg not (Value.beq_of_injective map.injective identity collector)
    rw [List.filter_cons, List.filter_cons, same, kept]
    split
    · exact ⟨rfl, content, filter_alike behind⟩
    · exact filter_alike behind

private theorem any_alike :
    ∀ {first second : List (Nat × List Child)}, CollectorsAlike unread bound first second →
      second.any (fun entry => entry.1 == map.relabel collector) =
        first.any (fun entry => entry.1 == collector)
  | [], [], _ => rfl
  | (identity, children) :: outer, (renamed, others) :: rest, ⟨same, content, behind⟩ => by
    rw [List.any_cons, List.any_cons, same, Value.beq_of_injective map.injective,
      any_alike behind]

private theorem append_alike {children : List Child} (below : Child.ListBelow bound children) :
    ∀ {first second : List (Nat × List Child)}, CollectorsAlike unread bound first second →
      CollectorsAlike unread bound
        (first.map (fun entry =>
          if entry.1 = collector then (entry.1, entry.2 ++ children) else entry))
        (second.map (fun entry => if entry.1 = map.relabel collector
          then (entry.1, entry.2 ++ Child.renameList map.relabel children) else entry))
  | [], [], _ => trivial
  | (identity, before) :: outer, (renamed, others) :: rest, ⟨same, content, behind⟩ => by
    rw [List.map_cons, List.map_cons, same]
    by_cases found : identity = collector
    · rw [if_pos found, if_pos (congrArg map.relabel found)]
      exact ⟨rfl, unread.content_append content below, append_alike below behind⟩
    · rw [if_neg found, if_neg (fun equal => found (map.injective equal))]
      exact ⟨rfl, content, append_alike below behind⟩

theorem alike_collect {children : List Child} (below : Child.ListBelow bound children) :
    Alike unread bound (.equal Bool) (collect collector children)
      (collect (map.relabel collector) (Child.renameList map.relabel children)) := by
  intro one two reached machines
  have here := below.mono reached
  unfold collect
  rw [any_alike machines.collectors]
  split
  · exact ⟨Nat.le_refl _, ⟨machines.reached, machines.next, machines.frames,
      append_alike here machines.collectors, machines.root, machines.host⟩, .ok rfl⟩
  · exact ⟨Nat.le_refl _, machines, .ok rfl⟩

theorem alike_withCollector (own : map.start ≤ collector) {first second : Run α}
    (runs : Alike unread bound like first second) :
    Alike unread bound (like.both (.children map)) (withCollector collector first)
      (withCollector (map.relabel collector) second) := by
  intro one two reached machines
  obtain ⟨le, after, result⟩ := runs { one with collectors := (collector, []) :: one.collectors }
    { two with collectors := (map.relabel collector, []) :: two.collectors } reached
    ⟨machines.reached, machines.next, machines.frames,
      ⟨rfl, unread.content_new own, machines.collectors⟩, machines.root, machines.host⟩
  have children := collected_alike own after.collectors
  exact ⟨le, ⟨after.reached, after.next, after.frames, filter_alike after.collectors, after.root,
    after.host⟩, result.mapped (fun alike => ⟨alike, children⟩)⟩

end Collecting

end Run

end ScreenStudio.Evaluation
