/- digest: Writes that fail have no influence on what a workspace holds and what it answers. -/

import ScreenStudio.Proofs.Workspace.Restart
import Mathlib.Data.List.Infix

/-!
Two runs of the same operations on storages that hold the same text agree in everything that is live
and in the whole history, whichever of their writes fail. Their answers agree as well, apart from those
of `snapshot`, which tell whether its write succeeded. At every moment of a run, also between the
actions that one rendering has dispatched, the stored text is that of the history that was written last
with success, or the one at the start.
-/

set_option autoImplicit false
set_option relaxedAutoImplicit false

namespace ScreenStudio

/-- What an operation answers. -/
inductive Answer
  | created (id : String)
  | known (found : Bool)
  | acted (outcome : ActionOutcome)
  | stated
  | taken (result : Except StorageError Unit)
  | moved (move : HistoryMove)
  | rendered (report : RenderReport) (surface : Surface)
  | interacted (result : Except InteractionError InteractionReport)

/-- Two answers are the same, or both are those of `snapshot`. -/
inductive Answer.Agrees : Answer → Answer → Prop
  | same (answer : Answer) : Agrees answer answer
  | taken (one other : Except StorageError Unit) : Agrees (.taken one) (.taken other)

theorem Answer.Agrees.of_eq {one other : Answer} (equal : one = other) : one.Agrees other :=
  equal ▸ .same one

namespace Operation

variable {σ : Type} [Storage σ]

/-- What an operation answers on a workspace. -/
def answer : Operation → Workspace σ → Answer
  | .newScreen _ id _, _ => .created id
  | .deleteScreen id, workspace => .known (workspace.deleteScreen id).1
  | .selectScreen id, workspace => .known (workspace.select id).1
  | .saveScreen id source companion, workspace =>
    .known (workspace.saveScreen id source companion).1
  | .act action, workspace => .acted (workspace.act action).1
  | .setState _, _ => .stated
  | .snapshot, workspace => .taken workspace.snapshot.1
  | .undo, workspace => .moved workspace.undo.1
  | .redo, workspace => .moved workspace.redo.1
  | .render preview surface, workspace =>
    .rendered (workspace.render preview surface).1 (workspace.render preview surface).2.1
  | .interact surface index event, workspace =>
    .interacted (workspace.interact surface index event).1

/-- The workspaces that an operation leads through, each with what was tried to be written up to it.
Rendering and interacting run the dispatched actions one by one. -/
def stages : Operation → Workspace σ → List (Workspace σ × List Write)
  | .render preview surface, workspace =>
    let rendering := preview.refresh workspace.activeSource workspace.state surface .empty
    let reported := workspace.reportRendering preview.mode rendering.result
    rendering.host.actions.inits.map
      (fun done => ((reported.actAll done).2, reported.writesOfActions done))
  | .interact surface index event, workspace =>
    match surface.trigger index event .empty with
    | (.error _, _) => [((workspace.interact surface index event).2, [])]
    | (.ok _, host) =>
      host.actions.inits.map
        (fun done => ((workspace.actAll done).2, workspace.writesOfActions done))
  | operation, workspace => [(operation.apply workspace, operation.writes workspace)]

end Operation

namespace Workspace

/-- Everything that is live and the history are the same. -/
structure SameMemory {σ τ : Type} (one : Workspace σ) (other : Workspace τ) : Prop where
  live : one.live = other.live
  history : one.history = other.history

section Memory

variable {σ τ : Type} {one : Workspace σ} {other : Workspace τ}

private theorem SameMemory.eq (same : SameMemory one other) :
    ∃ storage status, other =
      ⟨storage, one.project, one.state, one.active, one.history, status⟩ := by
  obtain ⟨storage, project, state, active, history, status⟩ := other
  obtain ⟨live, rfl⟩ := same
  obtain ⟨rfl, rfl, rfl⟩ : one.project = project ∧ one.state = state ∧ one.active = active :=
    ⟨congrArg Snapshot.project live, congrArg Snapshot.state live, congrArg Snapshot.active live⟩
  exact ⟨storage, status, rfl⟩

private theorem SameMemory.record (same : SameMemory one other) :
    SameMemory one.record other.record := by
  refine ⟨same.live, ?_⟩
  show one.history.push one.live = other.history.push other.live
  rw [same.live, same.history]

private theorem SameMemory.movedTo (same : SameMemory one other) (history : History) :
    SameMemory (one.movedTo history) (other.movedTo history) := by
  refine ⟨?_, by rw [movedTo_history, movedTo_history]⟩
  unfold Workspace.movedTo
  cases history.current? with
  | none => exact same.live
  | some entry => rfl

variable [Storage σ] [Storage τ]

private theorem SameMemory.persists {afterOne : Workspace σ} {afterOther : Workspace τ}
    (same : SameMemory one other) (first : PersistsTo one afterOne)
    (second : PersistsTo other afterOther) : SameMemory afterOne afterOther :=
  ⟨first.live_eq.trans (same.live.trans second.live_eq.symm),
    first.history_eq.trans (same.history.trans second.history_eq.symm)⟩

private theorem SameMemory.commit (same : SameMemory one other) (message : String) :
    SameMemory (one.commit message) (other.commit message) :=
  same.record.persists (commit_persists one message) (commit_persists other message)

private theorem SameMemory.snapshot (same : SameMemory one other) :
    SameMemory one.snapshot.2 other.snapshot.2 :=
  same.record.persists (snapshot_persists one) (snapshot_persists other)

private theorem SameMemory.moveTo (same : SameMemory one other) (history : History)
    (message : String) :
    (one.moveTo history message).1 = (other.moveTo history message).1 ∧
      SameMemory (one.moveTo history message).2 (other.moveTo history message).2 := by
  obtain ⟨first, firstTo⟩ := moveTo_persists one history message
  obtain ⟨second, secondTo⟩ := moveTo_persists other history message
  exact ⟨first.trans second.symm, (same.movedTo history).persists firstTo secondTo⟩

private theorem SameMemory.undo (same : SameMemory one other) :
    one.undo.1 = other.undo.1 ∧ SameMemory one.undo.2 other.undo.2 := by
  cases step : one.history.undo? with
  | none =>
    rw [undo_of_none step, undo_of_none (same.history ▸ step)]
    exact ⟨rfl, same.live, same.history⟩
  | some history =>
    rw [undo_of_step step, undo_of_step (same.history ▸ step)]
    exact same.moveTo history _

private theorem SameMemory.redo (same : SameMemory one other) :
    one.redo.1 = other.redo.1 ∧ SameMemory one.redo.2 other.redo.2 := by
  cases step : one.history.redo? with
  | none =>
    rw [redo_of_none step, redo_of_none (same.history ▸ step)]
    exact ⟨rfl, same.live, same.history⟩
  | some history =>
    rw [redo_of_step step, redo_of_step (same.history ▸ step)]
    exact same.moveTo history _

private theorem SameMemory.act (same : SameMemory one other) (action : String) :
    (one.act action).1 = (other.act action).1 ∧
      SameMemory (one.act action).2 (other.act action).2 := by
  obtain ⟨storage, status, rfl⟩ := same.eq
  have outcome := (act_outcome one action).trans
    (act_outcome ⟨storage, one.project, one.state, one.active, one.history, status⟩ action).symm
  refine ⟨outcome, ?_⟩
  cases changed : (one.act action).1.changed with
  | true =>
    have first := act_persists changed
    have second := act_persists (outcome ▸ changed)
    refine SameMemory.persists (SameMemory.record ?_) first second
    rw [outcome]
    exact ⟨rfl, rfl⟩
  | false =>
    obtain ⟨_, first⟩ := act_unchanged changed
    obtain ⟨_, second⟩ := act_unchanged (outcome ▸ changed)
    rw [first, second]
    exact ⟨rfl, rfl⟩

private theorem SameMemory.actAll (same : SameMemory one other) (actions : List String) :
    (one.actAll actions).1 = (other.actAll actions).1 ∧
      SameMemory (one.actAll actions).2 (other.actAll actions).2 := by
  induction actions generalizing one other with
  | nil => exact ⟨rfl, same⟩
  | cons action rest ih =>
    obtain ⟨outcome, next⟩ := same.act action
    obtain ⟨outcomes, last⟩ := ih next
    rw [actAll_cons, actAll_cons, outcome, outcomes]
    exact ⟨rfl, last⟩

omit [Storage σ] [Storage τ] in
private theorem SameMemory.reportRendering (same : SameMemory one other) (mode : RenderMode)
    (result : Except RenderError Unit) :
    SameMemory (one.reportRendering mode result) (other.reportRendering mode result) := by
  cases result with
  | ok _ => exact ⟨same.live, same.history⟩
  | error error => exact ⟨same.live, same.history⟩

omit [Storage σ] [Storage τ] in
private theorem SameMemory.select (same : SameMemory one other) (id : String) :
    (one.select id).1 = (other.select id).1 ∧ SameMemory (one.select id).2 (other.select id).2 := by
  obtain ⟨storage, status, rfl⟩ := same.eq
  unfold Workspace.select
  dsimp only
  cases one.project.screen? id with
  | none => exact ⟨rfl, rfl, rfl⟩
  | some screen => exact ⟨rfl, rfl, rfl⟩

private theorem SameMemory.deleteScreen (same : SameMemory one other) (id : String) :
    (one.deleteScreen id).1 = (other.deleteScreen id).1 ∧
      SameMemory (one.deleteScreen id).2 (other.deleteScreen id).2 := by
  obtain ⟨storage, status, rfl⟩ := same.eq
  unfold Workspace.deleteScreen
  dsimp only
  cases one.project.screen? id with
  | none => exact ⟨rfl, rfl, rfl⟩
  | some screen =>
    refine ⟨rfl, SameMemory.commit ?_ _⟩
    exact ⟨rfl, rfl⟩

private theorem SameMemory.saveScreen (same : SameMemory one other) (id source : String)
    (companion : Option String) :
    (one.saveScreen id source companion).1 = (other.saveScreen id source companion).1 ∧
      SameMemory (one.saveScreen id source companion).2
        (other.saveScreen id source companion).2 := by
  obtain ⟨storage, status, rfl⟩ := same.eq
  unfold Workspace.saveScreen
  dsimp only
  cases one.project.screen? id with
  | none => exact ⟨rfl, rfl, rfl⟩
  | some screen =>
    refine ⟨rfl, SameMemory.commit ?_ _⟩
    exact ⟨rfl, rfl⟩

private theorem SameMemory.newScreen (same : SameMemory one other) (name : Option String)
    (id : String) (now : UInt64) :
    SameMemory (one.newScreen name id now) (other.newScreen name id now) := by
  obtain ⟨storage, status, rfl⟩ := same.eq
  refine SameMemory.commit ?_ _
  exact ⟨rfl, rfl⟩

private theorem SameMemory.setState (same : SameMemory one other) (state : Json) :
    SameMemory (one.setState state) (other.setState state) := by
  obtain ⟨storage, status, rfl⟩ := same.eq
  refine SameMemory.commit ?_ _
  exact ⟨rfl, rfl⟩

private theorem SameMemory.render (same : SameMemory one other) (preview : Preview)
    (surface : Surface) :
    (one.render preview surface).1 = (other.render preview surface).1 ∧
      (one.render preview surface).2.1 = (other.render preview surface).2.1 ∧
      SameMemory (one.render preview surface).2.2 (other.render preview surface).2.2 := by
  obtain ⟨storage, status, rfl⟩ := same.eq
  let rendering := preview.refresh one.activeSource one.state surface .empty
  obtain ⟨outcomes, after⟩ :=
    (same.reportRendering preview.mode rendering.result).actAll rendering.host.actions
  exact ⟨congrArg (RenderReport.mk rendering.result rendering.host.logs) outcomes, rfl, after⟩

private theorem SameMemory.interact (same : SameMemory one other) (surface : Surface) (index : Nat)
    (event : String) :
    (one.interact surface index event).1 = (other.interact surface index event).1 ∧
      SameMemory (one.interact surface index event).2 (other.interact surface index event).2 := by
  unfold Workspace.interact
  cases surface.trigger index event .empty with
  | mk result host =>
    cases result with
    | error error => exact ⟨rfl, same.live, same.history⟩
    | ok _ =>
      obtain ⟨outcomes, after⟩ := same.actAll host.actions
      exact ⟨congrArg (fun actions => Except.ok (InteractionReport.mk host.logs actions)) outcomes,
        after⟩

/-- One operation leads two workspaces with the same memory to the same memory, with the same
answer. -/
theorem SameMemory.apply (same : SameMemory one other) (operation : Operation) :
    SameMemory (operation.apply one) (operation.apply other) ∧
      (operation.answer one).Agrees (operation.answer other) := by
  cases operation with
  | newScreen name id now => exact ⟨same.newScreen name id now, .same _⟩
  | deleteScreen id =>
    obtain ⟨found, after⟩ := same.deleteScreen id
    exact ⟨after, .of_eq (congrArg Answer.known found)⟩
  | selectScreen id =>
    obtain ⟨found, after⟩ := same.select id
    exact ⟨after, .of_eq (congrArg Answer.known found)⟩
  | saveScreen id source companion =>
    obtain ⟨found, after⟩ := same.saveScreen id source companion
    exact ⟨after, .of_eq (congrArg Answer.known found)⟩
  | act action =>
    obtain ⟨outcome, after⟩ := same.act action
    exact ⟨after, .of_eq (congrArg Answer.acted outcome)⟩
  | setState state => exact ⟨same.setState state, .same _⟩
  | snapshot => exact ⟨same.snapshot, .taken _ _⟩
  | undo =>
    obtain ⟨move, after⟩ := same.undo
    exact ⟨after, .of_eq (congrArg Answer.moved move)⟩
  | redo =>
    obtain ⟨move, after⟩ := same.redo
    exact ⟨after, .of_eq (congrArg Answer.moved move)⟩
  | render preview surface =>
    obtain ⟨report, shown, after⟩ := same.render preview surface
    exact ⟨after, .of_eq (congrArg₂ Answer.rendered report shown)⟩
  | interact surface index event =>
    obtain ⟨result, after⟩ := same.interact surface index event
    exact ⟨after, .of_eq (congrArg Answer.interacted result)⟩

theorem sameMemory_openOn {first : σ} {second : τ}
    (same : Storage.load first storageKey = Storage.load second storageKey) (now : UInt64) :
    SameMemory (openOn first now) (openOn second now) := by
  have stored : storedHistory? first = storedHistory? second := by
    unfold storedHistory?
    rw [same]
  by_cases read : ∃ history, storedHistory? first = .ok (some history)
  · obtain ⟨history, found⟩ := read
    obtain ⟨entry, current, _, opened⟩ := openOn_of_stored found now
    obtain ⟨other, currentOther, _, openedOther⟩ := openOn_of_stored (stored ▸ found) now
    rw [current] at currentOther
    cases currentOther
    rw [opened, openedOther]
    exact ⟨rfl, rfl⟩
  · have unread (history : History) : storedHistory? first ≠ .ok (some history) :=
      fun found => read ⟨history, found⟩
    have created : SameMemory (fresh first now).record (fresh second now).record := ⟨rfl, rfl⟩
    exact created.persists (openOn_of_unread unread now)
      (openOn_of_unread (fun history found => unread history (stored.trans found)) now)

end Memory

section Courses

variable {σ : Type} [Storage σ]

/-- What some operations lead to, the last one first, on a storage that is opened at some time: the
workspace, the answers, and what was tried to be written, each the last first. Between operations the
storage may start or cease to fail, as long as it holds the same text. -/
inductive Course (storage : σ) (now : UInt64) :
    List Operation → Workspace σ → List Answer → List Write → Prop
  | opened : Course storage now [] (openOn storage now) [] (writesOfOpening storage now)
  | operated {operations : List Operation} {workspace : Workspace σ} {answers : List Answer}
      {log : List Write} (course : Course storage now operations workspace answers log)
      (operation : Operation) :
      Course storage now (operation :: operations) (operation.apply workspace)
        (operation.answer workspace :: answers) (operation.writes workspace ++ log)
  | switched {operations : List Operation} {workspace : Workspace σ} {answers : List Answer}
      {log : List Write} (course : Course storage now operations workspace answers log)
      (other : σ) (same : Storage.load other storageKey =
        Storage.load workspace.storage storageKey) :
      Course storage now operations { workspace with storage := other } answers log

/-- The workspaces between operations, and those on the way of an operation, with what was tried to be
written up to then. -/
inductive Moment (storage : σ) (now : UInt64) : Workspace σ → List Write → Prop
  | between {operations : List Operation} {workspace : Workspace σ} {answers : List Answer}
      {log : List Write} (course : Course storage now operations workspace answers log) :
      Moment storage now workspace log
  | amid {operations : List Operation} {workspace : Workspace σ} {answers : List Answer}
      {log : List Write} (course : Course storage now operations workspace answers log)
      (operation : Operation) {stage : Workspace σ × List Write}
      (member : stage ∈ operation.stages workspace) :
      Moment storage now stage.1 (stage.2 ++ log)

/-- What a storage holds after some writes is the text of the history that was written last with
success, or what was there before. -/
def HoldsLastWrite (before : Except StorageError (Option String)) (log : List Write)
    (storage : σ) : Prop :=
  match lastStored log with
  | none => Storage.load storage storageKey = before
  | some history => ∃ record, Record.ofHistory? history = some record ∧
      Storage.load storage storageKey = .ok (some record.write)

/-- Every history that was tried to be written has a record. -/
private def AllRecorded (log : List Write) : Prop :=
  ∀ write ∈ log, ∃ record, Record.ofHistory? write.history = some record

private theorem AllRecorded.append {new log : List Write} (first : AllRecorded new)
    (second : AllRecorded log) : AllRecorded (new ++ log) := by
  intro write member
  rcases List.mem_append.mp member with inNew | inOld
  · exact first write inNew
  · exact second write inOld

private theorem allRecorded_writes (workspace : Workspace σ) : AllRecorded workspace.writes := by
  intro write member
  unfold writes at member
  split at member
  · cases member
  · rename_i record recorded
    rw [List.mem_singleton.mp member]
    exact ⟨record, recorded⟩

private theorem Path.allRecorded {workspace after : Workspace σ} {log : List Write}
    (path : Path workspace log after) : AllRecorded log := by
  induction path with
  | stay => exact fun write member => nomatch member
  | step _ transition ih =>
    refine AllRecorded.append ?_ ih
    cases transition with
    | reported status => exact fun write member => nomatch member
    | selected member => exact fun write member => nomatch member
    | recorded change => exact allRecorded_writes _
    | moved step => exact allRecorded_writes _

private theorem allRecorded_opening (storage : σ) (now : UInt64) :
    AllRecorded (writesOfOpening storage now) := by
  unfold writesOfOpening
  split
  · exact fun write member => nomatch member
  · exact allRecorded_writes _

variable [LawfulStorage σ]

private theorem PersistsTo.load {workspace after : Workspace σ}
    (persists : PersistsTo workspace after) {before : Workspace σ}
    (storage : before.storage = workspace.storage) :
    Storage.load after.storage storageKey =
      loadedAfter (before.writesTo after) (Storage.load before.storage storageKey) := by
  rw [persists.writesTo_eq storage, storage]
  obtain ⟨status, rfl⟩ := persists
  exact load_persist workspace

private theorem stage_load (operation : Operation) (workspace : Workspace σ)
    {stage : Workspace σ × List Write} (member : stage ∈ operation.stages workspace) :
    Storage.load stage.1.storage storageKey =
        loadedAfter stage.2 (Storage.load workspace.storage storageKey) ∧
      AllRecorded stage.2 := by
  have onPath {start after : Workspace σ} {log : List Write}
      (storage : start.storage = workspace.storage) (path : Path start log after) :
      Storage.load after.storage storageKey =
          loadedAfter log (Storage.load workspace.storage storageKey) ∧ AllRecorded log :=
    ⟨by rw [← storage]; exact path.load, path.allRecorded⟩
  have whole (allowed : operation.Allowed workspace)
      (only : stage = (operation.apply workspace, operation.writes workspace)) :
      Storage.load stage.1.storage storageKey =
          loadedAfter stage.2 (Storage.load workspace.storage storageKey) ∧ AllRecorded stage.2 := by
    rw [only]
    exact onPath rfl (path_apply workspace operation allowed)
  cases operation with
  | newScreen _ _ _ | setState _ =>
    rw [List.mem_singleton.mp member]
    exact ⟨(commit_persists _ _).load rfl, allRecorded_writes _⟩
  | deleteScreen _ | selectScreen _ | saveScreen _ _ _ | act _ | snapshot | undo | redo =>
    exact whole trivial (List.mem_singleton.mp member)
  | render preview surface =>
    obtain ⟨done, _, rfl⟩ := List.mem_map.mp member
    refine onPath ?_ (path_actAll _ done)
    unfold reportRendering
    split <;> rfl
  | interact surface index event =>
    unfold Operation.stages at member
    dsimp only at member
    split at member
    · rename_i error host failed
      rw [List.mem_singleton.mp member]
      refine ⟨?_, fun write inside => nomatch inside⟩
      unfold interact
      rw [failed]
      rfl
    · obtain ⟨done, _, rfl⟩ := List.mem_map.mp member
      exact onPath rfl (path_actAll workspace done)

omit [LawfulStorage σ] in
private theorem apply_mem_stages (operation : Operation) (workspace : Workspace σ) :
    (operation.apply workspace, operation.writes workspace) ∈ operation.stages workspace := by
  cases operation with
  | render preview surface =>
    exact List.mem_map.mpr ⟨_, (List.mem_inits _ _).mpr (List.prefix_refl _), rfl⟩
  | interact surface index event =>
    simp only [Operation.apply, Operation.writes, Operation.stages, interact]
    cases surface.trigger index event .empty with
    | mk result host =>
      cases result with
      | error error => exact List.mem_singleton_self _
      | ok _ =>
        exact List.mem_map.mpr ⟨_, (List.mem_inits _ _).mpr (List.prefix_refl _), rfl⟩
  | _ => exact List.mem_singleton_self _

private theorem opening_load (storage : σ) (now : UInt64) :
    Storage.load (openOn storage now).storage storageKey =
      loadedAfter (writesOfOpening storage now) (Storage.load storage storageKey) :=
  (Run.opened now : Run storage (openOn storage now) _).load

private theorem Course.load {storage : σ} {now : UInt64} {operations : List Operation}
    {workspace : Workspace σ} {answers : List Answer} {log : List Write}
    (course : Course storage now operations workspace answers log) :
    Storage.load workspace.storage storageKey =
        loadedAfter log (Storage.load storage storageKey) ∧ AllRecorded log := by
  induction course with
  | opened => exact ⟨opening_load storage now, allRecorded_opening storage now⟩
  | @operated _ workspace _ _ _ operation ih =>
    obtain ⟨load, recorded⟩ :=
      stage_load operation workspace (apply_mem_stages operation workspace)
    refine ⟨?_, recorded.append ih.2⟩
    rw [loadedAfter_append, ← ih.1]
    exact load
  | switched _ other same ih => exact ⟨same.trans ih.1, ih.2⟩

theorem Moment.holdsLastWrite {storage : σ} {now : UInt64} {workspace : Workspace σ}
    {log : List Write} (moment : Moment storage now workspace log) :
    HoldsLastWrite (Storage.load storage storageKey) log workspace.storage := by
  have loaded : Storage.load workspace.storage storageKey =
      loadedAfter log (Storage.load storage storageKey) ∧ AllRecorded log := by
    cases moment with
    | between course => exact course.load
    | amid course operation member =>
      obtain ⟨load, recorded⟩ := stage_load operation _ member
      refine ⟨?_, recorded.append course.load.2⟩
      rw [loadedAfter_append, ← course.load.1]
      exact load
  obtain ⟨load, recorded⟩ := loaded
  unfold HoldsLastWrite
  unfold loadedAfter at load
  cases last : lastStored log with
  | none =>
    rw [last] at load
    exact load
  | some history =>
    rw [last] at load
    dsimp only at load
    obtain ⟨write, member, rfl⟩ := mem_of_lastStored last
    obtain ⟨record, known⟩ := recorded write member
    rw [known] at load
    exact ⟨record, known, load⟩

end Courses

section TwoCourses

variable {σ τ : Type} [Storage σ] [Storage τ] {one : σ} {other : τ} {now : UInt64}
  {operations : List Operation} {first : Workspace σ} {second : Workspace τ}
  {answers otherAnswers : List Answer} {log otherLog : List Write}

private theorem Course.before {operation : Operation}
    (course : Course one now (operation :: operations) first answers log) :
    ∃ middle earlier before, Course one now operations middle earlier before ∧
      answers = operation.answer middle :: earlier ∧
      SameMemory first (operation.apply middle) := by
  generalize all : operation :: operations = given at course
  induction course with
  | opened => cases all
  | operated course _ _ =>
    cases all
    exact ⟨_, _, _, course, rfl, rfl, rfl⟩
  | switched _ _ _ ih =>
    obtain ⟨middle, earlier, before, course, equal, same⟩ := ih all
    exact ⟨middle, earlier, before, course, equal, same.live, same.history⟩

private theorem Course.beginning (course : Course one now [] first answers log) :
    answers = [] ∧ SameMemory first (openOn one now) := by
  generalize all : [] = given at course
  induction course with
  | opened => exact ⟨rfl, rfl, rfl⟩
  | operated _ _ _ => cases all
  | switched _ _ _ ih =>
    obtain ⟨equal, same⟩ := ih all
    exact ⟨equal, same.live, same.history⟩

omit [Storage σ] [Storage τ] in
private theorem SameMemory.symm (same : SameMemory first second) : SameMemory second first :=
  ⟨same.live.symm, same.history.symm⟩

omit [Storage σ] [Storage τ] in
private theorem SameMemory.trans {ρ : Type} {third : Workspace ρ} (same : SameMemory first second)
    (next : SameMemory second third) : SameMemory first third :=
  ⟨same.live.trans next.live, same.history.trans next.history⟩

theorem Course.sameMemory
    (same : Storage.load one storageKey = Storage.load other storageKey)
    (course : Course one now operations first answers log)
    (twin : Course other now operations second otherAnswers otherLog) :
    SameMemory first second ∧ List.Forall₂ Answer.Agrees answers otherAnswers := by
  induction operations generalizing first second answers otherAnswers log otherLog with
  | nil =>
    obtain ⟨rfl, opened⟩ := course.beginning
    obtain ⟨rfl, openedTwin⟩ := twin.beginning
    exact ⟨(opened.trans (sameMemory_openOn same now)).trans openedTwin.symm, .nil⟩
  | cons operation operations ih =>
    obtain ⟨middle, earlier, _, before, rfl, after⟩ := course.before
    obtain ⟨middleTwin, earlierTwin, _, beforeTwin, rfl, afterTwin⟩ := twin.before
    obtain ⟨memory, agree⟩ := ih before beforeTwin
    obtain ⟨applied, answer⟩ := memory.apply operation
    exact ⟨(after.trans applied).trans afterTwin.symm, .cons answer agree⟩

/-- Whatever writes fail in two courses of the same operations on the same stored text, also when the
workspaces are opened: after every operation both have the same live project, state and active screen
and the same history, and every operation other than `snapshot` has answered the same. At every moment
of either course the stored text is the one at its start or that of the history it wrote last with
success. -/
theorem failed_writes_change_no_memory [LawfulStorage σ] [LawfulStorage τ]
    (same : Storage.load one storageKey = Storage.load other storageKey) (now : UInt64) :
    (∀ {operations : List Operation} {first : Workspace σ} {second : Workspace τ}
        {answers otherAnswers : List Answer} {log otherLog : List Write},
      Course one now operations first answers log →
        Course other now operations second otherAnswers otherLog →
          SameMemory first second ∧ List.Forall₂ Answer.Agrees answers otherAnswers) ∧
      (∀ {workspace : Workspace σ} {log : List Write}, Moment one now workspace log →
        HoldsLastWrite (Storage.load one storageKey) log workspace.storage) ∧
      (∀ {workspace : Workspace τ} {log : List Write}, Moment other now workspace log →
        HoldsLastWrite (Storage.load other storageKey) log workspace.storage) :=
  ⟨fun course twin => course.sameMemory same twin, Moment.holdsLastWrite,
    Moment.holdsLastWrite⟩

/-- A storage on which nothing can be written and one that ceases to be written before an undo: the
undo leads to the same memory, and the second storage still holds the history from before it. -/
theorem read_only_from_the_start_or_later :
    let blocked : MemoryStorage := ⟨[], true⟩
    let changed := (openOn MemoryStorage.empty 0).setState (.text "later")
    let first := ((openOn blocked 0).setState (.text "later")).undo.2
    let second := { changed with storage := { changed.storage with readOnly := true } }.undo.2
    SameMemory first second ∧ first.history.cursor = 0 ∧ first.history.entries.length = 2 ∧
      Storage.load first.storage storageKey = .ok none ∧
      ∃ record, Record.ofHistory? changed.history = some record ∧
        Storage.load second.storage storageKey = .ok (some record.write) := by
  intro blocked changed first second
  have same : Storage.load blocked storageKey = Storage.load MemoryStorage.empty storageKey := rfl
  obtain ⟨agree, _, holdsSecond⟩ := failed_writes_change_no_memory same 0
  have course : Course blocked 0 [.undo, .setState (.text "later")] first _ _ :=
    .operated (.operated .opened _) _
  have twin : Course MemoryStorage.empty 0 [.undo, .setState (.text "later")] second _ _ :=
    .operated (.switched (.operated .opened _) { changed.storage with readOnly := true } rfl) _
  have kept := holdsSecond (.between twin)
  have atStart : first.history.cursor = 0 ∧ first.history.entries.length = 2 := by decide +kernel
  have unwritten : Storage.load first.storage storageKey = .ok none := by decide +kernel
  exact ⟨(agree course twin).1, atStart.1, atStart.2, unwritten, kept⟩

end TwoCourses

end Workspace

end ScreenStudio
