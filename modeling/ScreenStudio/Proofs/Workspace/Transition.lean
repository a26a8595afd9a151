/- digest: Every operation of a workspace is a chain of transitions of four kinds. -/

import ScreenStudio.Proofs.Action
import ScreenStudio.Proofs.History
import ScreenStudio.Proofs.Workspace.Operation

set_option autoImplicit false
set_option relaxedAutoImplicit false

namespace ScreenStudio

namespace Workspace

variable {σ : Type}

/-- The snapshots that operations make of what is live. -/
inductive Change (workspace : Workspace σ) : Snapshot → Prop
  | same : Change workspace workspace.live
  | added {name id : String} {now : UInt64} (fresh : id ∉ workspace.project.ids) :
      Change workspace
        ⟨workspace.project.add (Screen.new id name now), workspace.state, some id⟩
  | removed {id : String} (member : id ∈ workspace.project.ids) :
      Change workspace ⟨workspace.project.remove id, workspace.state, workspace.activeWithout id⟩
  | saved {id : String} (source : String) (companion : Option String)
      (member : id ∈ workspace.project.ids) :
      Change workspace
        ⟨workspace.projectWith id source companion, workspace.state, workspace.active⟩
  | stated {state : Json} (regular : workspace.state.Regular → state.Regular) :
      Change workspace ⟨workspace.project, state, workspace.active⟩

/-- The workspace with another position of its history, whose entry is live. -/
def movedTo (workspace : Workspace σ) (history : History) : Workspace σ :=
  let moved := { workspace with history := history }
  (history.current?.map moved.restore).getD moved

theorem movedTo_history (workspace : Workspace σ) (history : History) :
    (workspace.movedTo history).history = history := by
  unfold movedTo
  cases history.current? <;> rfl

theorem movedTo_storage (workspace : Workspace σ) (history : History) :
    (workspace.movedTo history).storage = workspace.storage := by
  unfold movedTo
  cases history.current? <;> rfl

theorem movedTo_live {workspace : Workspace σ} {history : History} {entry : Snapshot}
    (current : history.current? = some entry) : (workspace.movedTo history).live = entry := by
  unfold movedTo
  rw [current]
  rfl

variable [Storage σ]

/-- One of the steps that operations are made of, with what it tries to write. -/
inductive Transition (workspace : Workspace σ) : List Write → Workspace σ → Prop
  | reported (status : Status) : Transition workspace [] { workspace with status := status }
  | selected {id : String} (member : id ∈ workspace.project.ids) :
      Transition workspace [] { workspace with active := some id }
  | recorded {snapshot : Snapshot} (change : Change workspace snapshot) :
      Transition workspace (workspace.restore snapshot).record.writes
        (workspace.restore snapshot).record.persist.2
  | moved {history : History}
      (step : workspace.history.undo? = some history ∨ workspace.history.redo? = some history) :
      Transition workspace (workspace.movedTo history).writes
        (workspace.movedTo history).persist.2

/-- A chain of transitions with what they try to write, the last first. -/
inductive Path (start : Workspace σ) : List Write → Workspace σ → Prop
  | stay : Path start [] start
  | step {log new : List Write} {middle last : Workspace σ} (path : Path start log middle)
      (transition : Transition middle new last) : Path start (new ++ log) last

namespace Path

variable {start middle last : Workspace σ} {log new : List Write}

theorem single (transition : Transition start new last) : Path start new last := by
  have path := Path.step .stay transition
  rw [List.append_nil] at path
  exact path

theorem trans (first : Path start log middle) (second : Path middle new last) :
    Path start (new ++ log) last := by
  induction second with
  | stay => exact first
  | step path transition ih =>
    rw [List.append_assoc]
    exact ih.step transition

theorem reported (path : Path start log last) (status : Status) :
    Path start log { last with status := status } :=
  path.step (.reported status)

end Path

theorem persist_eq (workspace : Workspace σ) :
    workspace.persist.2 = { workspace with storage := workspace.persist.2.storage } := by
  unfold persist
  split <;> rfl

theorem writes_congr {one other : Workspace σ} (history : one.history = other.history)
    (storage : one.storage = other.storage) : one.writes = other.writes := by
  unfold writes
  rw [history, storage]

/-- The history of one workspace was stored on the way to the other, and then the status was set. -/
def PersistsTo (workspace after : Workspace σ) : Prop :=
  ∃ status, after = { workspace.persist.2 with status := status }

namespace PersistsTo

variable {workspace after : Workspace σ}

theorem report (persists : PersistsTo workspace after) (kind : StatusKind) (message : String) :
    PersistsTo workspace (after.report kind message) := by
  obtain ⟨status, rfl⟩ := persists
  exact ⟨⟨kind, message⟩, rfl⟩

theorem live_eq (persists : PersistsTo workspace after) : after.live = workspace.live := by
  obtain ⟨status, rfl⟩ := persists
  rw [persist_eq]
  rfl

theorem history_eq (persists : PersistsTo workspace after) : after.history = workspace.history := by
  obtain ⟨status, rfl⟩ := persists
  rw [persist_eq]

theorem writesTo_eq (persists : PersistsTo workspace after) {before : Workspace σ}
    (storage : before.storage = workspace.storage) : before.writesTo after = workspace.writes :=
  writes_congr persists.history_eq storage

end PersistsTo

theorem snapshot_persists (workspace : Workspace σ) :
    PersistsTo workspace.record workspace.snapshot.2 := by
  unfold snapshot
  cases stored : workspace.record.persist with
  | mk result after =>
    cases result with
    | ok _ => exact ⟨_, by rw [stored]; rfl⟩
    | error error => exact ⟨_, by rw [stored]; rfl⟩

theorem commit_persists (workspace : Workspace σ) (message : String) :
    PersistsTo workspace.record (workspace.commit message) := by
  have persists := workspace.snapshot_persists
  unfold commit
  cases taken : workspace.snapshot with
  | mk result after =>
    rw [taken] at persists
    cases result with
    | ok _ => exact persists.report _ _
    | error error => exact persists

theorem path_of_change {workspace after : Workspace σ} {snapshot : Snapshot}
    (change : Change workspace snapshot)
    (persists : PersistsTo (workspace.restore snapshot).record after) :
    Path workspace (workspace.writesTo after) after := by
  have same : workspace.writesTo after = (workspace.restore snapshot).record.writes :=
    persists.writesTo_eq rfl
  rw [same]
  obtain ⟨status, rfl⟩ := persists
  exact (Path.single (.recorded change)).reported status

omit [Storage σ] in
private theorem reportOutcome_eq (workspace : Workspace σ) (outcome : ActionOutcome) :
    ∃ kind message, workspace.reportOutcome outcome = workspace.report kind message := by
  unfold reportOutcome
  split
  · exact ⟨_, _, rfl⟩
  · split <;> exact ⟨_, _, rfl⟩

theorem act_outcome (workspace : Workspace σ) (action : String) :
    (workspace.act action).1 = Action.execute action workspace.state := by
  unfold act
  dsimp only
  split
  · split <;> rfl
  · rfl

theorem act_persists {workspace : Workspace σ} {action : String}
    (changed : (workspace.act action).1.changed = true) :
    PersistsTo { workspace with state := (workspace.act action).1.state }.record
      (workspace.act action).2 := by
  rw [act_outcome] at changed ⊢
  have persists := snapshot_persists
    { workspace with state := (Action.execute action workspace.state).state }
  unfold act
  dsimp only
  rw [if_pos changed]
  cases taken : { workspace with
      state := (Action.execute action workspace.state).state }.snapshot with
  | mk result after =>
    rw [taken] at persists
    cases result with
    | ok _ =>
      obtain ⟨kind, message, equal⟩ :=
        reportOutcome_eq after (Action.execute action workspace.state)
      dsimp only
      rw [equal]
      exact persists.report kind message
    | error error => exact persists

theorem act_unchanged {workspace : Workspace σ} {action : String}
    (unchanged : (workspace.act action).1.changed = false) :
    ∃ status, (workspace.act action).2 = { workspace with status := status } := by
  rw [act_outcome] at unchanged
  obtain ⟨kind, message, equal⟩ :=
    reportOutcome_eq workspace (Action.execute action workspace.state)
  refine ⟨⟨kind, message⟩, ?_⟩
  unfold act
  dsimp only
  rw [if_neg (by rw [unchanged]; exact Bool.false_ne_true)]
  exact equal

theorem moveTo_persists (workspace : Workspace σ) (history : History) (message : String) :
    (workspace.moveTo history message).1 = .moved history.cursor ∧
      PersistsTo (workspace.movedTo history) (workspace.moveTo history message).2 := by
  unfold moveTo
  dsimp only
  cases stored : (workspace.movedTo history).persist with
  | mk result after =>
    have same : ((Option.map { workspace with history := history }.restore history.current?).getD
        { workspace with history := history }).persist = (result, after) := stored
    rw [same]
    cases result with
    | ok _ => exact ⟨rfl, _, by rw [stored]; rfl⟩
    | error error => exact ⟨rfl, _, by rw [stored]; rfl⟩

theorem undo_of_step {workspace : Workspace σ} {history : History}
    (step : workspace.history.undo? = some history) :
    workspace.undo = workspace.moveTo history "Undo successful" := by
  unfold undo
  rw [step]

theorem redo_of_step {workspace : Workspace σ} {history : History}
    (step : workspace.history.redo? = some history) :
    workspace.redo = workspace.moveTo history "Redo successful" := by
  unfold redo
  rw [step]

theorem undo_of_none {workspace : Workspace σ} (none : workspace.history.undo? = none) :
    workspace.undo = (.nothingToUndo, workspace.report .warn "Nothing to undo") := by
  unfold undo
  rw [none]

theorem redo_of_none {workspace : Workspace σ} (none : workspace.history.redo? = none) :
    workspace.redo = (.nothingToRedo, workspace.report .warn "Nothing to redo") := by
  unfold redo
  rw [none]

private theorem path_of_move {workspace after : Workspace σ} {history : History}
    (step : workspace.history.undo? = some history ∨ workspace.history.redo? = some history)
    (persists : PersistsTo (workspace.movedTo history) after) :
    Path workspace (workspace.writesTo after) after := by
  rw [persists.writesTo_eq (movedTo_storage workspace history).symm]
  obtain ⟨status, rfl⟩ := persists
  exact (Path.single (.moved step)).reported status

omit [Storage σ] in
private theorem on_screen {workspace : Workspace σ} {id : String} {done : Screen → Workspace σ}
    (run : Bool × Workspace σ)
    (is : run = match workspace.project.screen? id with
      | none => (false, workspace.reportUnknown id)
      | some screen => (true, done screen)) :
    (run.1 = true → ∃ screen, workspace.project.screen? id = some screen ∧ run.2 = done screen) ∧
      (run.1 = false → run.2 = workspace.reportUnknown id) := by
  cases found : workspace.project.screen? id with
  | none =>
    rw [found] at is
    subst is
    exact ⟨fun yes => (by cases yes), fun _ => rfl⟩
  | some screen =>
    rw [found] at is
    subst is
    exact ⟨fun _ => ⟨screen, rfl, rfl⟩, fun no => (by cases no)⟩

theorem change_of_records {workspace : Workspace σ} {operation : Operation}
    (allowed : operation.Allowed workspace) (records : operation.Records workspace) :
    ∃ snapshot, Change workspace snapshot ∧
      PersistsTo (workspace.restore snapshot).record (operation.apply workspace) := by
  cases operation with
  | newScreen name id now => exact ⟨_, .added allowed, commit_persists _ _⟩
  | deleteScreen id =>
    obtain ⟨screen, found, done⟩ := (on_screen (workspace.deleteScreen id) rfl).1 records
    refine ⟨_, .removed (Project.mem_ids_iff.mpr ⟨screen, found⟩), ?_⟩
    show PersistsTo _ (workspace.deleteScreen id).2
    rw [done]
    exact commit_persists _ _
  | saveScreen id source companion =>
    obtain ⟨screen, found, done⟩ :=
      (on_screen (workspace.saveScreen id source companion) rfl).1 records
    refine ⟨_, .saved source companion (Project.mem_ids_iff.mpr ⟨screen, found⟩), ?_⟩
    show PersistsTo _ (workspace.saveScreen id source companion).2
    rw [done]
    exact commit_persists _ _
  | act action =>
    refine ⟨_, .stated ?_, act_persists records⟩
    intro regular
    rw [act_outcome]
    exact Action.regular_execute regular action
  | setState state => exact ⟨_, .stated (fun _ => allowed.regular), commit_persists _ _⟩
  | snapshot => exact ⟨_, .same, snapshot_persists workspace⟩
  | selectScreen id => cases records
  | undo => cases records
  | redo => cases records
  | render preview surface => cases records
  | interact surface index event => cases records

theorem status_of_fails {workspace : Workspace σ} {operation : Operation}
    (fails : operation.Fails workspace) :
    ∃ status, operation.apply workspace = { workspace with status := status } := by
  cases operation with
  | deleteScreen id => exact ⟨_, (on_screen (workspace.deleteScreen id) rfl).2 fails⟩
  | selectScreen id => exact ⟨_, (on_screen (workspace.select id) rfl).2 fails⟩
  | saveScreen id source companion =>
    exact ⟨_, (on_screen (workspace.saveScreen id source companion) rfl).2 fails⟩
  | act action => exact act_unchanged fails
  | undo =>
    have answer : workspace.undo.1 = .nothingToUndo := fails
    show ∃ status, workspace.undo.2 = _
    cases step : workspace.history.undo? with
    | none =>
      rw [undo_of_none step]
      exact ⟨_, rfl⟩
    | some history =>
      rw [undo_of_step step, (moveTo_persists workspace history _).1] at answer
      cases answer
  | redo =>
    have answer : workspace.redo.1 = .nothingToRedo := fails
    show ∃ status, workspace.redo.2 = _
    cases step : workspace.history.redo? with
    | none =>
      rw [redo_of_none step]
      exact ⟨_, rfl⟩
    | some history =>
      rw [redo_of_step step, (moveTo_persists workspace history _).1] at answer
      cases answer
  | interact surface index event =>
    obtain ⟨error, failed⟩ := fails
    show ∃ status, (workspace.interact surface index event).2 = _
    unfold interact at failed ⊢
    cases triggered : surface.trigger index event .empty with
    | mk result host =>
      rw [triggered] at failed
      cases result with
      | error error => exact ⟨_, rfl⟩
      | ok _ => cases failed
  | newScreen name id now => cases fails
  | setState state => cases fails
  | snapshot => cases fails
  | render preview surface => cases fails

private theorem path_of_answer {workspace : Workspace σ} {operation : Operation}
    (allowed : operation.Allowed workspace) (answer : Bool)
    (records : answer = true → operation.Records workspace)
    (fails : answer = false → operation.Fails workspace) :
    Path workspace (if answer then workspace.writesTo (operation.apply workspace) else [])
      (operation.apply workspace) := by
  cases answer with
  | true =>
    obtain ⟨snapshot, change, persists⟩ := change_of_records allowed (records rfl)
    exact path_of_change change persists
  | false =>
    obtain ⟨status, equal⟩ := status_of_fails (fails rfl)
    rw [equal]
    exact .single (.reported status)

omit [Storage σ] in
theorem reportRendering_eq (workspace : Workspace σ) (mode : RenderMode)
    (result : Except RenderError Unit) :
    ∃ status, workspace.reportRendering mode result = { workspace with status := status } := by
  unfold reportRendering
  split
  · exact ⟨_, rfl⟩
  · exact ⟨_, rfl⟩

theorem actAll_cons (workspace : Workspace σ) (action : String) (rest : List String) :
    workspace.actAll (action :: rest) =
      ((workspace.act action).1 :: ((workspace.act action).2.actAll rest).1,
        ((workspace.act action).2.actAll rest).2) := rfl

theorem path_actAll (workspace : Workspace σ) (actions : List String) :
    Path workspace (workspace.writesOfActions actions) (workspace.actAll actions).2 := by
  induction actions generalizing workspace with
  | nil => exact .stay
  | cons action rest ih =>
    have allowed : (Operation.act action).Allowed workspace := trivial
    have first := path_of_answer allowed (workspace.act action).1.changed id id
    exact first.trans (ih (workspace.act action).2)

theorem path_apply (workspace : Workspace σ) (operation : Operation)
    (allowed : operation.Allowed workspace) :
    Path workspace (operation.writes workspace) (operation.apply workspace) := by
  cases operation with
  | newScreen name id now =>
    exact path_of_answer allowed true (fun _ => trivial) (fun no => nomatch no)
  | deleteScreen screen => exact path_of_answer allowed _ id id
  | saveScreen screen source companion => exact path_of_answer allowed _ id id
  | act action => exact path_actAll workspace [action]
  | setState state =>
    exact path_of_answer allowed true (fun _ => trivial) (fun no => nomatch no)
  | snapshot =>
    exact path_of_answer allowed true (fun _ => trivial) (fun no => nomatch no)
  | selectScreen id =>
    show Path workspace [] (workspace.select id).2
    unfold select
    cases found : workspace.project.screen? id with
    | none => exact .single (.reported _)
    | some screen =>
      exact (Path.single (.selected (Project.mem_ids_iff.mpr ⟨screen, found⟩))).reported _
  | undo =>
    rw [Operation.writes, Operation.apply]
    cases step : workspace.history.undo? with
    | none =>
      rw [undo_of_none step]
      exact .single (.reported _)
    | some history =>
      have moved := workspace.moveTo_persists history "Undo successful"
      rw [undo_of_step step, moved.1]
      exact path_of_move (Or.inl step) moved.2
  | redo =>
    rw [Operation.writes, Operation.apply]
    cases step : workspace.history.redo? with
    | none =>
      rw [redo_of_none step]
      exact .single (.reported _)
    | some history =>
      have moved := workspace.moveTo_persists history "Redo successful"
      rw [redo_of_step step, moved.1]
      exact path_of_move (Or.inr step) moved.2
  | render preview surface =>
    obtain ⟨status, equal⟩ := reportRendering_eq workspace preview.mode
      (preview.refresh workspace.activeSource workspace.state surface .empty).result
    have first : Path workspace [] (workspace.reportRendering preview.mode
        (preview.refresh workspace.activeSource workspace.state surface .empty).result) := by
      rw [equal]
      exact .single (.reported status)
    have path := first.trans (path_actAll _
      (preview.refresh workspace.activeSource workspace.state surface .empty).host.actions)
    rw [List.append_nil] at path
    exact path
  | interact surface index event =>
    rw [Operation.writes, Operation.apply, interact]
    cases surface.trigger index event .empty with
    | mk result host =>
      cases result with
      | error error => exact .single (.reported _)
      | ok _ => exact path_actAll workspace host.actions

end Workspace

end ScreenStudio
