/- digest: Dispatched actions run once each and in order, on what was live while they were recorded. -/

import ScreenStudio.Proofs.History.Zipper
import ScreenStudio.Proofs.Surface.Renamed
import ScreenStudio.Proofs.Workspace.Opening

/-!
The actions that a rendering or an event has recorded run when it is over. Each runs on the state that
the one before it left; those that change the state are recorded one behind the other, and undo takes
them back one by one. Where none of them changes the state, nothing is recorded, and what redo leads to
stays. What a screen shows was made before any of them ran.
-/

set_option autoImplicit false
set_option relaxedAutoImplicit false

namespace ScreenStudio

/-- What actions do that run one after the other, each on the state that the one before it left. -/
def Action.executeEach : List String → Json → List ActionOutcome
  | [], _ => []
  | action :: rest, state =>
    execute action state :: executeEach rest (execute action state).state

/-- The state that actions leave that run one after the other. -/
def Action.executeAll (actions : List String) (state : Json) : Json :=
  actions.foldl (fun state action => (execute action state).state) state

/-- The states that were new, in order. -/
def ActionOutcome.changes (outcomes : List ActionOutcome) : List Json :=
  (outcomes.filter ActionOutcome.changed).map ActionOutcome.state

theorem ActionOutcome.changes_cons (outcome : ActionOutcome) (rest : List ActionOutcome) :
    changes (outcome :: rest) =
      (if outcome.changed then [outcome.state] else []) ++ changes rest := by
  unfold changes
  rw [List.filter_cons]
  split <;> rfl

namespace History

/-- Record snapshots one behind the other. -/
def pushAll (history : History) (snapshots : List Snapshot) : History :=
  snapshots.foldl push history

theorem pushAll_of_last {history : History} (last : history.entries.length = history.cursor + 1)
    (snapshots : List Snapshot) :
    history.pushAll snapshots =
      ⟨history.entries ++ snapshots, history.cursor + snapshots.length⟩ := by
  induction snapshots generalizing history with
  | nil =>
    rw [List.append_nil]
    rfl
  | cons snapshot rest ih =>
    have whole : history.entries.take (history.cursor + 1) = history.entries := by
      rw [← last, List.take_length]
    show (history.push snapshot).pushAll rest = _
    rw [ih (length_push history snapshot)]
    unfold push
    dsimp only
    rw [whole, last, List.append_assoc, List.singleton_append, List.length_cons, Nat.add_assoc,
      Nat.add_comm 1]

variable {history : History}

theorem pushAll_of_ne_nil (inRange : history.InRange) {snapshots : List Snapshot}
    (filled : snapshots ≠ []) :
    history.pushAll snapshots =
      ⟨history.entries.take (history.cursor + 1) ++ snapshots,
        history.cursor + snapshots.length⟩ := by
  cases snapshots with
  | nil => exact absurd rfl filled
  | cons snapshot rest =>
    show (history.push snapshot).pushAll rest = _
    rw [pushAll_of_last (length_push history snapshot), cursor_push inRange]
    unfold push
    dsimp only
    rw [List.append_assoc, List.singleton_append, List.length_cons, Nat.add_assoc, Nat.add_comm 1]

theorem back_pushAll (inRange : history.InRange) (snapshots : List Snapshot) :
    (back^[snapshots.length] (history.pushAll snapshots)).cursor = history.cursor ∧
      (back^[snapshots.length] (history.pushAll snapshots)).current? = history.current? := by
  cases snapshots with
  | nil => exact ⟨rfl, rfl⟩
  | cons snapshot rest =>
    rw [back_iterate, pushAll_of_ne_nil inRange (List.cons_ne_nil snapshot rest)]
    dsimp only
    rw [Nat.add_sub_cancel]
    exact ⟨rfl, current?_recorded inRange (snapshot :: rest)⟩

end History

namespace Workspace

variable {σ : Type}

/-- What is live with another state. -/
def withState (workspace : Workspace σ) (state : Json) : Snapshot :=
  ⟨workspace.project, state, workspace.active⟩

/-- One workspace is what actions with these outcomes make of another. -/
structure Applied [Storage σ] (before after : Workspace σ) (actions : List String)
    (outcomes : List ActionOutcome) : Prop where
  executed : outcomes = Action.executeEach actions before.state
  live : after.live = before.withState (Action.executeAll actions before.state)
  unrecorded : ActionOutcome.changes outcomes = [] → after.history = before.history
  recorded : ActionOutcome.changes outcomes ≠ [] →
    after.history =
      ⟨before.history.entries.take (before.history.cursor + 1) ++
          (ActionOutcome.changes outcomes).map before.withState,
        before.history.cursor + (ActionOutcome.changes outcomes).length⟩
  undone :
    let undone := (fun workspace => workspace.undo.2)^[(ActionOutcome.changes outcomes).length] after
    undone.project = before.project ∧ undone.state = before.state ∧
      undone.history.cursor = before.history.cursor

variable [Storage σ]

private theorem act_applied (workspace : Workspace σ) (action : String) :
    (workspace.act action).2.live =
        workspace.withState (Action.execute action workspace.state).state ∧
      (workspace.act action).2.history = workspace.history.pushAll
        ((if (Action.execute action workspace.state).changed then
          [(Action.execute action workspace.state).state] else []).map workspace.withState) := by
  have outcome := act_outcome workspace action
  cases changed : (Action.execute action workspace.state).changed with
  | true =>
    have recorded : (workspace.act action).1.changed = true := by
      rw [outcome]
      exact changed
    have persists := act_persists recorded
    rw [outcome] at persists
    exact ⟨persists.live_eq, persists.history_eq⟩
  | false =>
    have unchanged : (workspace.act action).1.changed = false := by
      rw [outcome]
      exact changed
    obtain ⟨status, equal⟩ := act_unchanged unchanged
    rw [equal, Action.execute_unchanged changed]
    exact ⟨rfl, rfl⟩

theorem actAll_applied (workspace : Workspace σ) (actions : List String) :
    (workspace.actAll actions).1 = Action.executeEach actions workspace.state ∧
      (workspace.actAll actions).2.live =
        workspace.withState (Action.executeAll actions workspace.state) ∧
      (workspace.actAll actions).2.history = workspace.history.pushAll
        ((ActionOutcome.changes (Action.executeEach actions workspace.state)).map
          workspace.withState) := by
  induction actions generalizing workspace with
  | nil => exact ⟨rfl, rfl, rfl⟩
  | cons action rest ih =>
    obtain ⟨live, history⟩ := act_applied workspace action
    obtain ⟨outcomes, lastLive, lastHistory⟩ := ih (workspace.act action).2
    have state : (workspace.act action).2.state = (Action.execute action workspace.state).state :=
      congrArg Snapshot.state live
    -- an action changes neither project nor active screen, so all entries have those of the start
    have same (other : Json) :
        (workspace.act action).2.withState other = workspace.withState other := by
      have project : (workspace.act action).2.project = workspace.project :=
        congrArg Snapshot.project live
      have active : (workspace.act action).2.active = workspace.active :=
        congrArg Snapshot.active live
      unfold withState
      rw [project, active]
    rw [state] at outcomes lastLive lastHistory
    rw [actAll_cons, act_outcome]
    refine ⟨congrArg _ outcomes, lastLive.trans (same _), ?_⟩
    dsimp only
    rw [lastHistory, history, funext same, Action.executeEach, ActionOutcome.changes_cons,
      List.map_append]
    exact List.foldl_append.symm

theorem undo_history (workspace : Workspace σ) :
    workspace.undo.2.history = workspace.history.back := by
  unfold History.back
  cases step : workspace.history.undo? with
  | none =>
    rw [undo_of_none step]
    rfl
  | some history =>
    rw [undo_of_step step]
    exact (moveTo_persists workspace history _).2.history_eq.trans (movedTo_history workspace history)

/-- Any number of times undo takes the history back as many entries, and the entry it leads to is
live. -/
theorem undo_iterate {holds : Snapshot → Prop} (kept : Kept σ holds) {workspace : Workspace σ}
    (keeps : Keeps holds workspace) (count : Nat) :
    Keeps holds ((fun workspace => workspace.undo.2)^[count] workspace) ∧
      ((fun workspace => workspace.undo.2)^[count] workspace).history =
        History.back^[count] workspace.history := by
  induction count with
  | zero => exact ⟨keeps, rfl⟩
  | succ count ih =>
    rw [Function.iterate_succ_apply', Function.iterate_succ_apply']
    refine ⟨(path_apply _ .undo trivial).keeps kept ih.1, ?_⟩
    rw [undo_history, ih.2]

theorem applied_actAll {workspace : Workspace σ} (keeps : Keeps (fun _ => True) workspace)
    (actions : List String) :
    Applied workspace (workspace.actAll actions).2 actions (workspace.actAll actions).1 := by
  obtain ⟨outcomes, live, history⟩ := actAll_applied workspace actions
  rw [← outcomes] at history
  refine ⟨outcomes, live, ?_, ?_, ?_⟩
  · intro nothing
    rw [history, nothing]
    rfl
  · intro something
    rw [history, History.pushAll_of_ne_nil keeps.inRange (by simpa using something),
      List.length_map]
  · intro undone
    have later := (path_actAll workspace actions).keeps kept_true keeps
    obtain ⟨keepsUndone, undoneHistory⟩ :=
      undo_iterate kept_true later (ActionOutcome.changes (workspace.actAll actions).1).length
    obtain ⟨cursor, current⟩ := History.back_pushAll keeps.inRange
      ((ActionOutcome.changes (workspace.actAll actions).1).map workspace.withState)
    rw [List.length_map, ← history, ← undoneHistory] at cursor current
    -- the cursor is back at the entry that was live, and the entry at the cursor is always live
    obtain ⟨entry, found, project, state⟩ := keeps.current
    obtain ⟨other, foundUndone, projectUndone, stateUndone⟩ := keepsUndone.current
    rw [current, found] at foundUndone
    cases foundUndone
    exact ⟨projectUndone.trans project.symm, stateUndone.trans state.symm, cursor⟩

theorem applied_render {workspace : Workspace σ} (keeps : Keeps (fun _ => True) workspace)
    (preview : Preview) (surface : Surface) :
    Applied workspace (workspace.render preview surface).2.2
      (preview.refresh workspace.activeSource workspace.state surface .empty).host.actions
      (workspace.render preview surface).1.actions := by
  unfold render
  dsimp only
  generalize preview.refresh workspace.activeSource workspace.state surface .empty = rendering
  -- the status is no part of what the actions start from
  obtain ⟨status, equal⟩ := reportRendering_eq workspace preview.mode rendering.result
  rw [equal]
  have reported : Keeps (fun _ => True) { workspace with status := status } :=
    ⟨keeps.current, keeps.live, keeps.entries⟩
  have applied := applied_actAll reported rendering.host.actions
  exact ⟨applied.executed, applied.live, applied.unrecorded, applied.recorded, applied.undone⟩

theorem applied_interact {workspace : Workspace σ} (keeps : Keeps (fun _ => True) workspace)
    {surface : Surface} {index : Nat} {event : String} {host : Recording}
    (handled : surface.trigger index event .empty = (.ok (), host)) :
    ∃ report, (workspace.interact surface index event).1 = .ok report ∧
      Applied workspace (workspace.interact surface index event).2 host.actions report.actions := by
  unfold interact
  rw [handled]
  exact ⟨_, rfl, applied_actAll keeps host.actions⟩

theorem content_render {preview : Preview} (builtin : preview.mode = .builtin)
    (workspace : Workspace σ) (surface : Surface) :
    (workspace.render preview surface).2.1.content =
      [Preview.shownOf (Evaluation.screen workspace.activeSource preview.vocabulary workspace.state
        .empty).1] := by
  unfold render
  dsimp only
  unfold Preview.refresh Preview.renderBuiltin
  rw [builtin]
  dsimp only
  cases Evaluation.screen workspace.activeSource preview.vocabulary workspace.state .empty with
  | mk outcome host => cases outcome <;> rfl

theorem Applied.undo_of_one {before after : Workspace σ} {actions : List String}
    {outcomes : List ActionOutcome} (applied : Applied before after actions outcomes)
    (one : (ActionOutcome.changes outcomes).length = 1) :
    after.history.cursor = before.history.cursor + 1 ∧ after.undo.2.state = before.state := by
  have filled : ActionOutcome.changes outcomes ≠ [] := List.ne_nil_of_length_eq_add_one one
  have undone := applied.undone
  rw [one] at undone
  rw [applied.recorded filled, one]
  exact ⟨rfl, undone.2.1⟩

/-- In every workspace of a run, the actions that a rendering has recorded, or an event that was
handled, are applied once each and in order, whatever the rendering has answered. Those that change the
state become the entries behind the current one, and as many times undo leads back; where none does,
the history stays. What the builtin mode shows is made of the source of the active screen, the builders
and the state before all of this, and its markup is the same wherever identities are counted from. -/
theorem dispatched_actions_apply_in_order {storage : σ} {workspace : Workspace σ} {log : List Write}
    (run : Run storage workspace log) (preview : Preview) (surface : Surface) :
    Applied workspace (workspace.render preview surface).2.2
        (preview.refresh workspace.activeSource workspace.state surface .empty).host.actions
        (workspace.render preview surface).1.actions ∧
      (∀ index event host, surface.trigger index event .empty = (.ok (), host) →
        ∃ report, (workspace.interact surface index event).1 = .ok report ∧
          Applied workspace (workspace.interact surface index event).2 host.actions
            report.actions) ∧
      (preview.mode = .builtin →
        (workspace.render preview surface).2.1.content =
            [Preview.shownOf (Evaluation.screen workspace.activeSource preview.vocabulary
              workspace.state .empty).1] ∧
          ∀ next, (workspace.render preview surface).2.1.html =
            String.ofList (Surface.htmlChars (Preview.shownOf (Evaluation.screenFrom next
              workspace.activeSource preview.vocabulary workspace.state .empty).1))) := by
  have keeps := run.keeps_current
  refine ⟨applied_render keeps preview surface, ?_, ?_⟩
  · exact fun index event host handled => applied_interact keeps handled
  · intro builtin
    have content := content_render builtin workspace surface
    refine ⟨content, fun next => ?_⟩
    unfold Surface.html
    rw [content, Preview.htmlChars_shownOf next, Surface.childrenChars, Surface.childrenChars,
      List.append_nil]

/-- A screen that dispatches while it is rendered is shown as it was before, and one undo takes the
action back; so does one undo after a click on what is on the surface. -/
theorem dispatch_while_rendering_is_undone :
    let source := "execute(\"y = 'b'\")\nrender(() => Text(state.y || 'none'))"
    let workspace := ((openOn MemoryStorage.empty 0).saveScreen Screen.initialId source none).2
    let preview : Preview := ⟨.builtin, .standard, none, 0⟩
    let surface : Surface :=
      ⟨"preview", [.element ⟨"button", [], [], [("click", .action "y = 'c'")], []⟩]⟩
    (workspace.render preview surface).2.1.textContent = "none" ∧
      (workspace.render preview surface).2.2.undo.2.state = workspace.state ∧
      (workspace.interact surface 0 "click").2.history.cursor = workspace.history.cursor + 1 ∧
      (workspace.interact surface 0 "click").2.undo.2.state = workspace.state := by
  intro source workspace preview surface
  have run : Run MemoryStorage.empty workspace _ :=
    .operated (.opened 0) (.saveScreen Screen.initialId source none) trivial
  obtain ⟨applied, handled, shown⟩ := dispatched_actions_apply_in_order run preview surface
  obtain ⟨report, _, clicked⟩ := handled 0 "click" (Recording.empty.dispatch "y = 'c'") rfl
  have one : (ActionOutcome.changes (workspace.render preview surface).1.actions).length = 1 := by
    decide +kernel
  have oneClick : (ActionOutcome.changes report.actions).length = 1 := by
    rw [clicked.executed]
    decide +kernel
  have text : (workspace.render preview surface).2.1.textContent = "none" := by
    rw [Surface.textContent, (shown rfl).1]
    decide +kernel
  exact ⟨text, (applied.undo_of_one one).2, clicked.undo_of_one oneClick⟩

/-- Rendering without any change of the state keeps what redo leads to, so the history does not end at
its cursor. -/
theorem render_without_change_keeps_redo :
    let source := "render(() => Text('a'))"
    let saved := ((openOn MemoryStorage.empty 0).saveScreen Screen.initialId source none).2
    let workspace := (saved.setState (.object [])).undo.2
    let preview : Preview := ⟨.builtin, .standard, none, 0⟩
    let surface := Surface.blank "preview"
    (∃ log, Run MemoryStorage.empty workspace log) ∧
      (workspace.render preview surface).1.result.isOk = true ∧
      (workspace.render preview surface).1.actions.length = 0 ∧
      (workspace.render preview surface).2.2.history.entries ≠
        workspace.history.entries.take (workspace.history.cursor + 1) ++
          (ActionOutcome.changes (workspace.render preview surface).1.actions).map
            workspace.withState := by
  intro source saved workspace preview surface
  have run : Run MemoryStorage.empty workspace _ :=
    .operated (.operated (.operated (.opened 0) (.saveScreen Screen.initialId source none) trivial)
      (.setState (.object [])) ⟨Dictionary.ascending_nil, trivial⟩) .undo trivial
  refine ⟨⟨_, run⟩, by decide +kernel, by decide +kernel, ?_⟩
  have three : (workspace.render preview surface).2.2.history.entries.length = 3 := by
    decide +kernel
  have two : (workspace.history.entries.take (workspace.history.cursor + 1) ++
      (ActionOutcome.changes (workspace.render preview surface).1.actions).map
        workspace.withState).length = 2 := by
    decide +kernel
  intro equal
  rw [equal, two] at three
  cases three

end Workspace

end ScreenStudio
