/- digest: A recorded operation is one step of undo and redo, and a failed operation is none. -/

import ScreenStudio.Proofs.Workspace.Opening

/-!
An operation that records puts one entry behind the current one and drops what was there. Undo goes
back to the entry that was current before, which has the project and the state that were live; redo
leads to the new entry. An operation that fails sets the status and changes nothing else.
-/

set_option autoImplicit false
set_option relaxedAutoImplicit false

namespace ScreenStudio.Workspace

variable {σ : Type} [Storage σ]

/-- One workspace is one step of the history behind another: undo and redo lead there and back. The
active screen that undo restores is the recorded one. -/
structure OneStepBehind (before after : Workspace σ) : Prop where
  length : after.history.entries.length = before.history.cursor + 2
  cursor : after.history.cursor = before.history.cursor + 1
  noRedo : after.redo.1 = .nothingToRedo
  undo : after.undo.1 = .moved before.history.cursor
  undone : ∃ entry, before.history.entries[before.history.cursor]? = some entry ∧
    after.undo.2.live = ⟨before.project, before.state, entry.active⟩
  redo : after.undo.2.redo.1 = .moved (before.history.cursor + 1)
  redone : after.undo.2.redo.2.live = after.live

/-- Nothing that is live, recorded or stored differs. -/
structure SameContent (before after : Workspace σ) : Prop where
  project : after.project = before.project
  state : after.state = before.state
  active : after.active = before.active
  history : after.history = before.history
  storage : after.storage = before.storage

private theorem undo_eq {workspace : Workspace σ} {history : History} {entry : Snapshot}
    (step : workspace.history.undo? = some history) (current : history.current? = some entry) :
    workspace.undo.1 = .moved history.cursor ∧ workspace.undo.2.history = history ∧
      workspace.undo.2.live = entry := by
  rw [undo_of_step step]
  obtain ⟨moved, persists⟩ := moveTo_persists workspace history "Undo successful"
  exact ⟨moved, persists.history_eq.trans (movedTo_history workspace history),
    persists.live_eq.trans (movedTo_live current)⟩

private theorem redo_eq {workspace : Workspace σ} {history : History} {entry : Snapshot}
    (step : workspace.history.redo? = some history) (current : history.current? = some entry) :
    workspace.redo.1 = .moved history.cursor ∧ workspace.redo.2.live = entry := by
  rw [redo_of_step step]
  obtain ⟨moved, persists⟩ := moveTo_persists workspace history "Redo successful"
  exact ⟨moved, persists.live_eq.trans (movedTo_live current)⟩

private theorem oneStepBehind_of_record {workspace after : Workspace σ} {snapshot : Snapshot}
    {holds : Snapshot → Prop} (keeps : Keeps holds workspace)
    (persists : PersistsTo (workspace.restore snapshot).record after) :
    OneStepBehind workspace after := by
  have inRange := keeps.inRange
  obtain ⟨entry, current, project, state⟩ := keeps.current
  have history : after.history = workspace.history.push snapshot := persists.history_eq
  have live : after.live = snapshot := persists.live_eq
  have cursor := History.cursor_push inRange snapshot
  have length := History.length_push workspace.history snapshot
  have back : after.history.undo? =
      some { workspace.history.push snapshot with cursor := workspace.history.cursor } := by
    rw [history]
    exact History.undo?_push inRange snapshot
  have backEntry := History.current?_undo_push workspace.history snapshot inRange
  obtain ⟨moved, undone, undoneLive⟩ := undo_eq back (backEntry.trans current)
  have forward : after.undo.2.history.redo? = some (workspace.history.push snapshot) := by
    rw [undone]
    exact History.redo?_undo_push inRange snapshot
  obtain ⟨again, redone⟩ := redo_eq forward (History.current?_push workspace.history snapshot)
  refine ⟨?_, ?_, ?_, moved, ⟨entry, current, ?_⟩, ?_, redone.trans live.symm⟩
  · rw [history, length, cursor]
  · rw [history, cursor]
  · have last : after.history.redo? = none := by
      rw [history]
      exact History.redo?_push workspace.history snapshot
    rw [redo_of_none last]
  · rw [undoneLive, project, state]
  · rw [again, cursor]

/-- Whatever the history of a workspace is, an operation that records is exactly one step of undo and
redo, and one that fails changes nothing but the status. -/
theorem one_operation_one_step {storage : σ} {workspace : Workspace σ} {log : List Write}
    (run : Run storage workspace log) (operation : Operation)
    (allowed : operation.Allowed workspace) :
    (operation.Records workspace → OneStepBehind workspace (operation.apply workspace)) ∧
      (operation.Fails workspace → SameContent workspace (operation.apply workspace)) := by
  constructor
  · intro records
    obtain ⟨snapshot, _, persists⟩ := change_of_records allowed records
    exact oneStepBehind_of_record run.keeps_current persists
  · intro fails
    obtain ⟨status, equal⟩ := status_of_fails fails
    rw [equal]
    exact ⟨rfl, rfl, rfl, rfl, rfl⟩

/-- In a new workspace a new screen is one step of undo and redo, and deleting a screen that is not
there changes nothing. -/
theorem one_new_screen_one_step :
    let workspace := openOn MemoryStorage.empty 0
    OneStepBehind workspace (workspace.newScreen (some "Profile") "s_new" 1) ∧
      SameContent workspace (workspace.deleteScreen "s_none").2 := by
  intro workspace
  have run : Run MemoryStorage.empty workspace _ := .opened 0
  have fresh : "s_new" ∉ [Screen.initialId] := by decide
  exact ⟨(one_operation_one_step run (.newScreen (some "Profile") "s_new" 1) fresh).1 trivial,
    (one_operation_one_step run (.deleteScreen "s_none") trivial).2 rfl⟩

end ScreenStudio.Workspace
