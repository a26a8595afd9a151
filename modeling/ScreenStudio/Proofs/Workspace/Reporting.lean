/- digest: The status after rendering and interacting tells how the last of their steps went. -/

import ScreenStudio.Proofs.Workspace.Transition

/-!
Rendering sets the status once for its own result, and then each action that was dispatched sets it
again. So the status is an error exactly if the last of these steps has failed: a failed rendering
shows only if nothing was dispatched, and of the actions only the last one shows, whatever the others
did. An action fails if one of its statements does or if what it changed could not be stored.
-/

set_option autoImplicit false
set_option relaxedAutoImplicit false

namespace ScreenStudio.Workspace

variable {σ : Type}

private theorem reportOutcome_kind (workspace : Workspace σ) (outcome : ActionOutcome) :
    (workspace.reportOutcome outcome).status.kind = .error ↔ outcome.errors ≠ [] := by
  unfold reportOutcome
  cases outcome.errors with
  | nil =>
    refine iff_of_false ?_ (fun filled => filled rfl)
    dsimp only
    split <;> exact StatusKind.noConfusion
  | cons error rest => exact iff_of_true rfl (List.cons_ne_nil error rest)

theorem reportRendering_kind (workspace : Workspace σ) (mode : RenderMode)
    (result : Except RenderError Unit) :
    (workspace.reportRendering mode result).status.kind = .error ↔ ∃ error, result = .error error := by
  cases result with
  | ok _ => exact iff_of_false StatusKind.noConfusion (fun ⟨_, failed⟩ => nomatch failed)
  | error error => exact iff_of_true rfl ⟨error, rfl⟩

variable [Storage σ]

private theorem persist_fails_iff (workspace : Workspace σ) :
    (∃ error, workspace.persist.1 = .error error) ↔
      ∃ write ∈ workspace.writes, write.succeeded = false := by
  unfold persist writes
  cases Record.ofHistory? workspace.history with
  | none => exact iff_of_false (fun ⟨_, failed⟩ => nomatch failed) (fun ⟨_, member, _⟩ => nomatch member)
  | some record =>
    dsimp only
    cases (Storage.save workspace.storage storageKey record.write).1 with
    | ok _ =>
      refine iff_of_false (fun ⟨_, failed⟩ => nomatch failed) ?_
      rintro ⟨write, member, failed⟩
      rw [List.mem_singleton.mp member] at failed
      cases failed
    | error error => exact iff_of_true ⟨error, rfl⟩ ⟨_, List.mem_singleton_self _, rfl⟩

private theorem snapshot_of_persist (workspace : Workspace σ) :
    (workspace.record.persist.1 = .ok () ∧ workspace.snapshot.1 = .ok ()) ∨
      ∃ error, workspace.record.persist.1 = .error error ∧ workspace.snapshot.1 = .error error ∧
        workspace.snapshot.2.status.kind = .error := by
  unfold snapshot
  cases workspace.record.persist with
  | mk result after =>
    cases result with
    | ok _ => exact Or.inl ⟨rfl, rfl⟩
    | error error => exact Or.inr ⟨error, rfl, rfl, rfl⟩

/-- An action fails if one of its statements does, or if what it changed could not be stored. -/
def ActionFails (workspace : Workspace σ) (action : String) : Prop :=
  (workspace.act action).1.errors ≠ [] ∨
    ∃ write ∈ (Operation.act action).writes workspace, write.succeeded = false

private theorem writes_of_changed {workspace : Workspace σ} {action : String}
    (changed : (workspace.act action).1.changed = true) :
    (Operation.act action).writes workspace =
      { workspace with state := (Action.execute action workspace.state).state }.record.writes := by
  have persists := act_persists changed
  rw [act_outcome] at persists
  show [] ++ (if (workspace.act action).1.changed then _ else []) = _
  rw [if_pos changed, List.nil_append]
  exact persists.writesTo_eq rfl

private theorem writes_of_unchanged {workspace : Workspace σ} {action : String}
    (unchanged : (workspace.act action).1.changed = false) :
    (Operation.act action).writes workspace = [] := by
  show [] ++ (if (workspace.act action).1.changed then _ else []) = _
  rw [unchanged]
  rfl

theorem act_kind (workspace : Workspace σ) (action : String) :
    (workspace.act action).2.status.kind = .error ↔ workspace.ActionFails action := by
  unfold ActionFails
  cases changed : (workspace.act action).1.changed with
  | true =>
    rw [writes_of_changed changed, ← persist_fails_iff, act_outcome]
    rw [act_outcome] at changed
    unfold act
    dsimp only
    rw [if_pos changed]
    rcases snapshot_of_persist { workspace with
        state := (Action.execute action workspace.state).state } with
      ⟨stored, taken⟩ | ⟨error, failed, taken, kind⟩
    · rw [stored]
      cases snapped : { workspace with
          state := (Action.execute action workspace.state).state }.snapshot with
      | mk result after =>
        rw [snapped] at taken
        cases taken
        refine (reportOutcome_kind after _).trans ?_
        exact ⟨Or.inl, fun either => either.resolve_right (fun ⟨_, failed⟩ => nomatch failed)⟩
    · refine iff_of_true ?_ (Or.inr ⟨error, failed⟩)
      cases snapped : { workspace with
          state := (Action.execute action workspace.state).state }.snapshot with
      | mk result after =>
        rw [snapped] at taken kind
        cases taken
        exact kind
  | false =>
    rw [writes_of_unchanged changed, act_outcome]
    rw [act_outcome] at changed
    unfold act
    dsimp only
    rw [if_neg (by rw [changed]; exact Bool.false_ne_true)]
    refine (reportOutcome_kind workspace _).trans ?_
    exact ⟨Or.inl, fun either => either.resolve_right (fun ⟨_, member, _⟩ => nomatch member)⟩

/-- The last of some steps has failed: the first one, if no actions follow it, or the last action. -/
def LastFails (first : Prop) (workspace : Workspace σ) : List String → Prop
  | [] => first
  | action :: rest => LastFails (workspace.ActionFails action) (workspace.act action).2 rest

/-- One of some steps has failed: the first one, or one of the actions that follow it. -/
def SomeFails (first : Prop) (workspace : Workspace σ) : List String → Prop
  | [] => first
  | action :: rest =>
    first ∨ SomeFails (workspace.ActionFails action) (workspace.act action).2 rest

theorem someFails_of_lastFails {first : Prop} {workspace : Workspace σ} {actions : List String}
    (fails : LastFails first workspace actions) : SomeFails first workspace actions := by
  induction actions generalizing first workspace with
  | nil => exact fails
  | cons action rest ih => exact Or.inr (ih fails)

theorem actAll_kind (workspace : Workspace σ) (actions : List String) :
    (workspace.actAll actions).2.status.kind = .error ↔
      LastFails (workspace.status.kind = .error) workspace actions := by
  induction actions generalizing workspace with
  | nil => exact Iff.rfl
  | cons action rest ih =>
    have later := ih (workspace.act action).2
    rw [propext (act_kind workspace action)] at later
    exact later

/-- After rendering the status is an error exactly if the last action that was dispatched has failed or,
where none was, the rendering itself; after an interaction exactly if the last action has failed or, where
there was none, if it was an error before. So an error in the status is always that of one of the steps,
but a failure with a successful action behind it does not show. -/
theorem status_shows_last_step (workspace : Workspace σ) (preview : Preview) (surface : Surface)
    (index : Nat) (event : String) :
    let rendering := preview.refresh workspace.activeSource workspace.state surface .empty
    let rendered := workspace.reportRendering preview.mode rendering.result
    let failed := ∃ error, rendering.result = .error error
    let after := (workspace.render preview surface).2.2
    (after.status.kind = .error ↔ LastFails failed rendered rendering.host.actions) ∧
      (after.status.kind = .error → SomeFails failed rendered rendering.host.actions) ∧
      ∀ host, surface.trigger index event .empty = (.ok (), host) →
        let after := (workspace.interact surface index event).2
        let before := workspace.status.kind = .error
        (after.status.kind = .error ↔ LastFails before workspace host.actions) ∧
          (after.status.kind = .error → SomeFails before workspace host.actions) := by
  intro rendering rendered failed after
  have shown : after.status.kind = .error ↔ LastFails failed rendered rendering.host.actions := by
    have steps := actAll_kind rendered rendering.host.actions
    rw [propext (reportRendering_kind workspace preview.mode rendering.result)] at steps
    exact steps
  refine ⟨shown, fun error => someFails_of_lastFails (shown.mp error), ?_⟩
  intro host triggered after before
  have same : after = (workspace.actAll host.actions).2 := by
    show (workspace.interact surface index event).2 = _
    unfold interact
    rw [triggered]
  have shown : after.status.kind = .error ↔ LastFails before workspace host.actions := by
    rw [same]
    exact actAll_kind workspace host.actions
  exact ⟨shown, fun error => someFails_of_lastFails (shown.mp error)⟩

/-- A button whose handler dispatches an action without an equals sign and then one without
statements. -/
def carelessButton : Surface :=
  let place : Source.Span := default
  let dispatch (action : String) : Source.Statement :=
    .expression place (.call place (.name place "execute") [.literal place (.text action)])
  let closure : Closure := ⟨place, [], .block [dispatch "x", dispatch ""],
    [("execute", .builtin ⟨"execute", .execute⟩)]⟩
  ⟨"preview", [.element ⟨"button", [], [], [("click", .callback closure "" 0)], []⟩]⟩

/-- The first action of the button fails, and the second one lets the status say that there was nothing
to change. -/
theorem later_action_hides_failure :
    let workspace := openOn MemoryStorage.empty 0
    carelessButton.trigger 0 "click" .empty = (.ok (), ⟨["x", ""], []⟩) ∧
      SomeFails False workspace ["x", ""] ∧
      (workspace.interact carelessButton 0 "click").2.status = ⟨.info, "Nothing to change"⟩ ∧
      ¬LastFails False workspace ["x", ""] := by
  intro workspace
  have triggered : carelessButton.trigger 0 "click" .empty = (.ok (), ⟨["x", ""], []⟩) := rfl
  have status : (workspace.interact carelessButton 0 "click").2.status =
      ⟨.info, "Nothing to change"⟩ := rfl
  have preview : Preview := ⟨.external, .standard, none, 0⟩
  obtain ⟨_, _, interacted⟩ :=
    status_shows_last_step workspace preview carelessButton 0 "click"
  have shown := (interacted _ triggered).1
  refine ⟨triggered, Or.inr (Or.inl (Or.inl ?_)), status, ?_⟩
  · exact List.cons_ne_nil (ActionError.malformed "x") []
  · intro fails
    have kind := shown.mpr fails
    rw [status] at kind
    cases kind

end ScreenStudio.Workspace
