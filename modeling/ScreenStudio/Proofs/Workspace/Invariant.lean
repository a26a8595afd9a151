/- digest: What holds of the live snapshot and of every entry of the history after any operation. -/

import ScreenStudio.Proofs.Record
import ScreenStudio.Proofs.Workspace.Transition

set_option autoImplicit false
set_option relaxedAutoImplicit false

namespace ScreenStudio.Workspace

variable {σ : Type}

/-- Every snapshot in the workspace has a property, and the current entry is live. -/
structure Keeps (holds : Snapshot → Prop) (workspace : Workspace σ) : Prop where
  current : ∃ entry, workspace.history.current? = some entry ∧
    workspace.project = entry.project ∧ workspace.state = entry.state
  live : holds workspace.live
  entries : ∀ entry ∈ workspace.history.entries, holds entry

theorem Keeps.inRange {holds : Snapshot → Prop} {workspace : Workspace σ}
    (keeps : Keeps holds workspace) : workspace.history.InRange := by
  obtain ⟨entry, current, _⟩ := keeps.current
  exact History.inRange_of_current? current

/-- Whatever is done to a snapshot with the property, the result has it. -/
structure Kept (σ : Type) (holds : Snapshot → Prop) : Prop where
  change : ∀ {workspace : Workspace σ} {snapshot : Snapshot}, Change workspace snapshot →
    holds workspace.live → holds snapshot
  select : ∀ {workspace : Workspace σ} {id : String}, id ∈ workspace.project.ids →
    holds workspace.live → holds { workspace.live with active := some id }

theorem kept_true : Kept σ (fun _ => True) := ⟨fun _ _ => trivial, fun _ _ => trivial⟩

theorem kept_regular : Kept σ Snapshot.Regular where
  change := by
    intro workspace snapshot change regular
    have files : Dictionary.Ascending workspace.project.files := regular.files
    cases change with
    | same => exact regular
    | added fresh => exact ⟨files, regular.state⟩
    | removed member => exact ⟨Dictionary.ascending_erase files, regular.state⟩
    | saved source companion member =>
      cases companion with
      | none => exact ⟨files, regular.state⟩
      | some content => exact ⟨Dictionary.ascending_insert files, regular.state⟩
    | stated state => exact ⟨files, state regular.state⟩
  select := fun _ regular => ⟨regular.files, regular.state⟩

theorem kept_sound : Kept σ Snapshot.Sound where
  change := by
    intro workspace snapshot change sound
    cases change with
    | same => exact sound
    | added fresh => exact Snapshot.Sound.add sound fresh
    | removed member => exact Snapshot.Sound.remove sound member
    | @saved id source companion member =>
      have replaced := Snapshot.Sound.setSource sound id source
      cases companion with
      | none => exact replaced
      | some content =>
        refine Snapshot.Sound.setCompanion replaced ?_ content
        rw [Project.ids_setSource]
        exact member
    | stated state => exact sound.of_same rfl rfl
  select := fun member sound => Snapshot.Sound.select sound member

variable [Storage σ] {holds : Snapshot → Prop} {workspace after : Workspace σ} {log : List Write}

theorem PersistsTo.keeps (persists : PersistsTo workspace after) (keeps : Keeps holds workspace) :
    Keeps holds after := by
  obtain ⟨status, rfl⟩ := persists
  rw [persist_eq]
  exact ⟨keeps.current, keeps.live, keeps.entries⟩

omit [Storage σ] in
theorem keeps_record {workspace : Workspace σ} (live : holds workspace.live)
    (entries : ∀ entry ∈ workspace.history.entries, holds entry) : Keeps holds workspace.record where
  current := ⟨workspace.live, History.current?_push _ _, rfl, rfl⟩
  live := live
  entries := by
    intro entry member
    rcases History.mem_push member with old | rfl
    · exact entries entry old
    · exact live

omit [Storage σ] in
private theorem keeps_movedTo {workspace : Workspace σ} (keeps : Keeps holds workspace)
    {history : History} (entries : history.entries = workspace.history.entries)
    (inRange : history.InRange) : Keeps holds (workspace.movedTo history) := by
  obtain ⟨entry, member, current⟩ := History.current?_of_inRange inRange
  have live : (workspace.movedTo history).live = entry := movedTo_live current
  rw [entries] at member
  refine ⟨⟨entry, ?_, congrArg Snapshot.project live, congrArg Snapshot.state live⟩, ?_, ?_⟩
  · rw [movedTo_history]
    exact current
  · rw [live]
    exact keeps.entries entry member
  · rw [movedTo_history, entries]
    exact keeps.entries

theorem Transition.keeps (transition : Transition workspace log after) (kept : Kept σ holds)
    (keeps : Keeps holds workspace) : Keeps holds after := by
  cases transition with
  | reported status => exact ⟨keeps.current, keeps.live, keeps.entries⟩
  | selected member => exact ⟨keeps.current, kept.select member keeps.live, keeps.entries⟩
  | @recorded snapshot change =>
    have recorded : Keeps holds (workspace.restore snapshot).record :=
      keeps_record (kept.change change keeps.live) keeps.entries
    exact PersistsTo.keeps ⟨_, rfl⟩ recorded
  | @moved history step =>
    have inside := keeps.inRange
    have target : history.entries = workspace.history.entries ∧ history.InRange := by
      rcases step with back | forward
      · obtain ⟨entries, cursor⟩ := History.undo?_eq_some back
        refine ⟨entries, ?_⟩
        unfold History.InRange at inside ⊢
        rw [entries]
        omega
      · obtain ⟨entries, _, inRange⟩ := History.redo?_eq_some forward
        exact ⟨entries, inRange⟩
    exact PersistsTo.keeps ⟨_, rfl⟩ (keeps_movedTo keeps target.1 target.2)

theorem Path.keeps (path : Path workspace log after) (kept : Kept σ holds)
    (keeps : Keeps holds workspace) : Keeps holds after := by
  induction path with
  | stay => exact keeps
  | step _ transition ih => exact transition.keeps kept ih

/-- A written history has a current entry, and every entry of it has the property. -/
def WritesKeep (holds : Snapshot → Prop) (log : List Write) : Prop :=
  ∀ write ∈ log, write.history.InRange ∧ ∀ entry ∈ write.history.entries, holds entry

theorem Keeps.writes (keeps : Keeps holds workspace) : WritesKeep holds workspace.writes := by
  intro write member
  unfold Workspace.writes at member
  split at member
  · cases member
  · rw [List.mem_singleton.mp member]
    exact ⟨keeps.inRange, keeps.entries⟩

theorem Transition.writesKeep (transition : Transition workspace log after) (kept : Kept σ holds)
    (keeps : Keeps holds workspace) : WritesKeep holds log := by
  have later := transition.keeps kept keeps
  cases transition with
  | reported status => exact fun write member => nomatch member
  | selected member => exact fun write member => nomatch member
  | recorded change =>
    rw [persist_eq] at later
    exact Keeps.writes ⟨later.current, later.live, later.entries⟩
  | moved step =>
    rw [persist_eq] at later
    exact Keeps.writes ⟨later.current, later.live, later.entries⟩

theorem Path.writesKeep (path : Path workspace log after) (kept : Kept σ holds)
    (keeps : Keeps holds workspace) : WritesKeep holds log := by
  induction path with
  | stay => exact fun write member => nomatch member
  | step path transition ih =>
    intro write member
    rcases List.mem_append.mp member with new | old
    · exact transition.writesKeep kept (path.keeps kept keeps) write new
    · exact ih write old

end ScreenStudio.Workspace
