/- digest: What a workspace shows is the current entry of its history, and every snapshot is sound. -/

import ScreenStudio.Proofs.Workspace.Restart

/-!
A workspace that is reached from a storage without a readable history holds sound snapshots only, also
after restarts: what a restart finds is read back entry by entry from what was written, with the same
projects and active screens, so it is sound as well.
-/

set_option autoImplicit false
set_option relaxedAutoImplicit false

namespace ScreenStudio.Workspace

variable {σ : Type} [Storage σ]

private theorem sound_of_run {storage : σ} {workspace : Workspace σ} {log : List Write}
    (run : Run storage workspace log)
    (stored : ∀ history, storedHistory? storage = .ok (some history) →
      ∀ entry ∈ history.entries, entry.Sound) :
    Keeps Snapshot.Sound workspace ∧ WritesKeep Snapshot.Sound log :=
  run.keeps kept_sound (fun now => Snapshot.sound_initial _ now) stored

variable [LawfulStorage σ]

private theorem sound_of_stored {storage copy : σ} {workspace : Workspace σ} {log : List Write}
    (run : Run storage workspace log)
    (start : ∀ history, storedHistory? storage = .ok (some history) →
      ∀ entry ∈ history.entries, entry.Sound)
    (same : Storage.load copy storageKey = Storage.load workspace.storage storageKey) :
    ∀ history, storedHistory? copy = .ok (some history) →
      ∀ entry ∈ history.entries, entry.Sound := by
  intro history stored entry member
  rcases run.storedHistory? same stored with ⟨_, atStart⟩ | ⟨written, last, _, back, _⟩
  · exact start history atStart entry member
  · obtain ⟨source, inside, entryBack⟩ := mem_of_mapM back member
    obtain ⟨project, active⟩ := Snapshot.same_of_readBack? entryBack
    obtain ⟨write, logged, equal⟩ := mem_of_lastStored last
    have sound := ((sound_of_run run start).2 write logged).2 source (by rw [equal]; exact inside)
    exact sound.of_same project active

private theorem sound_of_reachable {workspace : Workspace σ} (reachable : Reachable workspace) :
    Keeps Snapshot.Sound workspace ∧
      ∀ copy : σ, Storage.load copy storageKey = Storage.load workspace.storage storageKey →
        ∀ history, storedHistory? copy = .ok (some history) →
          ∀ entry ∈ history.entries, entry.Sound := by
  induction reachable with
  | @started storage _ _ unread run =>
    have start : ∀ history, storedHistory? storage = .ok (some history) →
        ∀ entry ∈ history.entries, entry.Sound :=
      fun history stored => absurd stored (unread history)
    exact ⟨(sound_of_run run start).1, fun copy same => sound_of_stored run start same⟩
  | restarted reachable same run ih =>
    have start := ih.2 _ same
    exact ⟨(sound_of_run run start).1, fun copy same => sound_of_stored run start same⟩

/-- In every reachable workspace the history has a current entry, the live project and state are those
of that entry, and what is live and every entry of the history is sound: identifiers of screens are
unique, the active screen is one of the screens unless there is none, and every companion text belongs
to a screen. -/
theorem reachable_consistent {workspace : Workspace σ} (reachable : Reachable workspace) :
    workspace.history.entries ≠ [] ∧
      workspace.history.cursor < workspace.history.entries.length ∧
      (∃ entry, workspace.history.entries[workspace.history.cursor]? = some entry ∧
        workspace.project = entry.project ∧ workspace.state = entry.state) ∧
      workspace.live.Sound ∧ ∀ entry ∈ workspace.history.entries, entry.Sound := by
  have keeps := (sound_of_reachable reachable).1
  have inRange := keeps.inRange
  refine ⟨?_, inRange, keeps.current, keeps.live, keeps.entries⟩
  intro empty
  unfold History.InRange at inRange
  rw [empty] at inRange
  exact Nat.not_lt_zero _ inRange

/-- Deleting the active screen leaves a screen active, and what is stored then is consistent when it is
found by a restart. -/
theorem consistent_after_deletion_and_restart :
    let deleted := (((openOn MemoryStorage.empty 0).newScreen none "s_new" 1).deleteScreen "s_new").2
    deleted.active = some Screen.initialId ∧
      (openOn deleted.storage 2).history.entries ≠ [] ∧ (openOn deleted.storage 2).live.Sound := by
  intro deleted
  have fresh : (Operation.newScreen none "s_new" 1).Allowed (openOn MemoryStorage.empty 0) := by
    show "s_new" ∉ [Screen.initialId]
    decide
  have first : Run MemoryStorage.empty deleted _ :=
    .operated (.operated (.opened 0) (.newScreen none "s_new" 1) fresh)
      (.deleteScreen "s_new") trivial
  have unread : ∀ history, storedHistory? MemoryStorage.empty ≠ .ok (some history) :=
    fun _ found => nomatch found
  have again : Reachable (openOn deleted.storage 2) :=
    .restarted (.started unread first) rfl (.opened 2)
  obtain ⟨notEmpty, _, _, live, _⟩ := reachable_consistent again
  exact ⟨rfl, notEmpty, live⟩

end ScreenStudio.Workspace
