/- digest: What a run leaves in the storage, and what a workspace that is opened on it has. -/

import ScreenStudio.Proofs.Storage
import ScreenStudio.Proofs.Workspace.Opening

/-!
At any moment of a run the stored text is that of the history that was written last with success, or
the one that was there at the start. Opening a workspace on it gives that history back.
-/

set_option autoImplicit false
set_option relaxedAutoImplicit false

namespace ScreenStudio.Workspace

/-- The history that was written last with success. -/
def lastStored (log : List Write) : Option History := (log.find? Write.succeeded).map Write.history

/-- What is loaded after some writes, where `before` was loaded before them. -/
def loadedAfter (log : List Write) (before : Except StorageError (Option String)) :
    Except StorageError (Option String) :=
  match lastStored log with
  | none => before
  | some history => .ok ((Record.ofHistory? history).map Record.write)

theorem loadedAfter_append (new log : List Write) (before : Except StorageError (Option String)) :
    loadedAfter (new ++ log) before = loadedAfter new (loadedAfter log before) := by
  unfold loadedAfter lastStored
  rw [List.find?_append]
  cases new.find? Write.succeeded <;> rfl

theorem mem_of_lastStored {log : List Write} {history : History}
    (last : lastStored log = some history) : ∃ write ∈ log, write.history = history := by
  obtain ⟨write, found, same⟩ := Option.map_eq_some_iff.mp last
  exact ⟨write, List.mem_of_find?_eq_some found, same⟩

variable {σ : Type} [Storage σ] {workspace after : Workspace σ} {log : List Write}

/-- A transition writes nothing and keeps the history, or it writes the history it leads to. -/
theorem Transition.history_written (transition : Transition workspace log after)
    {holds : Snapshot → Prop} (kept : Kept σ holds) (keeps : Keeps holds workspace) :
    (log = [] ∧ after.history = workspace.history) ∨
      ∃ succeeded, log = [⟨after.history, succeeded⟩] := by
  have later := transition.keeps kept keeps
  have single {workspace : Workspace σ} {entry : Snapshot}
      (current : workspace.history.current? = some entry) :
      ∃ succeeded, workspace.writes = [⟨workspace.history, succeeded⟩] := by
    unfold writes
    rw [ofHistory?_of_current? current]
    exact ⟨_, rfl⟩
  obtain ⟨entry, current, _⟩ := later.current
  cases transition with
  | reported status => exact Or.inl ⟨rfl, rfl⟩
  | selected member => exact Or.inl ⟨rfl, rfl⟩
  | recorded change =>
    rw [persist_eq] at current ⊢
    exact Or.inr (single current)
  | moved step =>
    rw [persist_eq] at current ⊢
    exact Or.inr (single current)

theorem Path.history_written (path : Path workspace log after) {holds : Snapshot → Prop}
    (kept : Kept σ holds) (keeps : Keeps holds workspace) :
    (log = [] ∧ after.history = workspace.history) ∨
      ∃ succeeded earlier, log = ⟨after.history, succeeded⟩ :: earlier := by
  induction path with
  | stay => exact Or.inl ⟨rfl, rfl⟩
  | step path transition ih =>
    rcases transition.history_written kept (path.keeps kept keeps) with ⟨rfl, same⟩ | ⟨ok, rfl⟩
    · rw [same]
      exact ih
    · exact Or.inr ⟨ok, _, rfl⟩

theorem regular_first (now : UInt64) :
    Snapshot.Regular ⟨Project.initial now, initialState, some Screen.initialId⟩ where
  files := Dictionary.ascending_nil
  state := by
    refine ⟨by decide, ?_, trivial, trivial⟩
    show Json.FitsWord 0
    unfold Json.FitsWord
    omega

theorem Run.regular {storage : σ} (run : Run storage workspace log) :
    Keeps Snapshot.Regular workspace ∧ WritesKeep Snapshot.Regular log := by
  refine run.keeps kept_regular regular_first ?_
  intro history stored
  obtain ⟨text, _, read⟩ := storedHistory?_eq_ok.mp stored
  exact regular_of_historyOfText read

private theorem first_written {storage : σ}
    (unread : ∀ history, Workspace.storedHistory? storage ≠ .ok (some history)) (now : UInt64) :
    ∃ succeeded, writesOfOpening storage now = [⟨(openOn storage now).history, succeeded⟩] := by
  rw [writesOfOpening_of_unread unread now, (openOn_of_unread unread now).history_eq]
  exact ⟨_, rfl⟩

/-- The last write of a run, whether it succeeded or not, is of the history that the workspace has. -/
theorem Run.history_written {storage : σ} (run : Run storage workspace log) :
    log = [] ∨ ∃ succeeded earlier, log = ⟨workspace.history, succeeded⟩ :: earlier := by
  induction run with
  | opened now =>
    by_cases read : ∃ history, Workspace.storedHistory? storage = .ok (some history)
    · obtain ⟨history, found⟩ := read
      exact Or.inl (writesOfOpening_of_stored found now)
    · obtain ⟨succeeded, written⟩ := first_written (fun history found => read ⟨history, found⟩) now
      exact Or.inr ⟨succeeded, [], written⟩
  | operated run operation allowed ih =>
    have path := path_apply _ operation allowed
    rcases path.history_written kept_regular run.regular.1 with ⟨nothing, same⟩ | ⟨ok, earlier, equal⟩
    · rw [nothing, same]
      exact ih
    · exact Or.inr ⟨ok, earlier ++ _, by rw [equal]; rfl⟩
  | switched run other same ih => exact ih

variable [LawfulStorage σ]

theorem load_persist (workspace : Workspace σ) :
    Storage.load workspace.persist.2.storage storageKey =
      loadedAfter workspace.writes (Storage.load workspace.storage storageKey) := by
  unfold persist writes loadedAfter lastStored
  cases stored : Record.ofHistory? workspace.history with
  | none => rfl
  | some record =>
    dsimp only
    cases saved : (Storage.save workspace.storage storageKey record.write).1 with
    | ok _ =>
      rw [LawfulStorage.load_of_ok workspace.storage storageKey record.write saved]
      show _ = Except.ok ((Record.ofHistory? workspace.history).map Record.write)
      rw [stored]
      rfl
    | error error =>
      rw [LawfulStorage.load_of_error workspace.storage storageKey record.write error saved]
      rfl

theorem Transition.load (transition : Transition workspace log after) :
    Storage.load after.storage storageKey =
      loadedAfter log (Storage.load workspace.storage storageKey) := by
  cases transition with
  | reported status => rfl
  | selected member => rfl
  | recorded change => exact load_persist _
  | moved step =>
    rw [load_persist, movedTo_storage]

theorem Path.load (path : Path workspace log after) :
    Storage.load after.storage storageKey =
      loadedAfter log (Storage.load workspace.storage storageKey) := by
  induction path with
  | stay => rfl
  | step path transition ih => rw [transition.load, ih, loadedAfter_append]

/-- What is loaded at any moment of a run: the text of the history that was written last with
success, or what was loaded at its start. -/
theorem Run.load {storage : σ} (run : Run storage workspace log) :
    Storage.load workspace.storage storageKey =
      loadedAfter log (Storage.load storage storageKey) := by
  induction run with
  | opened now =>
    by_cases read : ∃ history, Workspace.storedHistory? storage = .ok (some history)
    · obtain ⟨history, found⟩ := read
      obtain ⟨_, _, _, equal⟩ := openOn_of_stored found now
      rw [writesOfOpening_of_stored found now, equal]
      rfl
    · have unread (history : History) : Workspace.storedHistory? storage ≠ .ok (some history) :=
        fun found => read ⟨history, found⟩
      obtain ⟨status, equal⟩ := openOn_of_unread unread now
      rw [writesOfOpening_of_unread unread now, equal]
      exact load_persist _
  | operated run operation allowed ih =>
    rw [(path_apply _ operation allowed).load, ih, loadedAfter_append]
  | switched run other same ih => rw [← ih, ← same]

/-- Once a write has succeeded, the text of the history that was written last with success is loaded. -/
theorem Run.load_written {storage copy : σ} (run : Run storage workspace log) {written : History}
    (last : lastStored log = some written)
    (same : Storage.load copy storageKey = Storage.load workspace.storage storageKey) :
    ∃ record, Record.ofHistory? written = some record ∧
      Storage.load copy storageKey = .ok (some record.write) ∧
      ∀ entry ∈ written.entries, entry.Regular := by
  obtain ⟨write, member, rfl⟩ := mem_of_lastStored last
  obtain ⟨inRange, regular⟩ := run.regular.2 write member
  obtain ⟨entry, _, current⟩ := History.current?_of_inRange inRange
  have record := ofHistory?_of_current? current
  refine ⟨_, record, ?_, regular⟩
  rw [same, run.load]
  unfold loadedAfter
  rw [last]
  dsimp only
  rw [record]
  rfl

/-- Whatever history a workspace finds in what a run has stored: it is the one written last with
success, read back entry by entry, or the one at the start of the run. -/
theorem Run.storedHistory? {storage copy : σ} (run : Run storage workspace log)
    (same : Storage.load copy storageKey = Storage.load workspace.storage storageKey)
    {history : History} (stored : storedHistory? copy = .ok (some history)) :
    (lastStored log = none ∧ Workspace.storedHistory? storage = .ok (some history)) ∨
      ∃ written, lastStored log = some written ∧
        (∀ entry ∈ written.entries, entry.Regular) ∧
        written.entries.mapM Snapshot.readBack? = some history.entries ∧
        history.cursor = written.cursor := by
  cases last : lastStored log with
  | none =>
    have loaded := same.trans run.load
    unfold loadedAfter at loaded
    rw [last] at loaded
    exact Or.inl ⟨rfl, by rw [← storedHistory?_congr loaded]; exact stored⟩
  | some written =>
    obtain ⟨record, ofHistory, loaded, regular⟩ := run.load_written last same
    obtain ⟨text, found, read⟩ := storedHistory?_eq_ok.mp stored
    rw [loaded] at found
    cases found
    obtain ⟨entries, cursor⟩ := historyOfText_write ofHistory regular read
    exact Or.inr ⟨written, rfl, regular, entries, cursor⟩

/-- Whether the stored text is taken depends on the history that was written last with success. A text
that is not taken is an error. -/
theorem Run.loads_iff {storage copy : σ} (run : Run storage workspace log) {written : History}
    (last : lastStored log = some written)
    (unique : ∀ entry ∈ written.entries, entry.project.hasUniqueIds = true)
    (same : Storage.load copy storageKey = Storage.load workspace.storage storageKey) :
    (written.Readable → ∃ history, Workspace.storedHistory? copy = .ok (some history)) ∧
      (¬written.Readable → ∃ error, Workspace.storedHistory? copy = .error error) := by
  obtain ⟨record, ofHistory, loaded, regular⟩ := run.load_written last same
  have accepted := historyOfText_write_isOk ofHistory regular unique
  constructor
  · intro readable
    obtain ⟨history, read⟩ := accepted.mpr readable
    exact ⟨history, storedHistory?_eq_ok.mpr ⟨_, loaded, read⟩⟩
  · intro unreadable
    unfold Workspace.storedHistory?
    rw [loaded]
    dsimp only
    cases read : historyOfText record.write with
    | error error => exact ⟨error, rfl⟩
    | ok history => exact absurd (accepted.mp ⟨history, read⟩) unreadable

/-- A workspace that loads what a run has stored has the history that was written last with success,
the current entry of it is live, and the storage is as it was. That the doubles in the states are read
back as they were written is a matter of the reader of numbers. -/
theorem restart_gives_last_write {storage copy : σ} (run : Run storage workspace log)
    {written : History} (last : lastStored log = some written)
    (numbers : ∀ entry ∈ written.entries, entry.state.AllDoubles Json.ReadsBack)
    (same : Storage.load copy storageKey = Storage.load workspace.storage storageKey) {now : UInt64}
    (loads : (openOn copy now).status = ⟨.ok, "Project loaded from storage"⟩) :
    (openOn copy now).history = written ∧
      written.entries[written.cursor]? = some (openOn copy now).live ∧
      (openOn copy now).storage = copy := by
  obtain ⟨history, stored⟩ := (openOn_status_iff copy now).mp loads
  obtain ⟨entry, current, _, opened⟩ := openOn_of_stored stored now
  have equal : history = written := by
    rcases run.storedHistory? same stored with ⟨nothing, _⟩ | ⟨found, known, regular, back, cursor⟩
    · rw [nothing] at last
      cases last
    · rw [known] at last
      cases last
      have entries := Snapshot.eq_of_mapM_readBack? regular numbers back
      obtain ⟨historyEntries, historyCursor⟩ := history
      dsimp only at entries cursor
      rw [entries, cursor]
  rw [opened, ← equal]
  exact ⟨rfl, current, rfl⟩

/-- An undo whose position could not be stored is forgotten. -/
theorem restart_forgets_failed_undo :
    let before := (openOn MemoryStorage.empty 0).setState (.text "later")
    let after := { before with storage := { before.storage with readOnly := true } }.undo.2
    after.history.cursor = 0 ∧ (openOn after.storage 0).history = before.history ∧
      before.history.entries[1]? = some (openOn after.storage 0).live := by
  intro before after
  have run : Run MemoryStorage.empty after _ :=
    .operated (.switched (.operated (.opened 0) (.setState (.text "later")) trivial)
      { before.storage with readOnly := true } rfl) .undo trivial
  have readable : before.history.Readable := by
    refine ⟨by decide, ?_⟩
    show ∀ entry ∈ [_, _], Snapshot.Readable entry
    simp only [List.forall_mem_cons, List.not_mem_nil, false_implies, implies_true, and_true]
    exact ⟨⟨by decide, trivial, trivial, trivial⟩, ⟨by decide, trivial⟩⟩
  have unique : ∀ entry ∈ before.history.entries, entry.project.hasUniqueIds = true := by
    show ∀ entry ∈ [_, _], _
    simp only [List.forall_mem_cons, List.not_mem_nil, false_implies, implies_true, and_true]
    exact ⟨by decide, by decide⟩
  have numbers : ∀ entry ∈ before.history.entries, entry.state.AllDoubles Json.ReadsBack := by
    show ∀ entry ∈ [_, _], _
    simp only [List.forall_mem_cons, List.not_mem_nil, false_implies, implies_true, and_true]
    exact ⟨⟨trivial, trivial, trivial⟩, trivial⟩
  have same : Storage.load after.storage storageKey = Storage.load after.storage storageKey := rfl
  have loads := (openOn_status_iff after.storage 0).mpr
    ((run.loads_iff rfl unique same).1 readable)
  obtain ⟨history, live, _⟩ := restart_gives_last_write run rfl numbers same loads
  exact ⟨rfl, history, live⟩

/-- Arrays one inside the other. -/
def nested : Nat → Json
  | 0 => .array []
  | depth + 1 => .array [nested depth]

private theorem wellFormed_nested (depth : Nat) : (nested depth).WellFormed := by
  induction depth with
  | zero => trivial
  | succ depth ih => exact ⟨ih, trivial⟩

private theorem depth_nested (depth : Nat) : (nested depth).depth = depth + 1 := by
  induction depth with
  | zero => rfl
  | succ depth ih => simp [nested, Json.depth, Json.itemsDepth, ih]

/-- After a run that started on an empty storage and whose last write succeeded, the stored record is
loaded exactly if it is readable: no state of its history is nested too deeply, and every number is in
range. Otherwise opening reports an error, starts anew and writes the new history over the stored
one. -/
theorem restart_of_written_run {storage : σ} (run : Run storage workspace log)
    (empty : Storage.load storage storageKey = .ok none)
    (stored : log.head?.map Write.succeeded = some true) {copy : σ}
    (same : Storage.load copy storageKey = Storage.load workspace.storage storageKey)
    (now : UInt64) :
    (workspace.history.Readable →
        (openOn copy now).status = ⟨.ok, "Project loaded from storage"⟩ ∧
        (openOn copy now).storage = copy) ∧
      (¬workspace.history.Readable →
        (openOn copy now).status.kind = .error ∧
        (openOn copy now).history = (fresh copy now).record.history ∧
        ∃ succeeded, writesOfOpening copy now = [⟨(openOn copy now).history, succeeded⟩]) := by
  have unread : ∀ history, Workspace.storedHistory? storage ≠ .ok (some history) := by
    intro history found
    obtain ⟨text, loaded, _⟩ := storedHistory?_eq_ok.mp found
    rw [empty] at loaded
    cases loaded
  have sound := (run.keeps kept_sound (fun now => Snapshot.sound_initial _ now)
    (fun history found => absurd found (unread history))).1
  have unique (entry : Snapshot) (member : entry ∈ workspace.history.entries) :
      entry.project.hasUniqueIds = true :=
    Project.hasUniqueIds_iff.mpr (sound.entries entry member).unique
  have last : lastStored log = some workspace.history := by
    rcases run.history_written with nothing | ⟨succeeded, earlier, equal⟩
    · rw [nothing] at stored
      cases stored
    · rw [equal] at stored ⊢
      cases stored
      rfl
  obtain ⟨taken, rejected⟩ := run.loads_iff last unique same
  constructor
  · intro readable
    obtain ⟨history, found⟩ := taken readable
    obtain ⟨entry, _, _, opened⟩ := openOn_of_stored found now
    rw [opened]
    exact ⟨rfl, rfl⟩
  · intro unreadable
    obtain ⟨error, found⟩ := rejected unreadable
    have unread := unread_of_error found
    have persists := openOn_of_unread unread now
    obtain ⟨succeeded, written⟩ := first_written unread now
    exact ⟨openOn_status_of_error found now, persists.history_eq, succeeded, written⟩

/-- A state of 125 arrays one inside the other is stored, but it is not found again. -/
theorem deep_state_is_lost :
    ((openOn MemoryStorage.empty 0).setState (nested 124)).status = ⟨.ok, "State updated"⟩ ∧
      (openOn ((openOn MemoryStorage.empty 0).setState (nested 124)).storage 0).status.kind =
        .error ∧
      (openOn ((openOn MemoryStorage.empty 0).setState (nested 124)).storage
        0).history.entries.length = 1 := by
  have wellFormed := wellFormed_nested 124
  have depth := depth_nested 124
  generalize nested 124 = deep at wellFormed depth ⊢
  have run : Run MemoryStorage.empty ((openOn MemoryStorage.empty 0).setState deep) _ :=
    Run.operated (Run.opened 0) (.setState deep) wellFormed
  have unreadable : ¬((openOn MemoryStorage.empty 0).setState deep).history.Readable := by
    intro readable
    have entry := readable.entries ⟨Project.initial 0, deep, some Screen.initialId⟩
      (List.mem_of_getElem? (i := 1) rfl)
    have shallow : deep.depth ≤ 124 := entry.depth
    omega
  have same : Storage.load ((openOn MemoryStorage.empty 0).setState deep).storage storageKey =
      Storage.load ((openOn MemoryStorage.empty 0).setState deep).storage storageKey := rfl
  obtain ⟨status, history, _⟩ := (restart_of_written_run run rfl rfl same 0).2 unreadable
  refine ⟨rfl, status, ?_⟩
  rw [history]
  rfl

end ScreenStudio.Workspace
