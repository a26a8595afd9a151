/- digest: What opening a workspace finds in a stored text, and what holds of the opened workspace. -/

import ScreenStudio.Proofs.Workspace.Invariant

/-!
Opening takes the stored history if there is one that can be read, and then writes nothing. Otherwise
it starts with one snapshot and stores that. A text holds a history if it is that of a valid record:
one with an entry under its cursor, and no project in it, its own included, with two screens of one
identifier. The text of a written history is read back entry by
entry; it is rejected exactly if a state is too deep, a number is out of range or the cursor fits no
word.
-/

set_option autoImplicit false
set_option relaxedAutoImplicit false

namespace ScreenStudio

/-- The text of the history is accepted when it is read: its cursor fits a word, and every state is
accepted. -/
structure History.Readable (history : History) : Prop where
  cursor : history.cursor < 2 ^ 64
  entries : ∀ entry ∈ history.entries, entry.Readable

/-- The record has a current entry, and in each of its projects the identifiers of screens differ. -/
structure Record.Valid (record : Record) : Prop where
  filled : record.history ≠ []
  cursor : record.historyIndex < record.history.length
  own : record.project.ids.Nodup
  entries : ∀ entry ∈ record.history, entry.project.ids.Nodup

theorem Record.toHistory_eq_ok_iff {record : Record} {history : History} :
    record.toHistory = .ok history ↔
      record.Valid ∧ history = ⟨record.history, record.historyIndex⟩ := by
  unfold Record.toHistory
  constructor
  · intro accepted
    split at accepted
    · rename_i own
      obtain ⟨rfl, inRange, unique⟩ := History.ofParts_eq_ok accepted
      refine ⟨⟨?_, inRange, Project.hasUniqueIds_iff.mp own, ?_⟩, rfl⟩
      · exact List.ne_nil_of_length_pos (Nat.zero_lt_of_lt inRange)
      · exact fun entry member => Project.hasUniqueIds_iff.mp (unique entry member)
    · cases accepted
  · rintro ⟨valid, rfl⟩
    rw [if_pos (Project.hasUniqueIds_iff.mpr valid.own)]
    have inRange : History.InRange ⟨record.history, record.historyIndex⟩ := valid.cursor
    exact History.ofParts_of_inRange inRange
      (fun entry member => Project.hasUniqueIds_iff.mpr (valid.entries entry member))

namespace Workspace

theorem historyOfText_eq_ok_iff {text : String} {history : History} :
    historyOfText text = .ok history ↔
      ∃ record, Record.read? text = some record ∧ record.Valid ∧
        history = ⟨record.history, record.historyIndex⟩ := by
  constructor
  · intro accepted
    unfold historyOfText at accepted
    split at accepted
    · cases accepted
    · rename_i record found
      split at accepted
      · cases accepted
      · rename_i taken
        cases accepted
        obtain ⟨valid, same⟩ := Record.toHistory_eq_ok_iff.mp taken
        exact ⟨record, Json.toOption_eq_some.mpr found, valid, same⟩
  · rintro ⟨record, found, valid, rfl⟩
    unfold historyOfText
    rw [Json.toOption_eq_some.mp found]
    dsimp only
    rw [Record.toHistory_eq_ok_iff.mpr ⟨valid, rfl⟩]

theorem historyOfText_eq_ok {text : String} {history : History}
    (read : historyOfText text = .ok history) :
    ∃ record, Record.read? text = some record ∧ history = ⟨record.history, record.historyIndex⟩ ∧
      history.InRange ∧ ∀ entry ∈ history.entries, entry.project.hasUniqueIds = true := by
  obtain ⟨record, found, valid, rfl⟩ := historyOfText_eq_ok_iff.mp read
  exact ⟨record, found, rfl, valid.cursor,
    fun entry member => Project.hasUniqueIds_iff.mpr (valid.entries entry member)⟩

theorem regular_of_historyOfText {text : String} {history : History}
    (read : historyOfText text = .ok history) : ∀ entry ∈ history.entries, entry.Regular := by
  obtain ⟨record, found, rfl, _⟩ := historyOfText_eq_ok read
  exact Record.regular_of_read? found

theorem ofHistory?_of_current? {history : History} {entry : Snapshot}
    (current : history.current? = some entry) :
    Record.ofHistory? history = some
      ⟨entry.project, entry.state, entry.active, history.entries, history.cursor⟩ := by
  unfold Record.ofHistory?
  rw [current]
  rfl

section Written

variable {history : History} {record : Record}

private theorem parts_of_written (stored : Record.ofHistory? history = some record)
    (regular : ∀ entry ∈ history.entries, entry.Regular) {read : History}
    (back : historyOfText record.write = .ok read) :
    (history.entries.mapM Snapshot.readBack? = some read.entries ∧ read.cursor = history.cursor) ∧
      history.cursor < 2 ^ 64 := by
  obtain ⟨entry, current, rfl⟩ := Option.map_eq_some_iff.mp stored
  have own := regular entry (History.mem_of_current? current)
  obtain ⟨found, readBack, rfl, _⟩ := historyOfText_eq_ok back
  rw [Record.read?_write _ own.files (fun other member => (regular other member).files)] at readBack
  obtain ⟨state, _, readBack⟩ := Option.bind_eq_some_iff.mp readBack
  obtain ⟨entries, entriesBack, readBack⟩ := Option.bind_eq_some_iff.mp readBack
  split at readBack
  · rename_i small
    cases readBack
    exact ⟨⟨entriesBack, rfl⟩, small⟩
  · cases readBack

/-- What is read from the text of a written history: the same entries, each with its state read
back, and the same cursor. -/
theorem historyOfText_write (stored : Record.ofHistory? history = some record)
    (regular : ∀ entry ∈ history.entries, entry.Regular) {read : History}
    (back : historyOfText record.write = .ok read) :
    history.entries.mapM Snapshot.readBack? = some read.entries ∧ read.cursor = history.cursor :=
  (parts_of_written stored regular back).1

private theorem isSome_entries_iff (regular : ∀ entry ∈ history.entries, entry.Regular) :
    (history.entries.mapM Snapshot.readBack?).isSome = true ↔
      ∀ entry ∈ history.entries, entry.Readable := by
  rw [isSome_mapM]
  exact forall₂_congr (fun entry member => Snapshot.isSome_readBack?_iff (regular entry member))

private theorem readable_of_historyOfText (stored : Record.ofHistory? history = some record)
    (regular : ∀ entry ∈ history.entries, entry.Regular) {read : History}
    (back : historyOfText record.write = .ok read) : history.Readable := by
  obtain ⟨⟨entriesBack, _⟩, small⟩ := parts_of_written stored regular back
  exact ⟨small, (isSome_entries_iff regular).mp (by rw [entriesBack]; rfl)⟩

private theorem exists_historyOfText (stored : Record.ofHistory? history = some record)
    (regular : ∀ entry ∈ history.entries, entry.Regular)
    (unique : ∀ entry ∈ history.entries, entry.project.hasUniqueIds = true)
    (readable : history.Readable) : ∃ read, historyOfText record.write = .ok read := by
  obtain ⟨small, all⟩ := readable
  obtain ⟨entries, entriesBack⟩ :=
    Option.isSome_iff_exists.mp ((isSome_entries_iff regular).mpr all)
  obtain ⟨entry, current, rfl⟩ := Option.map_eq_some_iff.mp stored
  have inside := History.mem_of_current? current
  have own := regular entry inside
  have text := Record.read?_write
    ⟨entry.project, entry.state, entry.active, history.entries, history.cursor⟩ own.files
    (fun other member => (regular other member).files)
  have room : entry.state.depth ≤ Json.depthLimit - 1 :=
    Nat.le_trans (all entry inside).depth (by decide)
  obtain ⟨state, stateBack⟩ := Option.isSome_iff_exists.mp
    ((Json.isSome_reread?_iff entry.state (Json.depthLimit - 1) own.state).mpr
      ⟨room, (all entry inside).doubles⟩)
  rw [stateBack, entriesBack, Option.bind_some, Option.bind_some, if_pos small] at text
  have inRange : History.InRange ⟨entries, history.cursor⟩ := by
    show history.cursor < entries.length
    rw [length_of_mapM entriesBack]
    exact History.inRange_of_current? current
  have uniqueBack : ∀ other ∈ entries, other.project.hasUniqueIds = true := by
    intro other member
    obtain ⟨source, sourceMember, back⟩ := mem_of_mapM entriesBack member
    rw [(Snapshot.same_of_readBack? back).1]
    exact unique source sourceMember
  refine ⟨⟨entries, history.cursor⟩, historyOfText_eq_ok_iff.mpr ⟨_, text, ?_, rfl⟩⟩
  refine ⟨List.ne_nil_of_length_pos (Nat.zero_lt_of_lt inRange), inRange, ?_, ?_⟩
  · exact Project.hasUniqueIds_iff.mp (unique entry inside)
  · exact fun other member => Project.hasUniqueIds_iff.mp (uniqueBack other member)

/-- The text of a written history is accepted exactly if its cursor fits a word and all its states are
read. -/
theorem historyOfText_write_isOk (stored : Record.ofHistory? history = some record)
    (regular : ∀ entry ∈ history.entries, entry.Regular)
    (unique : ∀ entry ∈ history.entries, entry.project.hasUniqueIds = true) :
    (∃ read, historyOfText record.write = .ok read) ↔ history.Readable :=
  ⟨fun ⟨_, back⟩ => readable_of_historyOfText stored regular back,
    exists_historyOfText stored regular unique⟩

end Written

variable {σ : Type} [Storage σ]

theorem storedHistory?_eq_ok {storage : σ} {history : History} :
    storedHistory? storage = .ok (some history) ↔
      ∃ text, Storage.load storage storageKey = .ok (some text) ∧
        historyOfText text = .ok history := by
  unfold storedHistory?
  constructor
  · intro found
    split at found
    · cases found
    · cases found
    · rename_i text loaded
      split at found
      · cases found
      · rename_i read
        cases found
        exact ⟨text, loaded, read⟩
  · rintro ⟨text, loaded, read⟩
    rw [loaded]
    dsimp only
    rw [read]

theorem storedHistory?_inRange {storage : σ} {history : History}
    (stored : storedHistory? storage = .ok (some history)) : history.InRange := by
  obtain ⟨text, _, read⟩ := storedHistory?_eq_ok.mp stored
  obtain ⟨_, _, _, inRange, _⟩ := historyOfText_eq_ok read
  exact inRange

theorem storedHistory?_congr {one other : σ}
    (same : Storage.load one storageKey = Storage.load other storageKey) :
    storedHistory? one = storedHistory? other := by
  unfold storedHistory?
  rw [same]

/-- A workspace that is opened on a readable history has that history and makes its current entry
live. Nothing is written. -/
theorem openOn_of_stored {storage : σ} {history : History}
    (stored : storedHistory? storage = .ok (some history)) (now : UInt64) :
    ∃ entry, history.current? = some entry ∧ entry ∈ history.entries ∧
      openOn storage now = ⟨storage, entry.project, entry.state, entry.active, history,
        ⟨.ok, "Project loaded from storage"⟩⟩ := by
  obtain ⟨entry, member, current⟩ :=
    History.current?_of_inRange (storedHistory?_inRange stored)
  refine ⟨entry, current, member, ?_⟩
  unfold openOn
  rw [stored]
  dsimp only
  rw [current]
  rfl

theorem unread_of_error {storage : σ} {error : StorageError}
    (rejected : storedHistory? storage = .error error) (history : History) :
    storedHistory? storage ≠ .ok (some history) := by
  rw [rejected]
  exact fun found => nomatch found

theorem openOn_of_unread {storage : σ}
    (unread : ∀ history, storedHistory? storage ≠ .ok (some history)) (now : UInt64) :
    PersistsTo (fresh storage now).record (openOn storage now) := by
  unfold openOn
  split
  · rename_i history stored
    exact absurd stored (unread history)
  · exact commit_persists _ _
  · have persists := (fresh storage now).snapshot_persists
    dsimp only
    cases taken : (fresh storage now).snapshot with
    | mk result after =>
      rw [taken] at persists
      cases result with
      | ok _ => exact persists.report _ _
      | error error => exact persists

theorem writesOfOpening_of_stored {storage : σ} {history : History}
    (stored : storedHistory? storage = .ok (some history)) (now : UInt64) :
    writesOfOpening storage now = [] := by
  unfold writesOfOpening
  rw [stored]

theorem writesOfOpening_of_unread {storage : σ}
    (unread : ∀ history, storedHistory? storage ≠ .ok (some history)) (now : UInt64) :
    writesOfOpening storage now = (fresh storage now).record.writes := by
  have first : (fresh storage now).writesTo (openOn storage now) =
      (fresh storage now).record.writes := (openOn_of_unread unread now).writesTo_eq rfl
  unfold writesOfOpening
  split
  · rename_i history found
    exact absurd found (unread history)
  · exact first

private theorem commit_status (workspace : Workspace σ) (message : String) :
    (workspace.commit message).status = ⟨.ok, message⟩ ∨
      (workspace.commit message).status.kind = .error := by
  unfold commit snapshot
  cases stored : workspace.record.persist with
  | mk result after =>
    cases result with
    | ok _ => exact Or.inl rfl
    | error error => exact Or.inr rfl

theorem openOn_status_of_error {storage : σ} {error : StorageError}
    (rejected : storedHistory? storage = .error error) (now : UInt64) :
    (openOn storage now).status.kind = .error := by
  unfold openOn
  rw [rejected]
  dsimp only
  unfold snapshot
  cases stored : (fresh storage now).record.persist with
  | mk result after => cases result <;> rfl

theorem openOn_status_iff (storage : σ) (now : UInt64) :
    (openOn storage now).status = ⟨.ok, "Project loaded from storage"⟩ ↔
      ∃ history, storedHistory? storage = .ok (some history) := by
  constructor
  · intro status
    cases found : storedHistory? storage with
    | error error =>
      have kind := openOn_status_of_error found now
      rw [status] at kind
      cases kind
    | ok history? =>
      cases history? with
      | some history => exact ⟨history, rfl⟩
      | none =>
        unfold openOn at status
        rw [found] at status
        dsimp only at status
        rcases commit_status (fresh storage now) "New project created" with created | failed
        · rw [status] at created
          exact absurd (congrArg Status.message created) (by decide)
        · rw [status] at failed
          cases failed
  · rintro ⟨history, found⟩
    obtain ⟨entry, _, _, equal⟩ := openOn_of_stored found now
    rw [equal]

variable {holds : Snapshot → Prop}

/-- What holds of the first snapshot and of the stored entries holds of an opened workspace. -/
theorem keeps_openOn {storage : σ} (now : UInt64)
    (first : holds ⟨Project.initial now, initialState, some Screen.initialId⟩)
    (stored : ∀ history, storedHistory? storage = .ok (some history) →
      ∀ entry ∈ history.entries, holds entry) : Keeps holds (openOn storage now) := by
  by_cases read : ∃ history, storedHistory? storage = .ok (some history)
  · obtain ⟨history, found⟩ := read
    obtain ⟨entry, current, member, equal⟩ := openOn_of_stored found now
    rw [equal]
    exact ⟨⟨entry, current, rfl, rfl⟩, stored history found entry member, stored history found⟩
  · refine (openOn_of_unread (fun history found => read ⟨history, found⟩) now).keeps ?_
    exact keeps_record first (fun entry member => nomatch member)

theorem writesKeep_openOn {storage : σ} (now : UInt64)
    (first : holds ⟨Project.initial now, initialState, some Screen.initialId⟩) :
    WritesKeep holds (writesOfOpening storage now) := by
  by_cases read : ∃ history, storedHistory? storage = .ok (some history)
  · obtain ⟨history, found⟩ := read
    rw [writesOfOpening_of_stored found now]
    exact fun write member => nomatch member
  · rw [writesOfOpening_of_unread (fun history found => read ⟨history, found⟩) now]
    exact (keeps_record first (fun entry member => nomatch member)).writes

/-- What holds of the first snapshot and of the stored entries, and is kept by every change, holds of
everything that a run leads to and writes. -/
theorem Run.keeps {storage : σ} {workspace : Workspace σ} {log : List Write}
    (run : Run storage workspace log) (kept : Kept σ holds)
    (first : ∀ now, holds ⟨Project.initial now, initialState, some Screen.initialId⟩)
    (stored : ∀ history, storedHistory? storage = .ok (some history) →
      ∀ entry ∈ history.entries, holds entry) :
    Keeps holds workspace ∧ WritesKeep holds log := by
  induction run with
  | opened now =>
    exact ⟨keeps_openOn now (first now) stored, writesKeep_openOn now (first now)⟩
  | operated run operation allowed ih =>
    have path := path_apply _ operation allowed
    refine ⟨path.keeps kept ih.1, ?_⟩
    intro write member
    rcases List.mem_append.mp member with new | old
    · exact path.writesKeep kept ih.1 write new
    · exact ih.2 write old
  | switched run other same ih => exact ⟨⟨ih.1.current, ih.1.live, ih.1.entries⟩, ih.2⟩

theorem Run.keeps_current {storage : σ} {workspace : Workspace σ} {log : List Write}
    (run : Run storage workspace log) : Keeps (fun _ => True) workspace :=
  (run.keeps kept_true (fun _ => trivial) (fun _ _ _ _ => trivial)).1

end Workspace

end ScreenStudio
