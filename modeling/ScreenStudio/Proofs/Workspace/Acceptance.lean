/- digest: Opening takes exactly the valid records, and starts anew on every other text. -/

import ScreenStudio.Proofs.Workspace.Restart

/-!
A record is valid if it has an entry under its cursor and no project in it, its own included, has two
screens with one identifier. Opening takes a valid record as it stands: the history is that of the
record, and what is live comes from the current entry, whatever the record says beside the history.
Any other stored text is replaced by the record of one new snapshot, and that one is valid.
-/

set_option autoImplicit false
set_option relaxedAutoImplicit false

namespace ScreenStudio

/-- What a new workspace shows. -/
def Snapshot.initial (now : UInt64) : Snapshot :=
  ⟨Project.initial now, initialState, some Screen.initialId⟩

/-- The record of a workspace that was never changed. -/
def Record.initial (now : UInt64) : Record :=
  ⟨Project.initial now, initialState, some Screen.initialId, [Snapshot.initial now], 0⟩

namespace Workspace

/-- The record of a workspace that was never changed is valid, and it is read as it was written. -/
theorem historyOfText_initial (now : UInt64) :
    historyOfText (Record.initial now).write = .ok ⟨[Snapshot.initial now], 0⟩ := by
  have stored : Record.ofHistory? ⟨[Snapshot.initial now], 0⟩ = some (Record.initial now) := rfl
  have regular : ∀ entry ∈ [Snapshot.initial now], entry.Regular :=
    List.forall_mem_singleton.mpr (regular_first now)
  have unique : ∀ entry ∈ [Snapshot.initial now], entry.project.hasUniqueIds = true :=
    List.forall_mem_singleton.mpr (by
      show decide (List.Nodup [Screen.initialId]) = true
      decide)
  have numbers : ∀ entry ∈ [Snapshot.initial now], entry.state.AllDoubles Json.ReadsBack :=
    List.forall_mem_singleton.mpr ⟨trivial, trivial, trivial⟩
  have shallow : initialState.depth ≤ Snapshot.stateRoom := by decide
  have readable : History.Readable ⟨[Snapshot.initial now], 0⟩ :=
    ⟨Nat.two_pow_pos 64, List.forall_mem_singleton.mpr ⟨shallow, trivial, trivial, trivial⟩⟩
  obtain ⟨⟨entries, cursor⟩, read⟩ :=
    (historyOfText_write_isOk stored regular unique).mpr readable
  obtain ⟨entriesBack, cursorBack⟩ := historyOfText_write stored regular read
  have entriesSame := Snapshot.eq_of_mapM_readBack? regular numbers entriesBack
  dsimp only at entriesSame cursorBack
  rw [read, entriesSame, cursorBack]

variable {σ : Type} [Storage σ]

/-- The workspace that takes a history as it stands, with its current entry live. -/
def loaded (storage : σ) (history : History) (current : Snapshot) : Workspace σ :=
  ⟨storage, current.project, current.state, current.active, history,
    ⟨.ok, "Project loaded from storage"⟩⟩

theorem openOn_of_valid {storage : σ} {text : String}
    (stored : Storage.load storage storageKey = .ok (some text)) {record : Record}
    (read : Record.read? text = some record) (valid : record.Valid) (now : UInt64) :
    ∃ entry, record.history[record.historyIndex]? = some entry ∧
      openOn storage now = loaded storage ⟨record.history, record.historyIndex⟩ entry ∧
      writesOfOpening storage now = [] := by
  have found : storedHistory? storage = .ok (some ⟨record.history, record.historyIndex⟩) :=
    storedHistory?_eq_ok.mpr ⟨text, stored, historyOfText_eq_ok_iff.mpr ⟨record, read, valid, rfl⟩⟩
  obtain ⟨entry, current, _, opened⟩ := openOn_of_stored found now
  exact ⟨entry, current, opened, writesOfOpening_of_stored found now⟩

theorem storedHistory?_of_invalid {storage : σ} {text : String}
    (stored : Storage.load storage storageKey = .ok (some text))
    (invalid : ¬∃ record, Record.read? text = some record ∧ record.Valid) :
    ∃ error, storedHistory? storage = .error error := by
  unfold storedHistory?
  rw [stored]
  dsimp only
  cases accepted : historyOfText text with
  | error error => exact ⟨error, rfl⟩
  | ok history =>
    obtain ⟨record, read, valid, _⟩ := historyOfText_eq_ok_iff.mp accepted
    exact absurd ⟨record, read, valid⟩ invalid

theorem load_openOn_of_error [LawfulStorage σ] {storage : σ} {error : StorageError}
    (rejected : storedHistory? storage = .error error) (now : UInt64)
    (writable : (Storage.save storage storageKey (Record.initial now).write).1 = .ok ()) :
    Storage.load (openOn storage now).storage storageKey =
      .ok (some (Record.initial now).write) := by
  obtain ⟨status, opened⟩ := openOn_of_unread (unread_of_error rejected) now
  rw [opened]
  exact LawfulStorage.load_of_ok storage storageKey (Record.initial now).write writable

/-- Opening takes the text of a valid record as it stands and writes nothing: what is live comes from
the entry under the cursor. On every other text it reports an error and starts anew; the record of the
one new snapshot takes the place of the text if it can be written, and is taken by whoever opens it. -/
theorem opening_accepts_valid_records [LawfulStorage σ] {storage : σ} {text : String}
    (stored : Storage.load storage storageKey = .ok (some text)) (now : UInt64) :
    (∀ record, Record.read? text = some record → record.Valid →
      ∃ entry, record.history[record.historyIndex]? = some entry ∧
        openOn storage now = loaded storage ⟨record.history, record.historyIndex⟩ entry ∧
        writesOfOpening storage now = []) ∧
      ((¬∃ record, Record.read? text = some record ∧ record.Valid) →
        (openOn storage now).live = Snapshot.initial now ∧
          (openOn storage now).history = ⟨[Snapshot.initial now], 0⟩ ∧
          (openOn storage now).status.kind = .error ∧
          ((Storage.save storage storageKey (Record.initial now).write).1 = .ok () →
            Storage.load (openOn storage now).storage storageKey =
                .ok (some (Record.initial now).write) ∧
              ∀ (copy : σ) (later : UInt64),
                Storage.load copy storageKey =
                    Storage.load (openOn storage now).storage storageKey →
                  openOn copy later =
                    loaded copy ⟨[Snapshot.initial now], 0⟩ (Snapshot.initial now))) := by
  refine ⟨fun record read valid => openOn_of_valid stored read valid now, fun invalid => ?_⟩
  obtain ⟨error, rejected⟩ := storedHistory?_of_invalid stored invalid
  have persists := openOn_of_unread (unread_of_error rejected) now
  refine ⟨persists.live_eq, persists.history_eq, openOn_status_of_error rejected now, ?_⟩
  intro writable
  have rewritten := load_openOn_of_error rejected now writable
  refine ⟨rewritten, fun copy later same => ?_⟩
  have found := storedHistory?_eq_ok.mpr
    ⟨_, same.trans rewritten, historyOfText_initial now⟩
  obtain ⟨entry, current, _, opened⟩ := openOn_of_stored found later
  cases current
  exact opened

/-- A record is loaded although what it says beside its history is not in the history, and it is not
loaded once its own project has two screens with one identifier. -/
theorem doubled_screen_is_rejected :
    let entry : Snapshot := ⟨Project.initial 0, .text "recorded", none⟩
    let record : Record :=
      ⟨Project.initial 1, .text "beside", some "s_none", [Snapshot.initial 0, entry], 1⟩
    let doubled : Record := { record with project := ⟨[Screen.initial 1, Screen.initial 2], []⟩ }
    let holding (record : Record) := (MemoryStorage.empty.save storageKey record.write).2
    openOn (holding record) 5 = loaded (holding record) ⟨record.history, 1⟩ entry ∧
      (openOn (holding doubled) 5).status.kind = .error ∧
      openOn (openOn (holding doubled) 5).storage 6 =
        loaded (openOn (holding doubled) 5).storage ⟨[Snapshot.initial 5], 0⟩
          (Snapshot.initial 5) := by
  intro entry record doubled holding
  have stored (record : Record) :
      Storage.load (holding record) storageKey = .ok (some record.write) :=
    LawfulStorage.load_of_ok MemoryStorage.empty storageKey record.write rfl
  have files : ∀ snapshot ∈ [Snapshot.initial 0, entry],
      Dictionary.Ascending snapshot.project.files := by
    refine List.forall_mem_cons.mpr ⟨?_, List.forall_mem_singleton.mpr ?_⟩
    · exact Dictionary.ascending_nil
    · exact Dictionary.ascending_nil
  have recordRead : Record.read? record.write = some record := by
    rw [Record.read?_write record Dictionary.ascending_nil files]
    rfl
  have doubledRead : Record.read? doubled.write = some doubled := by
    rw [Record.read?_write doubled Dictionary.ascending_nil files]
    rfl
  have valid : record.Valid := by
    refine ⟨by decide, by decide, by decide, ?_⟩
    exact List.forall_mem_cons.mpr ⟨by decide, List.forall_mem_singleton.mpr (by decide)⟩
  have invalid : ¬∃ record, Record.read? doubled.write = some record ∧ record.Valid := by
    rintro ⟨other, read, valid⟩
    have same : doubled = other := Option.some.inj (doubledRead.symm.trans read)
    have twice : ¬[Screen.initialId, Screen.initialId].Nodup := by decide
    rw [← same] at valid
    exact twice valid.own
  obtain ⟨current, under, opened, _⟩ :=
    (opening_accepts_valid_records (stored record) 5).1 record recordRead valid
  cases under
  obtain ⟨_, _, status, again⟩ := (opening_accepts_valid_records (stored doubled) 5).2 invalid
  exact ⟨opened, status, (again rfl).2 _ 6 rfl⟩

end Workspace

end ScreenStudio
