/- digest: A written record is read back entry by entry, unless a state is too deep. -/

import ScreenStudio.Record
import ScreenStudio.Proofs.Json.Shape

set_option autoImplicit false
set_option relaxedAutoImplicit false

namespace ScreenStudio

theorem isSome_mapM {α β : Type} {f : α → Option β} {values : List α} :
    (values.mapM f).isSome = true ↔ ∀ value ∈ values, (f value).isSome = true := by
  induction values with
  | nil => simp
  | cons value rest ih =>
    rw [List.mapM_cons, List.forall_mem_cons, ← ih]
    cases f value with
    | none => simp
    | some first => cases rest.mapM f <;> simp

theorem mapM_cons_eq_some {α β : Type} {f : α → Option β} {value : α} {rest : List α}
    {results : List β} (mapped : (value :: rest).mapM f = some results) :
    ∃ first others, f value = some first ∧ rest.mapM f = some others ∧
      results = first :: others := by
  simp only [List.mapM_cons, Option.bind_eq_bind, Option.bind_eq_some_iff, Option.pure_def,
    Option.some.injEq] at mapped
  obtain ⟨first, firstRead, others, othersRead, rfl⟩ := mapped
  exact ⟨first, others, firstRead, othersRead, rfl⟩

theorem length_of_mapM {α β : Type} {f : α → Option β} {values : List α} {results : List β}
    (mapped : values.mapM f = some results) : results.length = values.length := by
  induction values generalizing results with
  | nil =>
    cases mapped
    rfl
  | cons value rest ih =>
    obtain ⟨first, others, _, read, rfl⟩ := mapM_cons_eq_some mapped
    rw [List.length_cons, List.length_cons, ih read]

theorem mem_of_mapM {α β : Type} {f : α → Option β} {values : List α} {results : List β}
    (mapped : values.mapM f = some results) {result : β} (member : result ∈ results) :
    ∃ value ∈ values, f value = some result := by
  induction values generalizing results with
  | nil =>
    cases mapped
    cases member
  | cons value rest ih =>
    obtain ⟨first, others, firstRead, read, rfl⟩ := mapM_cons_eq_some mapped
    rcases List.mem_cons.mp member with rfl | behind
    · exact ⟨value, List.mem_cons_self, firstRead⟩
    · obtain ⟨source, inside, back⟩ := ih read behind
      exact ⟨source, List.mem_cons_of_mem _ inside, back⟩

/-- A snapshot that is written as it stands: its files are a dictionary and its state is regular. -/
structure Snapshot.Regular (snapshot : Snapshot) : Prop where
  files : Dictionary.Ascending snapshot.project.files
  state : snapshot.state.Regular

/-- How many containers of the state of a snapshot the reader of records has room for. -/
def Snapshot.stateRoom : Nat := 124

/-- The state of a snapshot is accepted when the record is read. -/
structure Snapshot.Readable (snapshot : Snapshot) : Prop where
  depth : snapshot.state.depth ≤ stateRoom
  doubles : snapshot.state.AllDoubles Json.IsReadable

/-- What the reader of records makes of a written snapshot. -/
def Snapshot.readBack? (snapshot : Snapshot) : Option Snapshot :=
  (Json.reread? stateRoom snapshot.state).map (fun state => { snapshot with state := state })

namespace Json.Reader

private theorem word_rereads (room : Nat) (value : UInt64) :
    Rereads word room (.integer value.toNat) (some value) := by
  have read := (natural_rereads "u64" room value.toNat).mapValue UInt64.ofNat
  rw [if_pos value.toNat_lt, Option.map_some, UInt64.ofNat_toNat] at read
  exact read

private theorem active_rereads (room : Nat) (active : Option String) :
    Rereads optionalText room (Json.optionalText active) (some active) := by
  cases active with
  | none => exact optionalText_null_rereads room
  | some value => exact optionalText_rereads room value

private theorem mapM_some {α : Type} (values : List α) : values.mapM some = some values := by
  simpa using List.mapM_pure (m := Option) (l := values) (f := id)

private theorem screen_rereads (room : Nat) (value : Screen) :
    Rereads screen (room + 1) value.toJson (some value) := by
  have written : Shape.Written room screenFields
      [("id", .text value.id), ("name", .text value.name), ("compose", .text value.source),
        ("createdAt", .integer value.createdAt.toNat)] _ :=
    .cons (text_rereads room value.id) (.cons (text_rereads room value.name)
      (.cons (text_rereads room value.source) (.cons (word_rereads room value.createdAt) .nil
        (by simp)) (by simp)) (by simp)) (by simp)
  exact Shape.reader_rereads written rfl

private theorem project_rereads {value : Project} (ascending : Dictionary.Ascending value.files) (room : Nat) :
    Rereads project (room + 3) value.toJson (some value) := by
  have screens : Rereads (list screen) (room + 2) (.array (value.screens.map Screen.toJson)) _ :=
    list_rereads (fun screen _ => screen_rereads room screen)
  rw [mapM_some] at screens
  have files : Rereads (dictionary text) (room + 2)
      (.object (value.files.map (fun entry => (entry.1, .text entry.2)))) _ :=
    dictionary_rereads (fun entry _ => text_rereads (room + 1) entry.2)
  have same : (value.files.mapM (fun entry => (some entry.2).map (entry.1, ·))).map Dictionary.ofEntries =
      some value.files := by
    have entries : value.files.mapM (fun entry => (some entry.2).map (entry.1, ·)) = some value.files :=
      mapM_some value.files
    rw [entries, Option.map_some, Dictionary.ofEntries_of_ascending ascending]
  rw [same] at files
  have written : Shape.Written (room + 2) projectFields
      [("screens", .array (value.screens.map Screen.toJson)),
        ("files", .object (value.files.map (fun entry => (entry.1, .text entry.2))))] _ :=
    .cons screens (.cons files .nil (by simp)) (by simp)
  exact Shape.reader_rereads written rfl

private theorem snapshot_rereads {value : Snapshot} (ascending : Dictionary.Ascending value.project.files) :
    Rereads snapshot (Snapshot.stateRoom + 1) value.toJson value.readBack? := by
  have written : Shape.Written Snapshot.stateRoom snapshotFields
      [("project", value.project.toJson), ("state", value.state),
        ("activeScreenId", Json.optionalText value.active)] _ :=
    .cons (project_rereads ascending 121) (.cons (document_rereads value.state Snapshot.stateRoom)
      (.cons (active_rereads Snapshot.stateRoom value.active) .nil (by simp)) (by simp)) (by simp)
  refine Shape.reader_rereads written ?_
  unfold Snapshot.readBack?
  cases reread? Snapshot.stateRoom value.state <;> rfl

private theorem record_rereads {value : Record} (ascending : Dictionary.Ascending value.project.files)
    (entries : ∀ snapshot ∈ value.history, Dictionary.Ascending snapshot.project.files) :
    Rereads record depthLimit value.toJson
      ((reread? (depthLimit - 1) value.state).bind (fun state =>
        (value.history.mapM Snapshot.readBack?).bind (fun history =>
          if value.historyIndex < 2 ^ 64 then some { value with state := state, history := history }
          else none))) := by
  have history : Rereads (list snapshot) (depthLimit - 1) (.array (value.history.map Snapshot.toJson)) _ :=
    list_rereads (fun snapshot inside => snapshot_rereads (entries snapshot inside))
  have written : Shape.Written (depthLimit - 1) recordFields
      [("project", value.project.toJson), ("state", value.state),
        ("activeScreenId", Json.optionalText value.active),
        ("history", .array (value.history.map Snapshot.toJson)),
        ("historyIndex", .integer value.historyIndex)] _ :=
    .cons (project_rereads ascending 123) (.cons (document_rereads value.state (depthLimit - 1))
      (.cons (active_rereads (depthLimit - 1) value.active) (.cons history
        (.cons (natural_rereads "usize" (depthLimit - 1) value.historyIndex) .nil (by simp))
        (by simp)) (by simp)) (by simp)) (by simp)
  refine Shape.reader_rereads written ?_
  cases reread? (depthLimit - 1) value.state with
  | none => rfl
  | some state =>
    cases value.history.mapM Snapshot.readBack? with
    | none => rfl
    | some history =>
      by_cases small : value.historyIndex < 2 ^ 64
      · simp only [small, if_true]
        rfl
      · simp only [small, if_false]
        rfl

end Json.Reader

theorem Snapshot.isSome_readBack?_iff {snapshot : Snapshot} (regular : snapshot.Regular) :
    snapshot.readBack?.isSome = true ↔ snapshot.Readable := by
  unfold readBack?
  rw [Option.isSome_map, Json.isSome_reread?_iff snapshot.state stateRoom regular.state]
  exact ⟨fun ⟨depth, doubles⟩ => ⟨depth, doubles⟩, fun readable => ⟨readable.depth, readable.doubles⟩⟩

theorem Snapshot.eq_of_readBack? {snapshot read : Snapshot} (regular : snapshot.Regular)
    (doubles : snapshot.state.AllDoubles Json.ReadsBack)
    (back : snapshot.readBack? = some read) : read = snapshot := by
  obtain ⟨state, stateBack, rfl⟩ := Option.map_eq_some_iff.mp back
  rw [Json.eq_of_reread? snapshot.state state stateRoom regular.state doubles stateBack]

theorem Snapshot.same_of_readBack? {snapshot read : Snapshot}
    (back : snapshot.readBack? = some read) :
    read.project = snapshot.project ∧ read.active = snapshot.active := by
  obtain ⟨state, _, rfl⟩ := Option.map_eq_some_iff.mp back
  exact ⟨rfl, rfl⟩

theorem Snapshot.eq_of_mapM_readBack? {snapshots read : List Snapshot}
    (regular : ∀ snapshot ∈ snapshots, snapshot.Regular)
    (doubles : ∀ snapshot ∈ snapshots, snapshot.state.AllDoubles Json.ReadsBack)
    (back : snapshots.mapM readBack? = some read) : read = snapshots := by
  induction snapshots generalizing read with
  | nil =>
    cases back
    rfl
  | cons snapshot rest ih =>
    obtain ⟨first, others, firstBack, othersBack, rfl⟩ := mapM_cons_eq_some back
    rw [List.forall_mem_cons] at regular doubles
    rw [eq_of_readBack? regular.1 doubles.1 firstBack, ih regular.2 doubles.2 othersBack]

namespace Record

theorem read?_write (record : Record) (ascending : Dictionary.Ascending record.project.files)
    (entries : ∀ snapshot ∈ record.history, Dictionary.Ascending snapshot.project.files) :
    read? record.write =
      (Json.reread? (Json.depthLimit - 1) record.state).bind (fun state =>
        (record.history.mapM Snapshot.readBack?).bind (fun history =>
          if record.historyIndex < 2 ^ 64 then
            some { record with state := state, history := history }
          else none)) := by
  have back := Json.Reader.record_rereads ascending entries
    (record.toJson.compactChars.length + 1) [] (Nat.le_succ _) Json.endsNumber_nil
  rw [List.append_nil] at back
  exact Json.toOption_readWhole back

end Record

namespace Json.Reader

private theorem project_ascending {fuel room : Nat} {cs rest : List Char} {value : Project}
    (done : project fuel room cs = .ok (value, rest)) : Dictionary.Ascending value.files := by
  obtain ⟨⟨screens, files, _⟩, ⟨_, given, _⟩, rfl⟩ := Shape.given_of_reader done
  rcases given with ⟨steps, room, body, behind, read⟩ | missing
  · exact dictionary_ascending read
  · cases missing
    exact Dictionary.ascending_nil

private theorem snapshot_regular {fuel room : Nat} {cs rest : List Char} {value : Snapshot}
    (done : snapshot fuel room cs = .ok (value, rest)) : value.Regular := by
  obtain ⟨⟨project, state, active, _⟩, ⟨projectGiven, stateGiven, _⟩, rfl⟩ := Shape.given_of_reader done
  rcases projectGiven with ⟨_, _, _, _, projectRead⟩ | missing
  · rcases stateGiven with ⟨steps, room, body, behind, stateRead⟩ | missing
    · exact ⟨project_ascending projectRead, document_regular steps room body state behind stateRead⟩
    · cases missing
  · cases missing

private theorem record_regular {fuel room : Nat} {cs rest : List Char} {value : Record}
    (done : record fuel room cs = .ok (value, rest)) : ∀ snapshot ∈ value.history, snapshot.Regular := by
  obtain ⟨⟨project, state, active, history, index, _⟩, ⟨_, _, _, given, _⟩, rfl⟩ := Shape.given_of_reader done
  rcases given with ⟨_, _, _, _, read⟩ | missing
  · exact list_each (fun _ _ _ _ _ found => snapshot_regular found) read
  · cases missing

end Json.Reader

theorem Record.regular_of_read? {text : String} {record : Record} (read : read? text = some record) :
    ∀ snapshot ∈ record.history, snapshot.Regular := by
  have found := Json.toOption_eq_some.mp read
  unfold Record.read Json.readWhole at found
  dsimp only at found
  split at found
  · cases found
  · rename_i value rest done
    split at found
    · cases found
      exact Json.Reader.record_regular done
    · cases found

end ScreenStudio
