/- digest: A storage in files answers as one in memory does, whichever operations of its saves fail. -/

import ScreenStudio.Proofs.Storage.Opening
import ScreenStudio.Storage.Files

/-!
A save makes the directory, writes a temporary file and moves it. Each of these can fail by mishap, and leave
some of the directories or some text in the temporary file. Until the first save gets to write, nothing is in
the directory. From then on its entries are temporary files, which no key means, and for each key that was saved
a file with the text saved last, because moving the temporary file changes both at once. So loads are answered
from these entries as a storage in memory answers them that only knows of the saves that succeeded.
-/

set_option autoImplicit false
set_option relaxedAutoImplicit false

namespace ScreenStudio

open FileSystem (DirectoryAt IsName Lists Opened Stage Takes Vacant createAlong createDirectories join way)

namespace FileStorage

section Requests

/-- How an operation of a save fails by mishap, and what it leaves: some of the directories are made, the
temporary file stays as it is or has some text, or the file is not moved. -/
inductive Mishap
  | creating (error : FileError) (made : Nat)
  | writing (error : FileError) (left : Option String)
  | moving (error : FileError)

namespace Mishap

/-- Which operation of a save fails. -/
def position : Mishap → Nat
  | .creating _ _ => 0
  | .writing _ _ => 1
  | .moving _ => 2

/-- The operation that fails. -/
def step (base key : String) : Mishap → FileSystem → FileSystem.Step
  | .creating error made, system =>
    (.error error, (createAlong (system.start base) ((way base).take made) system).2)
  | .writing error none, system => (.error error, system)
  | .writing error (some left), system =>
    (.error error, (FileSystem.write (temporaryPath base key) left system).2)
  | .moving error, system => (.error error, system)

end Mishap

/-- A save of which an operation may fail by mishap. -/
def saveDespite (mishap : Option Mishap) (storage : FileStorage) (key value : String) :
    Except StorageError Unit × FileStorage :=
  match mishap with
  | none => storage.save key value
  | some mishap =>
    storage.perform key ((saveSteps storage.base key value).set mishap.position (mishap.step storage.base key))

/-- What a storage is asked for. -/
inductive Request
  | save (key value : String) (mishap : Option Mishap)
  | load (key : String)

def Request.key : Request → String
  | .save key _ _ => key
  | .load key => key

/-- What comes of a request. -/
inductive Report
  | saved (key value : String)
  | failed (key : String) (error : StorageError)
  | loaded (key : String) (answer : Except StorageError (Option String))

def serve (storage : FileStorage) : Request → Report × FileStorage
  | .save key value mishap =>
    match saveDespite mishap storage key value with
    | (.ok _, after) => (.saved key value, after)
    | (.error error, after) => (.failed key error, after)
  | .load key => (.loaded key (storage.load key), storage)

/-- Serve requests one after the other. -/
def run (storage : FileStorage) : List Request → List Report × FileStorage
  | [] => ([], storage)
  | request :: rest =>
    let first := storage.serve request
    let others := run first.2 rest
    (first.1 :: others.1, others.2)

namespace Report

/-- The value that was saved under a key, if the report is of a save under this key that succeeded. -/
def value? (key : String) : Report → Option String
  | .saved other value => if other = key then some value else none
  | _ => none

/-- A storage in memory after a report: it only knows of saves that succeeded. -/
def remember (memory : MemoryStorage) : Report → MemoryStorage
  | .saved key value => (Storage.save memory key value).2
  | _ => memory

end Report

/-- The value of the last save under a key that succeeded. -/
def lastSaved (key : String) (reports : List Report) : Option String :=
  (reports.filterMap (Report.value? key)).getLast?

/-- The storage in memory in which the saves that succeeded were made. -/
def remembered (reports : List Report) : MemoryStorage := reports.foldl Report.remember .empty

end Requests

section Memory

theorem get?_save {memory : MemoryStorage} (writable : memory.readOnly = false) (key value other : String) :
    Dictionary.get? other (Storage.save memory key value).2.entries =
      if key = other then some value else Dictionary.get? other memory.entries := by
  have did : (Storage.save memory key value).2.entries = Dictionary.insert key value memory.entries := by
    show (memory.save key value).2.entries = _
    rw [MemoryStorage.save, if_neg (Bool.eq_false_iff.mp writable)]
  rw [did]
  split
  · rename_i same
    rw [← same, Dictionary.get?_insert_self]
  · rename_i different
    rw [Dictionary.get?_insert_of_ne (Ne.symm different)]

theorem readOnly_save (memory : MemoryStorage) (key value : String) :
    (Storage.save memory key value).2.readOnly = memory.readOnly := by
  show (memory.save key value).2.readOnly = _
  unfold MemoryStorage.save
  split <;> rfl

theorem readOnly_remembered (reports : List Report) : (remembered reports).readOnly = false := by
  induction reports using List.reverseRecOn with
  | nil => rfl
  | append_singleton before report ih =>
    rw [remembered, List.foldl_append]
    cases report with
    | saved key value => exact (readOnly_save _ key value).trans ih
    | failed | loaded => exact ih

theorem get?_remembered (key : String) (reports : List Report) :
    Dictionary.get? key (remembered reports).entries = lastSaved key reports := by
  induction reports using List.reverseRecOn with
  | nil => rfl
  | append_singleton before report ih =>
    rw [remembered, List.foldl_append, lastSaved, List.filterMap_append, List.getLast?_append]
    cases report with
    | saved other value =>
      show Dictionary.get? key (Storage.save (remembered before) other value).2.entries = _
      rw [get?_save (readOnly_remembered before), ih]
      by_cases same : other = key
      · subst same
        simp [Report.value?]
      · simp [Report.value?, same, lastSaved]
    | failed | loaded =>
      rw [show List.filterMap (Report.value? key) [_] = [] from rfl]
      exact ih

end Memory

section Names

/-- The ends of the names of files: that of a stored text and that of a temporary file. -/
inductive IsEnding : String → Prop
  | stored : IsEnding ".json"
  | temporary : IsEnding ".json.tmp"

theorem isName_of_key {key ending : String} (is : IsEnding ending) (plain : '/' ∉ key.toList)
    (clean : '\x00' ∉ (key ++ ending).toList) : IsName (key ++ ending) := by
  have tail : 2 < ending.toList.length ∧ '/' ∉ ending.toList := by cases is <;> decide
  refine FileSystem.isName_of_long ?_ ?_ clean
  · rw [String.toList_append, List.length_append]
    exact Nat.lt_of_lt_of_le tail.1 (Nat.le_add_left _ _)
  · rw [String.toList_append]
    exact fun member => (List.mem_append.mp member).elim plain tail.2

theorem stored_inj {key other : String} (same : key ++ ".json" = other ++ ".json") : key = other := by
  rw [← String.toList_inj, String.toList_append, String.toList_append] at same
  exact String.toList_inj.mp (List.append_cancel_right same)

theorem stored_ne_temporary (key other : String) : key ++ ".json" ≠ other ++ ".json.tmp" := by
  intro same
  have last := congrArg (fun text => text.toList.getLast?) same
  simp [String.toList_append] at last

theorem takes_of_temporary {base key : String} (named : base ≠ "") (takes : Takes base (key ++ ".json.tmp")) :
    Takes base (key ++ ".json") := by
  have split : key ++ ".json.tmp" = key ++ ".json" ++ ".tmp" := by
    rw [String.append_assoc]
    rfl
  rw [split] at takes
  refine FileSystem.takes_of_append named ?_ takes
  rw [String.toList_append, List.length_append]
  exact Nat.lt_of_lt_of_le (by decide) (Nat.le_add_left _ _)

end Names

/-- The entries of the directory hold for each key what is in memory, and are files all. -/
structure Mirrors (base : String) (entries : List (String × FileTree)) (memory : MemoryStorage) : Prop where
  files : ∀ entry ∈ entries, ∃ contents, entry.2 = .file contents
  kept : ∀ key, Dictionary.get? (key ++ ".json") entries = (Dictionary.get? key memory.entries).map .file
  taken : ∀ key value, Dictionary.get? key memory.entries = some value → Takes base (key ++ ".json")
  writable : memory.readOnly = false

namespace Mirrors

variable {base : String} {entries : List (String × FileTree)} {memory : MemoryStorage}

theorem empty (base : String) : Mirrors base [] .empty :=
  ⟨List.forall_mem_nil _, fun _ => rfl, nofun, rfl⟩

variable (mirrors : Mirrors base entries memory)

include mirrors

theorem no_directory (name : String) (inner : List (String × FileTree)) :
    Dictionary.get? name entries ≠ some (.directory inner) := by
  intro found
  obtain ⟨contents, is⟩ := mirrors.files _ (Dictionary.mem_of_get? found)
  cases is

theorem temporary (key text : String) :
    Mirrors base (Dictionary.insert (key ++ ".json.tmp") (.file text) entries) memory where
  files entry member := by
    rcases Dictionary.mem_of_mem_insert member with rfl | member
    · exact ⟨text, rfl⟩
    · exact mirrors.files entry member
  kept other := by
    rw [Dictionary.get?_insert_of_ne (stored_ne_temporary other key), mirrors.kept]
  taken := mirrors.taken
  writable := mirrors.writable

theorem moved {key : String} (takes : Takes base (key ++ ".json")) (value : String) :
    Mirrors base
      (Dictionary.insert (key ++ ".json") (.file value) (Dictionary.erase (key ++ ".json.tmp") entries))
      (Storage.save memory key value).2 where
  files entry member := by
    rcases Dictionary.mem_of_mem_insert member with rfl | member
    · exact ⟨value, rfl⟩
    · exact mirrors.files entry (Dictionary.mem_of_mem_erase member)
  kept other := by
    rw [get?_save mirrors.writable]
    split
    · rename_i same
      rw [← same, Dictionary.get?_insert_self]
      rfl
    · rename_i different
      rw [Dictionary.get?_insert_of_ne (fun same => different (stored_inj same).symm),
        Dictionary.get?_erase_of_ne (stored_ne_temporary other key), mirrors.kept]
  taken other found := by
    rw [get?_save mirrors.writable]
    split
    · rename_i same
      exact fun _ => same ▸ takes
    · exact mirrors.taken other found
  writable := (readOnly_save memory key value).trans mirrors.writable

end Mirrors

section Steps

variable {step : FileSystem → FileSystem.Step} {rest : List (FileSystem → FileSystem.Step)}
  {system after : FileSystem}

theorem runSteps_of_ok (did : step system = (.ok (), after)) :
    runSteps (step :: rest) system = runSteps rest after := by
  rw [runSteps, did]
  rfl

theorem runSteps_of_error {error : FileError} (did : step system = (.error error, after)) :
    runSteps (step :: rest) system = (.error error, after) := by
  rw [runSteps, did]
  rfl

theorem perform_of_ok {base key : String} {steps : List (FileSystem → FileSystem.Step)}
    (ran : runSteps steps system = (.ok (), after)) :
    perform ⟨base, system⟩ key steps = (.ok (), ⟨base, after⟩) := by
  rw [perform, ran]
  rfl

theorem perform_of_error {base key : String} {steps : List (FileSystem → FileSystem.Step)} {error : FileError}
    (ran : runSteps steps system = (.error error, after)) :
    perform ⟨base, system⟩ key steps = (.error (.write key error.message), ⟨base, after⟩) := by
  rw [perform, ran]
  rfl

end Steps

section Holding

variable {initial made system : FileSystem} {base key : String} {place : List String}
  {entries : List (String × FileTree)} {memory : MemoryStorage}

theorem resolve_of_not_takes {ending : String} (is : IsEnding ending) (named : base ≠ "")
    (plain : '/' ∉ key.toList) (refused : ¬Takes base (key ++ ending)) :
    ∃ error, system.resolve (join base (key ++ ending)) = .error error := by
  cases means : system.resolve (join base (key ++ ending)) with
  | error error => exact ⟨error, rfl⟩
  | ok location => exact absurd (FileSystem.takes_of_resolve named (isName_of_key is plain) means) refused

theorem write_temporary_of_not_takes (named : base ≠ "") (plain : '/' ∉ key.toList)
    (refused : ¬Takes base (key ++ ".json.tmp")) (text : String) :
    ∃ error, FileSystem.write (temporaryPath base key) text system = (.error error, system) := by
  obtain ⟨error, means⟩ := resolve_of_not_takes .temporary named plain refused
  refine ⟨error, ?_⟩
  unfold FileSystem.write temporaryPath
  rw [means]

/-- The files of a storage, in a directory that is there or can be made, hold what is in memory. -/
def Holds (initial made : FileSystem) (base : String) (place : List String) (system : FileSystem)
    (memory : MemoryStorage) : Prop :=
  ∃ entries, Stage initial made base place system entries ∧ Mirrors base entries memory

/-- What a load may answer for a value in memory: this value if a file can have the name; otherwise there is no
value, and no text is answered. -/
structure Answers (base key : String) (value : Option String)
    (answer : Except StorageError (Option String)) : Prop where
  taken : Takes base (key ++ ".json") → answer = .ok value
  refused : ¬Takes base (key ++ ".json") → value = none ∧ ∀ text, answer ≠ .ok (some text)

namespace Holds

theorem start (initial made : FileSystem) (base : String) (place : List String) :
    Holds initial made base place initial .empty :=
  ⟨[], .before ⟨rfl, fun _ => .inl rfl⟩, .empty base⟩

variable (opened : Opened initial made base place) (holds : Holds initial made base place system memory)

include opened holds

theorem write (plain : '/' ∉ key.toList) (text : String) :
    Holds initial made base place (FileSystem.write (temporaryPath base key) text system).2 memory := by
  by_cases takes : Takes base (key ++ ".json.tmp")
  · obtain ⟨entries, stage, mirrors⟩ := holds
    rcases stage.lists_or_missing opened with lists | ⟨_, missing⟩
    · obtain ⟨after, did, lists'⟩ := lists.write takes text (mirrors.no_directory _)
      unfold temporaryPath
      rw [did]
      exact ⟨_, .there lists', mirrors.temporary key text⟩
    · unfold FileSystem.write temporaryPath
      rw [missing _ takes]
      exact ⟨entries, stage, mirrors⟩
  · obtain ⟨error, did⟩ := write_temporary_of_not_takes opened.held.named plain takes text
    rw [did]
    exact holds

theorem create : ∃ between, createDirectories base system = (.ok (), between) ∧
    Holds initial made base place between memory := by
  obtain ⟨entries, stage, mirrors⟩ := holds
  obtain ⟨between, did, lists⟩ := stage.create opened
  exact ⟨between, did, entries, .there lists, mirrors⟩

theorem save_of_takes (takes : Takes base (key ++ ".json.tmp")) (value : String) :
    ∃ after, save ⟨base, system⟩ key value = (.ok (), ⟨base, after⟩) ∧
      Holds initial made base place after (Storage.save memory key value).2 := by
  have stored := takes_of_temporary opened.held.named takes
  obtain ⟨entries, stage, mirrors⟩ := holds
  obtain ⟨between, created, lists⟩ := stage.create opened
  obtain ⟨written, wrote, lists'⟩ := lists.write takes value (mirrors.no_directory _)
  obtain ⟨after, moved, lists''⟩ := lists'.rename takes stored (stored_ne_temporary key key)
    (Dictionary.get?_insert_self _ _ _) ((mirrors.temporary key value).no_directory _)
  refine ⟨after, ?_, _, .there lists'', ?_⟩
  · exact perform_of_ok ((runSteps_of_ok created).trans ((runSteps_of_ok wrote).trans (runSteps_of_ok moved)))
  · exact (mirrors.temporary key value).moved stored value

theorem save_of_not_takes (plain : '/' ∉ key.toList) (refused : ¬Takes base (key ++ ".json.tmp"))
    (value : String) :
    ∃ error after, save ⟨base, system⟩ key value = (.error error, ⟨base, after⟩) ∧
      Holds initial made base place after memory := by
  obtain ⟨between, created, held⟩ := holds.create opened
  obtain ⟨error, did⟩ := write_temporary_of_not_takes opened.held.named plain refused value
  exact ⟨_, between, perform_of_error ((runSteps_of_ok created).trans (runSteps_of_error did)), held⟩

theorem save_some (plain : '/' ∉ key.toList) (mishap : Mishap) (value : String) :
    ∃ error after, FileStorage.saveDespite (some mishap) ⟨base, system⟩ key value = (.error error, ⟨base, after⟩) ∧
      Holds initial made base place after memory := by
  have outcome : ∃ error after,
      runSteps ((saveSteps base key value).set mishap.position (mishap.step base key)) system =
          (.error error, after) ∧
        Holds initial made base place after memory := by
    obtain ⟨between, created, held⟩ := holds.create opened
    cases mishap with
    | creating error count =>
      obtain ⟨entries, stage, mirrors⟩ := holds
      exact ⟨error, _, rfl, entries, stage.create_some opened count, mirrors⟩
    | writing error left =>
      -- What is left in the temporary file might as well have been written there.
      cases left with
      | none => exact ⟨error, between, runSteps_of_ok created, held⟩
      | some text => exact ⟨error, _, runSteps_of_ok created, held.write opened plain text⟩
    | moving error =>
      have held' := held.write opened plain value
      cases wrote : FileSystem.write (temporaryPath base key) value between with
      | mk result after =>
        rw [wrote] at held'
        cases result with
        | error other => exact ⟨other, after, (runSteps_of_ok created).trans (runSteps_of_error wrote), held'⟩
        | ok => exact ⟨error, after, (runSteps_of_ok created).trans (runSteps_of_ok wrote), held'⟩
  obtain ⟨error, after, ran, held⟩ := outcome
  exact ⟨_, after, perform_of_error ran, held⟩

theorem load (plain : '/' ∉ key.toList) :
    Answers base key (Dictionary.get? key memory.entries) (FileStorage.load ⟨base, system⟩ key) := by
  obtain ⟨entries, stage, mirrors⟩ := holds
  constructor
  · intro takes
    unfold FileStorage.load path
    rcases stage.lists_or_missing opened with lists | ⟨bare, missing⟩
    · rw [lists.read takes, mirrors.kept]
      cases Dictionary.get? key memory.entries <;> rfl
    · -- Without the directory no file is found, and memory has nothing either.
      have absent := mirrors.kept key
      rw [bare] at absent
      rw [Option.map_eq_none_iff.mp absent.symm]
      unfold FileSystem.read
      rw [missing _ takes]
      rfl
  · intro refused
    constructor
    · cases found : Dictionary.get? key memory.entries with
      | none => rfl
      | some value => exact absurd (mirrors.taken key value found) refused
    · intro text
      obtain ⟨error, means⟩ := resolve_of_not_takes .stored opened.held.named plain refused
      have unread : system.read (join base (key ++ ".json")) = .error error := by
        unfold FileSystem.read
        rw [means]
        rfl
      unfold FileStorage.load path
      rw [unread]
      cases error <;> exact nofun

theorem saveDespite (plain : '/' ∉ key.toList) (mishap : Option Mishap) (value : String) :
    (∃ after, saveDespite mishap ⟨base, system⟩ key value = (.ok (), ⟨base, after⟩) ∧
      Holds initial made base place after (Storage.save memory key value).2) ∨
    ∃ error after, saveDespite mishap ⟨base, system⟩ key value = (.error error, ⟨base, after⟩) ∧
      Holds initial made base place after memory := by
  cases mishap with
  | some mishap => exact .inr (holds.save_some opened plain mishap value)
  | none =>
    by_cases takes : Takes base (key ++ ".json.tmp")
    · exact .inl (holds.save_of_takes opened takes value)
    · exact .inr (holds.save_of_not_takes opened plain takes value)

theorem load_saveDespite_of_ne {other : String} (plain : '/' ∉ key.toList) (plain' : '/' ∉ other.toList)
    (different : other ≠ key) (takes : Takes base (key ++ ".json")) (mishap : Option Mishap) (value : String) :
    FileStorage.load (FileStorage.saveDespite mishap ⟨base, system⟩ other value).2 key =
      FileStorage.load ⟨base, system⟩ key := by
  rw [(holds.load opened plain).taken takes]
  rcases holds.saveDespite opened plain' mishap value with ⟨after, saved, held⟩ | ⟨error, after, saved, held⟩
  · have answers := (held.load opened plain).taken takes
    obtain ⟨_, _, mirrors⟩ := holds
    rw [get?_save mirrors.writable, if_neg different] at answers
    rw [saved]
    exact answers
  · rw [saved]
    exact (held.load opened plain).taken takes

theorem load_write_temporary {other : String} (plain : '/' ∉ key.toList) (plain' : '/' ∉ other.toList)
    (takes : Takes base (key ++ ".json")) (text : String) :
    FileStorage.load ⟨base, (FileSystem.write (temporaryPath base other) text system).2⟩ key =
      FileStorage.load ⟨base, system⟩ key := by
  rw [(holds.load opened plain).taken takes]
  exact ((holds.write opened plain' text).load opened plain).taken takes

/-- A save of which no operation fails by mishap succeeds if a file can have the name of the temporary file. -/
theorem save_succeeds (takes : Takes base (key ++ ".json.tmp")) (value : String) :
    (FileStorage.save ⟨base, system⟩ key value).1 = .ok () := by
  obtain ⟨after, saved, _⟩ := holds.save_of_takes opened takes value
  rw [saved]

end Holds

end Holding

section Runs

variable {initial made system : FileSystem} {base : String} {place : List String} {memory : MemoryStorage}

/-- The files hold after a request what memory holds after its report, and a load is answered from memory. -/
theorem Holds.serve (opened : Opened initial made base place)
    (holds : Holds initial made base place system memory) {request : Request}
    (plain : '/' ∉ request.key.toList) :
    ∃ report after, serve ⟨base, system⟩ request = (report, ⟨base, after⟩) ∧
      Holds initial made base place after (report.remember memory) ∧
      ∀ key answer, report = .loaded key answer →
        Answers base key (Dictionary.get? key memory.entries) answer := by
  cases request with
  | load key =>
    refine ⟨_, system, rfl, holds, ?_⟩
    rintro _ _ ⟨⟩
    exact holds.load opened plain
  | save key value mishap =>
    replace plain : '/' ∉ key.toList := plain
    unfold FileStorage.serve
    dsimp only
    rcases holds.saveDespite opened plain mishap value with ⟨after, saved, held⟩ | ⟨error, after, saved, held⟩
    · exact ⟨.saved key value, after, by rw [saved], held, nofun⟩
    · exact ⟨.failed key error, after, by rw [saved], held, nofun⟩

theorem Holds.run (opened : Opened initial made base place)
    (holds : Holds initial made base place system memory) {requests : List Request}
    (plain : ∀ request ∈ requests, '/' ∉ request.key.toList) :
    ∃ reports after, run ⟨base, system⟩ requests = (reports, ⟨base, after⟩) ∧
      Holds initial made base place after (reports.foldl Report.remember memory) ∧
      ∀ before key answer rest, reports = before ++ .loaded key answer :: rest →
        Answers base key (Dictionary.get? key (before.foldl Report.remember memory).entries) answer := by
  -- The files and the memory that mirrors them change from request to request, so both stay general.
  induction requests generalizing system memory with
  | nil => exact ⟨[], system, rfl, holds, fun before _ _ _ split => by cases before <;> cases split⟩
  | cons request requests ih =>
    obtain ⟨plain, others⟩ := List.forall_mem_cons.mp plain
    obtain ⟨report, between, served, held, answered⟩ := holds.serve opened plain
    obtain ⟨reports, after, ran, held', answered'⟩ := ih held others
    refine ⟨report :: reports, after, ?_, held', fun before key answer rest split => ?_⟩
    · unfold FileStorage.run
      rw [served]
      dsimp only
      rw [ran]
    · cases before with
      | nil =>
        obtain ⟨same, _⟩ := List.cons.inj split
        exact answered key answer same
      | cons first before =>
        obtain ⟨rfl, split'⟩ := List.cons.inj split
        exact answered' before key answer rest split'

/-- What a load may answer after some reports: from the saves that succeeded, as a storage in memory does. -/
structure Answered (base key : String) (reports : List Report)
    (answer : Except StorageError (Option String)) : Prop
    extends Answers base key (lastSaved key reports) answer where
  memory : Storage.load (remembered reports) key = .ok (lastSaved key reports)

theorem answered_of_answers {key : String} {reports : List Report} {answer : Except StorageError (Option String)}
    (answers : Answers base key (Dictionary.get? key (remembered reports).entries) answer) :
    Answered base key reports answer := by
  refine ⟨get?_remembered key reports ▸ answers, ?_⟩
  rw [← get?_remembered]
  rfl

/-- Over a directory that can be made and for keys without slashes, a storage in files answers loads as a storage in
memory after the same saves that succeeded, whichever operations of its saves fail. Where files can have the names,
neither a save under another key nor what is in a temporary file changes an answer, and a save of which no operation
fails by mishap succeeds. -/
theorem files_answer_as_memory {initial : FileSystem} {base : String} (vacant : Vacant initial base)
    (requests : List Request) (plain : ∀ request ∈ requests, '/' ∉ request.key.toList) :
    let reports := (run ⟨base, initial⟩ requests).1
    let storage := (run ⟨base, initial⟩ requests).2
    (∀ before key answer rest, reports = before ++ .loaded key answer :: rest →
      Answered base key before answer) ∧
    ∀ key, '/' ∉ key.toList →
      Answered base key reports (storage.load key) ∧
      (Takes base (key ++ ".json") → ∀ other, '/' ∉ other.toList →
        (other ≠ key → ∀ mishap value,
          (storage.saveDespite mishap other value).2.load key = storage.load key) ∧
        ∀ text, load ⟨base, (FileSystem.write (temporaryPath base other) text storage.system).2⟩ key =
          storage.load key) ∧
      (Takes base (key ++ ".json.tmp") → ∀ value, (storage.save key value).1 = .ok ()) := by
  obtain ⟨made, did, place, held, empty⟩ := vacant
  have opened : Opened initial made base place := ⟨did, held, empty⟩
  obtain ⟨reports, after, ran, holds, answered⟩ := (Holds.start initial made base place).run opened plain
  rw [ran]
  refine ⟨fun before key answer rest split => answered_of_answers (answered before key answer rest split), ?_⟩
  intro key slashless
  refine ⟨answered_of_answers (holds.load opened slashless), fun takes other slashless' => ⟨?_, ?_⟩, ?_⟩
  · exact fun different mishap value =>
      holds.load_saveDespite_of_ne opened slashless slashless' different takes mishap value
  · exact fun text => holds.load_write_temporary opened slashless slashless' takes text
  · exact fun takes value => holds.save_succeeds opened takes value

/-- Over a missing directory, a save that is cut short while it writes its temporary file leaves what was saved
before it. -/
theorem old_value_after_cut_write :
    Vacant (.blank ["work"]) "store" ∧
    (∀ request ∈ [.save "project" "old" none, .save "project" "new" (some (.writing .refused (some "ne")))],
      '/' ∉ (Request.key request).toList) ∧
    (run ⟨"store", .blank ["work"]⟩ [.save "project" "old" none,
      .save "project" "new" (some (.writing .refused (some "ne")))]).2.load "project" = .ok (some "old") := by
  have vacant : Vacant (.blank ["work"]) "store" := by
    have names : FileSystem.names "store" = ["store"] := by decide +kernel
    refine FileSystem.vacant_of_missing (by decide) (by decide) (by decide +kernel) ?_ rfl ?_ ?_
    · rw [names]
      exact List.forall_mem_singleton.mpr ⟨by decide, by decide⟩
    · rw [names]
      intro above before contents
      rcases List.prefix_cons_iff.mp before with rfl | ⟨rest, rfl, ends⟩
      · exact nofun
      · rw [List.prefix_nil.mp ends]
        exact nofun
    · rw [names]
      rfl
  have takes : Takes "store" ("project" ++ ".json") := by decide +kernel
  have answered (requests : List Request) (plain : ∀ request ∈ requests, '/' ∉ request.key.toList) :=
    ((files_answer_as_memory vacant requests plain).2 "project" (by decide)).1.taken takes
  have last : lastSaved "project" (run ⟨"store", .blank ["work"]⟩ [.save "project" "old" none,
      .save "project" "new" (some (.writing .refused (some "ne")))]).1 = some "old" := by decide +kernel
  refine ⟨vacant, by decide, ?_⟩
  rw [answered _ (by decide), last]

end Runs

end FileStorage

end ScreenStudio
