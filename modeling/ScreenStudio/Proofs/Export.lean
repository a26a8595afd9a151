/- digest: An export gives every screen back exactly if the file names of the screens differ. -/

import Mathlib.Data.List.Nodup
import ScreenStudio.Proofs.Storage.Writing
import ScreenStudio.Proofs.Workspace.Operation

/-!
The files of an export are written into an empty directory one after another. No file's place is above
another's, so writing succeeds wherever the paths are short enough, and every path is read with what
the last file of this path contains. The paths differ exactly if the screens' names still differ after
the characters that would make a path of a name were replaced. Names may coincide, also those that the
program gives: the number in the name of a new screen repeats after a deletion. Then the files of one
screen take the place of another's.
-/

set_option autoImplicit false
set_option relaxedAutoImplicit false

namespace ScreenStudio

open FileSystem (DirectoryAt Fits IsEmptyDirectory IsName join names relative)

namespace Export

/-- What the last of some files with a path contains. -/
def lastContents? (files : List BundleFile) (path : String) : Option String :=
  (files.reverse.find? (fun file => file.path == path)).map BundleFile.contents

theorem lastContents?_cons (file : BundleFile) (rest : List BundleFile) (path : String) :
    lastContents? (file :: rest) path =
      (lastContents? rest path).or (if file.path = path then some file.contents else none) := by
  unfold lastContents?
  rw [List.reverse_cons, List.find?_append]
  cases rest.reverse.find? (fun file => file.path == path) with
  | some found => rfl
  | none =>
    rw [List.find?_singleton]
    by_cases same : file.path = path
    · simp [same]
    · simp [same]

theorem exists_of_lastContents? {files : List BundleFile} {path contents : String}
    (last : lastContents? files path = some contents) :
    ∃ file ∈ files, file.path = path ∧ file.contents = contents := by
  obtain ⟨file, found, same⟩ := Option.map_eq_some_iff.mp last
  exact ⟨file, List.mem_reverse.mp (List.mem_of_find?_eq_some found),
    by simpa using List.find?_some found, same⟩

theorem lastContents?_eq_none_iff {files : List BundleFile} {path : String} :
    lastContents? files path = none ↔ ∀ file ∈ files, file.path ≠ path := by
  unfold lastContents?
  rw [Option.map_eq_none_iff, List.find?_eq_none]
  simp only [List.mem_reverse, beq_iff_eq, ne_eq]

/-- The path of a file leads along names into a directory and ends in a name of its own. -/
def Placed (file : BundleFile) : Prop :=
  ∃ above name, above ≠ [] ∧ (∀ part ∈ above ++ [name], IsName part) ∧
    file.path = relative (above ++ [name])

namespace Placed

variable {file : BundleFile}

theorem path_eq (placed : Placed file) :
    names file.path ≠ [] ∧ (∀ part ∈ names file.path, IsName part) ∧
      file.path = relative (names file.path) := by
  obtain ⟨above, name, -, good, path⟩ := placed
  have nonempty := List.concat_ne_nil name above
  rw [path, FileSystem.names_relative nonempty good]
  exact ⟨nonempty, good, rfl⟩

end Placed

/-- No file lies below another. -/
def Apart (files : List BundleFile) : Prop :=
  ∀ first ∈ files, ∀ second ∈ files,
    names first.path <+: names second.path → first.path = second.path

theorem Apart.mono {files some : List BundleFile} (apart : Apart files) (inside : some ⊆ files) :
    Apart some :=
  fun first inFirst second inSecond => apart first (inside inFirst) second (inside inSecond)

/-- Nothing is in the way of a file: no file above its place and no directory in it. -/
def Free (tree : FileTree) (place : List String) (file : BundleFile) : Prop :=
  (∀ above, above <+: names file.path → above ≠ names file.path → ∀ contents,
    tree.sight (place ++ above) ≠ .file contents) ∧
  tree.sight (place ++ names file.path) ≠ .directory

section Writing

variable {system : FileSystem} {directory : String} {place : List String}

/-- What writing one file does to a tree: the file is at its place with directories above it, all
directories are kept, and nothing changes that is not above the file. -/
structure Wrote (before after : FileTree) (place : List String) (file : BundleFile) : Prop where
  here : after.sight (place ++ names file.path) = .file file.contents
  stay : ∀ elsewhere, before.sight elsewhere = .directory → after.sight elsewhere = .directory
  same : ∀ below, ¬below <+: names file.path →
    after.sight (place ++ below) = before.sight (place ++ below)
  above : ∀ above, above <+: names file.path → above ≠ names file.path →
    after.sight (place ++ above) = .directory

private theorem writeFile_of_free (held : DirectoryAt system directory place) {file : BundleFile}
    (placed : Placed file) (fits : Fits directory file.path) (free : Free system.tree place file) :
    ∃ tree, writeFile directory file system = (.ok (), { system with tree := tree }) ∧
      Wrote system.tree tree place file := by
  obtain ⟨above, name, filled, good, path⟩ := placed
  obtain ⟨_, contents⟩ := file
  dsimp only at path
  subst path
  have inner {front : List String} (before : front <+: above ++ [name])
      (other : front ≠ above ++ [name]) : front <+: above :=
    (List.prefix_concat_iff.mp before).resolve_left other
  have along := FileSystem.names_relative (List.concat_ne_nil name above) good
  unfold Free at free
  dsimp only at free fits
  rw [along] at free
  obtain ⟨tree, written, sight⟩ := held.writeFile_join contents filled good fits
    (fun front before => free.1 front (before.trans (List.prefix_append _ _))
      (prefix_ne_concat before)) free.2
  refine ⟨tree, written, ⟨?_, ?_, ?_, ?_⟩⟩
  · rw [along]
    exact (sight _).trans (if_pos rfl)
  · intro elsewhere there
    rw [sight, if_neg, there, ite_id]
    rintro rfl
    exact free.2 there
  · rw [along]
    intro below notAbove
    rw [sight, if_neg, if_neg]
    · rintro ⟨-, before⟩
      exact notAbove (((List.prefix_append_right_inj place).mp before).trans (List.prefix_append _ _))
    · intro here
      rw [List.append_cancel_left here] at notAbove
      exact notAbove (List.prefix_refl _)
  · rw [along]
    intro front before other
    rw [sight, if_neg (fun here => other (List.append_cancel_left here)), if_pos]
    exact ⟨List.prefix_append _ _, (List.prefix_append_right_inj place).mpr (inner before other)⟩

private theorem Free.after_wrote {before after : FileTree} {file other : BundleFile}
    (free : Free before place other) (wrote : Wrote before after place file)
    (apart : Apart [file, other]) : Free after place other := by
  have first : file ∈ [file, other] := List.mem_cons_self
  have second : other ∈ [file, other] := List.mem_cons_of_mem file List.mem_cons_self
  constructor
  · intro front inner different contents
    by_cases own : front = names file.path
    · subst own
      exact absurd (congrArg names (apart file first other second inner)) different
    · by_cases above : front <+: names file.path
      · rw [wrote.above front above own]
        exact Sight.noConfusion
      · rw [wrote.same front above]
        exact free.1 front inner different contents
  · by_cases own : names other.path = names file.path
    · rw [own, wrote.here]
      exact Sight.noConfusion
    · rw [wrote.same _ (fun above => own (congrArg names (apart other second file first above)))]
      exact free.2

/-- Writing files that lie apart succeeds. Every place then holds what the last file written there
contains, the directories are kept, and nothing changes that is not above a file. -/
theorem writeBundle_of_apart {files : List BundleFile} (held : DirectoryAt system directory place)
    (placed : ∀ file ∈ files, Placed file) (fits : ∀ file ∈ files, Fits directory file.path)
    (apart : Apart files) (free : ∀ file ∈ files, Free system.tree place file) :
    ∃ tree, writeBundle files directory system = (.ok (), { system with tree := tree }) ∧
      (∀ file ∈ files, ∃ contents, lastContents? files file.path = some contents ∧
        tree.sight (place ++ names file.path) = .file contents) ∧
      (∀ elsewhere, system.tree.sight elsewhere = .directory → tree.sight elsewhere = .directory) ∧
      ∀ below, (∀ file ∈ files, ¬below <+: names file.path) →
        tree.sight (place ++ below) = system.tree.sight (place ++ below) := by
  induction files generalizing system with
  | nil => exact ⟨system.tree, rfl, fun _ member => absurd member List.not_mem_nil,
      fun _ there => there, fun _ _ => rfl⟩
  | cons file rest ih =>
    obtain ⟨placedFile, placedRest⟩ := List.forall_mem_cons.mp placed
    obtain ⟨fitsFile, fitsRest⟩ := List.forall_mem_cons.mp fits
    obtain ⟨freeFile, freeRest⟩ := List.forall_mem_cons.mp free
    obtain ⟨tree, written, wrote⟩ := writeFile_of_free held placedFile fitsFile freeFile
    have pair {other : BundleFile} (member : other ∈ rest) : Apart [file, other] :=
      apart.mono (List.cons_subset_cons file (List.forall_mem_singleton.mpr member))
    obtain ⟨last, writtenRest, inPlace, stayRest, sameRest⟩ := ih (held.mono wrote.stay) placedRest
      fitsRest (apart.mono (List.subset_cons_self file rest))
      (fun other member => (freeRest other member).after_wrote wrote (pair member))
    refine ⟨last, ?_, ?_, fun elsewhere there => stayRest elsewhere (wrote.stay elsewhere there), ?_⟩
    · rw [writeBundle, written]
      exact writtenRest
    · intro other member
      rw [lastContents?_cons]
      by_cases again : ∃ second ∈ rest, second.path = other.path
      · obtain ⟨second, inside, equal⟩ := again
        obtain ⟨contents, found, sight⟩ := inPlace second inside
        rw [equal] at found sight
        exact ⟨contents, by rw [found]; rfl, sight⟩
      · -- No later file has the path, so it is the first file, and its place stays as it is.
        obtain rfl := (List.mem_cons.mp member).resolve_right (fun behind => again ⟨other, behind, rfl⟩)
        have none : lastContents? rest other.path = none :=
          lastContents?_eq_none_iff.mpr (fun second inside equal => again ⟨second, inside, equal⟩)
        refine ⟨other.contents, by rw [none, if_pos rfl]; rfl, ?_⟩
        rw [sameRest _ (fun second inside before => again ⟨second, inside,
          (pair inside other List.mem_cons_self second (List.mem_cons_of_mem _ List.mem_cons_self)
            before).symm⟩)]
        exact wrote.here
    · intro below notAbove
      obtain ⟨notFile, notRest⟩ := List.forall_mem_cons.mp notAbove
      rw [sameRest below notRest]
      exact wrote.same below notFile

end Writing

private theorem endings_clean {ending : String} (known : ending = ".dsl.js" ∨ ending = ".kt") :
    '/' ∉ ending.toList ∧ '\x00' ∉ ending.toList ∧ 2 < ending.toList.length := by
  rcases known with rfl | rfl <;> decide

theorem ne_of_mem_fileName {name : String} {c : Char} (member : c ∈ (fileName name).toList) :
    c ≠ '/' ∧ c ≠ '\\' ∧ c ≠ '\x00' := by
  unfold fileName at member
  rw [String.toList_ofList] at member
  obtain ⟨other, -, rfl⟩ := List.mem_map.mp member
  unfold fileChar
  split
  · decide
  · rename_i kept
    refine ⟨?_, ?_, ?_⟩ <;> rintro rfl <;> exact kept (by decide)

theorem isName_fileName_append (name : String) {ending : String}
    (known : ending = ".dsl.js" ∨ ending = ".kt") : IsName (fileName name ++ ending) := by
  obtain ⟨slash, zero, long⟩ := endings_clean known
  refine FileSystem.isName_of_long ?_ ?_ ?_ <;> rw [String.toList_append]
  · rw [List.length_append]
    omega
  · exact fun member => (List.mem_append.mp member).elim (fun front => (ne_of_mem_fileName front).1 rfl) slash
  · exact fun member => (List.mem_append.mp member).elim (fun front => (ne_of_mem_fileName front).2.2 rfl) zero

theorem isName_of_mem_screenPath (name : String) {ending : String}
    (known : ending = ".dsl.js" ∨ ending = ".kt") :
    ∀ part ∈ [root, "screens"] ++ [fileName name ++ ending], IsName part :=
  List.forall_mem_append.mpr
    ⟨by decide, List.forall_mem_singleton.mpr (isName_fileName_append name known)⟩

theorem isName_of_mem_jsonPath {name : String} (known : name = "project.json" ∨ name = "state.json") :
    ∀ part ∈ [root] ++ [name], IsName part := by
  rcases known with rfl | rfl <;> decide

theorem jsonPath_eq (name : String) : root ++ "/" ++ name = relative ([root] ++ [name]) :=
  (FileSystem.relative_concat (List.cons_ne_nil root []) name).symm

theorem screenPath_eq (name ending : String) :
    screenPath name ending = relative ([root, "screens"] ++ [fileName name ++ ending]) := by
  rw [screenPath, FileSystem.relative_concat (by decide), String.append_assoc]
  rfl

/-- Where the files of an export lie: the two JSON files in the root directory, the files of screens
in a directory of their own. -/
inductive Listed (project : Project) : BundleFile → Prop
  | json (name contents : String) (known : name = "project.json" ∨ name = "state.json") :
      Listed project ⟨root ++ "/" ++ name, contents⟩
  | source {screen : Screen} (member : screen ∈ project.screens) :
      Listed project ⟨screenPath screen.name ".dsl.js", screen.source⟩
  | companion {screen : Screen} (member : screen ∈ project.screens) {content : String}
      (filled : filledCompanion? project screen.id = some content) :
      Listed project ⟨screenPath screen.name ".kt", content⟩

section Bundle

variable {project : Project} {state : Json} {exportedAt : UInt64} {file : BundleFile}

theorem listed_of_mem (member : file ∈ bundle project state exportedAt) : Listed project file := by
  rcases List.mem_cons.mp member with rfl | member
  · exact .json "project.json" _ (Or.inl rfl)
  · rcases List.mem_cons.mp member with rfl | member
    · exact .json "state.json" _ (Or.inr rfl)
    · obtain ⟨screen, inside, member⟩ := List.mem_flatMap.mp member
      rcases List.mem_cons.mp member with rfl | member
      · exact .source inside
      · obtain ⟨content, filled, rfl⟩ := List.mem_map.mp member
        exact .companion inside (Option.mem_toList.mp filled)

theorem source_mem_bundle {screen : Screen} (member : screen ∈ project.screens) :
    ⟨screenPath screen.name ".dsl.js", screen.source⟩ ∈ bundle project state exportedAt :=
  List.mem_cons_of_mem _ (List.mem_cons_of_mem _
    (List.mem_flatMap.mpr ⟨screen, member, List.mem_cons_self⟩))

theorem companion_mem_bundle {screen : Screen} (member : screen ∈ project.screens) {content : String}
    (filled : filledCompanion? project screen.id = some content) :
    ⟨screenPath screen.name ".kt", content⟩ ∈ bundle project state exportedAt :=
  List.mem_cons_of_mem _ (List.mem_cons_of_mem _ (List.mem_flatMap.mpr ⟨screen, member,
    List.mem_cons_of_mem _ (List.mem_map.mpr ⟨content, Option.mem_toList.mpr filled, rfl⟩)⟩))

theorem Listed.names_eq (listed : Listed project file) :
    Placed file ∧ ((∃ name, (name = "project.json" ∨ name = "state.json") ∧
        names file.path = [root, name]) ∨
      ∃ name, names file.path = [root, "screens", name]) := by
  have screen (name contents : String) {ending : String}
      (known : ending = ".dsl.js" ∨ ending = ".kt") :
      Placed ⟨screenPath name ending, contents⟩ ∧
        names (screenPath name ending) = [root, "screens", fileName name ++ ending] := by
    have good := isName_of_mem_screenPath name known
    rw [screenPath_eq]
    exact ⟨⟨_, _, List.cons_ne_nil _ _, good, rfl⟩,
      FileSystem.names_relative (List.concat_ne_nil _ _) good⟩
  cases listed with
  | json name contents known =>
    have good := isName_of_mem_jsonPath known
    refine ⟨⟨[root], name, List.cons_ne_nil root [], good, jsonPath_eq name⟩, Or.inl ⟨name, known, ?_⟩⟩
    rw [jsonPath_eq]
    exact FileSystem.names_relative (List.concat_ne_nil _ _) good
  | source member => exact ⟨(screen _ _ (Or.inl rfl)).1, Or.inr ⟨_, (screen _ "" (Or.inl rfl)).2⟩⟩
  | companion member filled =>
    exact ⟨(screen _ _ (Or.inr rfl)).1, Or.inr ⟨_, (screen _ "" (Or.inr rfl)).2⟩⟩

theorem apart_bundle : Apart (bundle project state exportedAt) := by
  intro first inFirst second inSecond before
  obtain ⟨placed, shape⟩ := (listed_of_mem inFirst).names_eq
  obtain ⟨placed', shape'⟩ := (listed_of_mem inSecond).names_eq
  rw [placed.path_eq.2.2, placed'.path_eq.2.2]
  rcases shape with ⟨name, known, equal⟩ | ⟨name, equal⟩ <;>
    rcases shape' with ⟨name', known', equal'⟩ | ⟨name', equal'⟩ <;>
    rw [equal, equal'] at before ⊢
  · exact congrArg relative (before.eq_of_length rfl)
  · have same := (List.cons_prefix_cons.mp (List.cons_prefix_cons.mp before).2).1
    rcases known with rfl | rfl <;> exact absurd same (by decide)
  · exact absurd before.length_le (Nat.not_succ_le_self 2)
  · exact congrArg relative (before.eq_of_length rfl)

theorem free_of_empty {tree : FileTree} {place : List String}
    (there : tree.sight place = .directory)
    (empty : ∀ name below, tree.sight (place ++ name :: below) = .nothing)
    (placed : Placed file) : Free tree place file := by
  constructor
  · intro above before other contents
    cases above with
    | nil => rw [List.append_nil, there]; exact Sight.noConfusion
    | cons name below => rw [empty]; exact Sight.noConfusion
  · obtain ⟨name, below, equal⟩ := List.exists_cons_of_ne_nil placed.path_eq.1
    rw [equal, empty]
    exact Sight.noConfusion

/-- The path of a file of a screen tells the file name of the screen and which of its files it is. -/
theorem screenPath_inj {name other ending ending' : String}
    (known : ending = ".dsl.js" ∨ ending = ".kt") (known' : ending' = ".dsl.js" ∨ ending' = ".kt")
    (same : screenPath name ending = screenPath other ending') :
    fileName name = fileName other ∧ ending = ending' := by
  have chars := congrArg String.toList same
  simp only [screenPath, String.toList_append, List.append_assoc, List.append_cancel_left_eq] at chars
  have last := congrArg List.getLast? chars
  rcases known with rfl | rfl <;> rcases known' with rfl | rfl
  · exact ⟨String.toList_inj.mp (List.append_cancel_right chars), rfl⟩
  · simp at last
  · simp at last
  · exact ⟨String.toList_inj.mp (List.append_cancel_right chars), rfl⟩

theorem mem_paths_screenFiles {screen : Screen} {path : String}
    (member : path ∈ (screenFiles project screen).map BundleFile.path) :
    ∃ ending, (ending = ".dsl.js" ∨ ending = ".kt") ∧ path = screenPath screen.name ending := by
  obtain ⟨file, inside, rfl⟩ := List.mem_map.mp member
  rcases List.mem_cons.mp inside with rfl | inside
  · exact ⟨".dsl.js", Or.inl rfl, rfl⟩
  · obtain ⟨content, -, rfl⟩ := List.mem_map.mp inside
    exact ⟨".kt", Or.inr rfl, rfl⟩

theorem nodup_paths_screenFiles (screen : Screen) :
    ((screenFiles project screen).map BundleFile.path).Nodup := by
  unfold screenFiles
  cases filledCompanion? project screen.id with
  | none => exact List.nodup_singleton _
  | some content =>
    refine List.nodup_cons.mpr ⟨?_, List.nodup_singleton _⟩
    intro same
    have same := (screenPath_inj (Or.inl rfl) (Or.inr rfl) (List.mem_singleton.mp same)).2
    exact absurd same (by decide)

theorem disjoint_paths_iff (first second : Screen) :
    List.Disjoint ((screenFiles project first).map BundleFile.path)
        ((screenFiles project second).map BundleFile.path) ↔
      fileName first.name ≠ fileName second.name := by
  constructor
  · intro disjoint same
    refine disjoint (a := screenPath first.name ".dsl.js") List.mem_cons_self ?_
    rw [screenPath, same]
    exact List.mem_cons_self
  · intro different path inFirst inSecond
    obtain ⟨ending, known, rfl⟩ := mem_paths_screenFiles inFirst
    obtain ⟨ending', known', same⟩ := mem_paths_screenFiles inSecond
    exact different (screenPath_inj known known' same).1

variable (state exportedAt) in
theorem nodup_paths_iff :
    ((bundle project state exportedAt).map BundleFile.path).Nodup ↔
      (project.screens.map (fun screen => fileName screen.name)).Nodup := by
  have screens : (project.screens.flatMap (screenFiles project)).map BundleFile.path =
      project.screens.flatMap (fun screen => (screenFiles project screen).map BundleFile.path) :=
    List.map_flatMap
  have notJson {name path : String} (known : name = "project.json" ∨ name = "state.json")
      (member : path ∈ project.screens.flatMap
        (fun screen => (screenFiles project screen).map BundleFile.path)) :
      root ++ "/" ++ name ≠ path := by
    obtain ⟨screen, -, member⟩ := List.mem_flatMap.mp member
    obtain ⟨ending, -, rfl⟩ := mem_paths_screenFiles member
    intro same
    have chars := congrArg String.toList same
    simp only [screenPath, String.toList_append, List.append_assoc, List.append_cancel_left_eq]
      at chars
    rcases known with rfl | rfl <;> simp at chars
  show (_ :: _ :: (project.screens.flatMap (screenFiles project)).map BundleFile.path).Nodup ↔ _
  rw [screens, List.nodup_cons, List.nodup_cons, List.nodup_flatMap, List.Nodup, List.pairwise_map]
  constructor
  · rintro ⟨-, -, -, disjoint⟩
    exact disjoint.imp (fun {first second} apart => (disjoint_paths_iff first second).mp apart)
  · intro different
    refine ⟨?_, fun member => notJson (Or.inr rfl) member rfl,
      fun screen _ => nodup_paths_screenFiles screen,
      different.imp (fun {first second} apart => (disjoint_paths_iff first second).mpr apart)⟩
    intro member
    rcases List.mem_cons.mp member with same | member
    · exact absurd (show root ++ "/project.json" = root ++ "/state.json" from same) (by decide)
    · exact notJson (Or.inl rfl) member rfl

end Bundle

/-- Writing an export into an empty directory succeeds, and its paths then are read with what the last
file of this path contains. -/
theorem writeBundle_of_empty {project : Project} {state : Json} {exportedAt : UInt64}
    {system : FileSystem} {directory : String} (empty : IsEmptyDirectory system directory)
    (fits : ∀ file ∈ bundle project state exportedAt, Fits directory file.path) :
    ∃ after, writeBundle (bundle project state exportedAt) directory system = (.ok (), after) ∧
      ∀ file ∈ bundle project state exportedAt, ∃ contents,
        lastContents? (bundle project state exportedAt) file.path = some contents ∧
        after.read (join directory file.path) = .ok contents := by
  obtain ⟨place, held, nothing⟩ := empty
  have placed : ∀ file ∈ bundle project state exportedAt, Placed file :=
    fun file member => (listed_of_mem member).names_eq.1
  obtain ⟨tree, written, inPlace, stay, -⟩ := writeBundle_of_apart held placed fits apart_bundle
    (fun file member => free_of_empty held.there nothing (placed file member))
  refine ⟨_, written, fun file member => ?_⟩
  obtain ⟨contents, last, sight⟩ := inPlace file member
  obtain ⟨filled, good, path⟩ := (placed file member).path_eq
  refine ⟨contents, last, ?_⟩
  have fit := fits file member
  rw [path] at fit ⊢
  exact (held.mono stay).read_join filled good fit sight

end Export

namespace Workspace

open Export (fileName screenPath filledCompanion? writeBundle lastContents?)
variable {σ : Type}

/-- The paths of an export differ exactly if the file names of the screens do. Written into an empty
directory, every path is read with what its last file contains: every file is read back exactly if
files with one path contain the same, and if the file names of the screens differ, every screen is
read back with its source and its companion text. -/
theorem export_reads_back (workspace : Workspace σ) (exportedAt : UInt64) {system : FileSystem}
    {directory : String} (empty : IsEmptyDirectory system directory)
    (fits : ∀ file ∈ workspace.bundle exportedAt, Fits directory file.path) :
    (((workspace.bundle exportedAt).map BundleFile.path).Nodup ↔
        (workspace.project.screens.map (fun screen => fileName screen.name)).Nodup) ∧
      ∃ after, writeBundle (workspace.bundle exportedAt) directory system = (.ok (), after) ∧
        (∀ file ∈ workspace.bundle exportedAt, ∃ contents,
          lastContents? (workspace.bundle exportedAt) file.path = some contents ∧
          after.read (join directory file.path) = .ok contents) ∧
        ((∀ file ∈ workspace.bundle exportedAt,
            after.read (join directory file.path) = .ok file.contents) ↔
          ∀ file ∈ workspace.bundle exportedAt, ∀ other ∈ workspace.bundle exportedAt,
            file.path = other.path → file.contents = other.contents) ∧
        ((workspace.project.screens.map (fun screen => fileName screen.name)).Nodup →
          ∀ screen ∈ workspace.project.screens,
            after.read (join directory (screenPath screen.name ".dsl.js")) = .ok screen.source ∧
            ∀ content, filledCompanion? workspace.project screen.id = some content →
              after.read (join directory (screenPath screen.name ".kt")) = .ok content) := by
  obtain ⟨after, written, reads⟩ := Export.writeBundle_of_empty empty fits
  have back : ∀ file ∈ workspace.bundle exportedAt,
      (∀ other ∈ workspace.bundle exportedAt, file.path = other.path →
        file.contents = other.contents) →
      after.read (join directory file.path) = .ok file.contents := by
    intro file member agree
    obtain ⟨contents, last, read⟩ := reads file member
    obtain ⟨other, inside, same, rfl⟩ := Export.exists_of_lastContents? last
    rw [read, agree other inside same.symm]
  refine ⟨Export.nodup_paths_iff _ _, after, written, reads,
    ⟨fun all file member other inside same => ?_,
      fun agree file member => back file member (agree file member)⟩, fun distinct screen member => ?_⟩
  · have read := all file member
    rw [same, all other inside] at read
    exact (Except.ok.inj read).symm
  · have unique := (Export.nodup_paths_iff workspace.state exportedAt).mpr distinct
    have own {file : BundleFile} (inside : file ∈ workspace.bundle exportedAt) :
        after.read (join directory file.path) = .ok file.contents :=
      back file inside (fun other inside' same =>
        congrArg BundleFile.contents (List.inj_on_of_nodup_map unique inside inside' same))
    have source := own (Export.source_mem_bundle member)
    exact ⟨source, fun content filled => by
      have companion := own (Export.companion_mem_bundle member filled)
      exact companion⟩

/-- A workspace with three screens made without a name. The first screen was deleted before the last
was made, so that this has got the name of the one before. -/
def repeatedName : Workspace MemoryStorage :=
  let two := ((openOn MemoryStorage.empty 0).newScreen none "s_a" 0).newScreen none "s_b" 0
  let edited := (two.saveScreen "s_b" "render(() => Text('b'))" none).2
  (edited.deleteScreen Screen.initialId).2.newScreen none "s_c" 0

theorem reachable_repeatedName : Reachable repeatedName := by
  have first : "s_a" ∉ [Screen.initialId] := by decide
  have second : "s_b" ∉ [Screen.initialId, "s_a"] := by decide
  have third : "s_c" ∉ ["s_a", "s_b"] := by decide
  have opened : Run MemoryStorage.empty (openOn MemoryStorage.empty 0) _ := .opened 0
  have run := opened.operated (.newScreen none "s_a" 0) first
    |>.operated (.newScreen none "s_b" 0) second
    |>.operated (.saveScreen "s_b" "render(() => Text('b'))" none) trivial
    |>.operated (.deleteScreen Screen.initialId) trivial
    |>.operated (.newScreen none "s_c" 0) third
  have unread (history : History) :
      storedHistory? MemoryStorage.empty ≠ .ok (some history) := fun found => nomatch found
  exact .started unread run

theorem paths_repeatedName : (repeatedName.bundle 0).map BundleFile.path =
    ["compose-web-project/project.json", "compose-web-project/state.json",
      "compose-web-project/screens/Screen2.dsl.js", "compose-web-project/screens/Screen3.dsl.js",
      "compose-web-project/screens/Screen3.dsl.js"] := rfl

theorem isEmptyDirectory_blank : IsEmptyDirectory (FileSystem.blank ["work"]) "." :=
  ⟨["work"], ⟨rfl, rfl⟩, fun _ _ => rfl⟩

/-- An export of it loses a screen: its source is written and then the template of the last screen in
its place. -/
theorem repeated_name_loses_screen :
    Reachable repeatedName ∧ ¬((repeatedName.bundle 0).map BundleFile.path).Nodup ∧
      ∃ after, writeBundle (repeatedName.bundle 0) "." (FileSystem.blank ["work"]) =
          (.ok (), after) ∧
        ⟨"s_b", "Screen3", "render(() => Text('b'))", 0⟩ ∈ repeatedName.project.screens ∧
        after.read (join "." (screenPath "Screen3" ".dsl.js")) =
          .ok (Screen.template "Screen3") := by
  have fits : ∀ file ∈ repeatedName.bundle 0, Fits "." file.path := by
    rw [← List.forall_mem_map, paths_repeatedName]
    decide
  obtain ⟨distinct, after, written, reads, -⟩ :=
    export_reads_back repeatedName 0 isEmptyDirectory_blank fits
  have screen : (⟨"s_b", "Screen3", "render(() => Text('b'))", 0⟩ : Screen) ∈
      repeatedName.project.screens := List.mem_of_getElem? (i := 1) rfl
  obtain ⟨contents, last, read⟩ := reads _ (Export.source_mem_bundle screen)
  have same : some (Screen.template "Screen3") = some contents := last
  cases same
  refine ⟨reachable_repeatedName, ?_, after, written, screen, read⟩
  rw [distinct]
  have twice : ¬["Screen2", "Screen3", "Screen3"].Nodup := by decide
  exact twice

end Workspace

end ScreenStudio
