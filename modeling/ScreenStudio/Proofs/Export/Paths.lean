/- digest: The paths of an export stay below its root, whatever the screens are named. -/

import ScreenStudio.Proofs.Export

/-!
A path of an export is cut at its slashes into the root and the name of a JSON file, or into the root, the
directory of the screens and one file name. The name of a screen can be any text; in the file name the
characters that would make a path of it are replaced, and the ending behind it makes sure that the file name
is not empty and is no dots. Behind the two JSON files every screen in its turn has its source file, and its
companion file if there is a companion text that is not empty.
-/

set_option autoImplicit false
set_option relaxedAutoImplicit false

namespace ScreenStudio.Export

open FileSystem (IsName parts parts_relative)

/-- A name of one file: it is a name between slashes and holds no backslash. -/
structure IsFileName (name : String) : Prop extends IsName name where
  no_backslash : '\\' ∉ name.toList

/-- The path leads from the root to one of the JSON files or to one file among those of the screens. -/
inductive BelowRoot (path : String) : Prop
  | manifest (is : parts path = [root, "project.json"])
  | state (is : parts path = [root, "state.json"])
  | screen {name : String} (is : parts path = [root, "screens", name]) (named : IsFileName name)

/-- The files of one screen: its source, and behind it its companion text if that is not empty. -/
inductive FilesOf (project : Project) (screen : Screen) : List BundleFile → Prop
  | source {source : BundleFile}
    (path : parts source.path = [root, "screens", fileName screen.name ++ ".dsl.js"])
    (contents : source.contents = screen.source)
    (none : ∀ content, project.companion? screen.id = some content → content = "") :
    FilesOf project screen [source]
  | both {source companion : BundleFile}
    (path : parts source.path = [root, "screens", fileName screen.name ++ ".dsl.js"])
    (contents : source.contents = screen.source)
    (beside : parts companion.path = [root, "screens", fileName screen.name ++ ".kt"])
    (present : project.companion? screen.id = some companion.contents) (filled : companion.contents ≠ "") :
    FilesOf project screen [source, companion]

section Files

variable {name ending : String}

theorem isFileName_append (name : String) (known : ending = ".dsl.js" ∨ ending = ".kt") :
    IsFileName (fileName name ++ ending) := by
  refine ⟨isName_fileName_append name known, ?_⟩
  rw [String.toList_append]
  intro member
  rcases List.mem_append.mp member with front | behind
  · exact (ne_of_mem_fileName front).2.1 rfl
  · rcases known with rfl | rfl <;> exact absurd behind (by decide)

theorem parts_screenPath (name : String) (known : ending = ".dsl.js" ∨ ending = ".kt") :
    parts (screenPath name ending) = [root, "screens", fileName name ++ ending] := by
  rw [screenPath_eq]
  exact parts_relative (List.concat_ne_nil _ _) (isName_of_mem_screenPath name known)

theorem parts_jsonPath (known : name = "project.json" ∨ name = "state.json") :
    parts (root ++ "/" ++ name) = [root, name] := by
  rw [jsonPath_eq]
  exact parts_relative (List.concat_ne_nil _ _) (isName_of_mem_jsonPath known)

theorem filesOf_screenFiles (project : Project) (screen : Screen) :
    FilesOf project screen (screenFiles project screen) := by
  have path := parts_screenPath screen.name (.inl rfl : ".dsl.js" = ".dsl.js" ∨ ".dsl.js" = ".kt")
  unfold screenFiles filledCompanion?
  cases found : project.companion? screen.id with
  | none => exact .source path rfl fun content present => by rw [found] at present; cases present
  | some content =>
    by_cases empty : content = ""
    · rw [empty]
      refine .source path rfl fun other present => ?_
      rw [found] at present
      exact (Option.some.inj present).symm.trans empty
    · have filled : (some content).filter (fun content => !content.isEmpty) = some content := by
        refine Option.filter_eq_some_iff.mpr ⟨rfl, ?_⟩
        rw [Bool.not_eq_true', Bool.eq_false_iff, Ne, String.isEmpty_iff]
        exact empty
      rw [filled]
      exact .both path rfl (parts_screenPath screen.name (.inr rfl)) found empty

theorem FilesOf.belowRoot {project : Project} {screen : Screen} {files : List BundleFile}
    (of : FilesOf project screen files) : ∀ file ∈ files, BelowRoot file.path := by
  cases of with
  | source path => exact List.forall_mem_singleton.mpr (.screen path (isFileName_append _ (.inl rfl)))
  | both path _ beside =>
    refine List.forall_mem_cons.mpr ⟨.screen path (isFileName_append _ (.inl rfl)), ?_⟩
    exact List.forall_mem_singleton.mpr (.screen beside (isFileName_append _ (.inr rfl)))

end Files

/-- An export of any project stays below its root. Every path is cut at its slashes into the root and a JSON
file, or into the root, the directory of the screens and one file name, which is not empty, is no dots and
holds no slash, backslash or zero byte. The files are the manifest, the state and then those of the screens
in their order: for each its source, and its companion text exactly if there is one that is not empty. -/
theorem bundle_stays_below_root (project : Project) (state : Json) (exportedAt : UInt64) :
    (∀ file ∈ bundle project state exportedAt, BelowRoot file.path) ∧
      ∃ (first second : BundleFile) (rows : List (List BundleFile)),
        bundle project state exportedAt = first :: second :: rows.flatten ∧
          parts first.path = [root, "project.json"] ∧
          first.contents = (manifest project exportedAt).pretty ∧
          parts second.path = [root, "state.json"] ∧ second.contents = state.pretty ∧
          List.Forall₂ (FilesOf project) project.screens rows := by
  have manifestPath := parts_jsonPath (.inl rfl)
  have statePath := parts_jsonPath (.inr rfl)
  refine ⟨List.forall_mem_cons.mpr ⟨.manifest manifestPath, ?_⟩,
    ⟨root ++ "/project.json", (manifest project exportedAt).pretty⟩, ⟨root ++ "/state.json", state.pretty⟩,
    project.screens.map (screenFiles project), ?_, manifestPath, rfl, statePath, rfl, ?_⟩
  · refine List.forall_mem_cons.mpr ⟨.state statePath, fun file member => ?_⟩
    obtain ⟨screen, _, own⟩ := List.mem_flatMap.mp member
    exact (filesOf_screenFiles project screen).belowRoot file own
  · rw [bundle, List.flatMap_def]
  · rw [List.forall₂_map_right_iff]
    exact List.forall₂_same.mpr fun screen _ => filesOf_screenFiles project screen

/-- A name of dots and slashes leads nowhere else. -/
example : parts (screenPath "../../." ".kt") = [root, "screens", ".._.._..kt"] := by decide

end ScreenStudio.Export
