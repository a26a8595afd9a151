/- digest: What making directories and writing a file below a directory change, and what is read there. -/

import ScreenStudio.Proofs.Storage.FileTree
import ScreenStudio.Proofs.Storage.Path

set_option autoImplicit false
set_option relaxedAutoImplicit false

namespace ScreenStudio.FileSystem

variable {system : FileSystem} {place above names rest : List String} {name : String}

/-- A name that leads into a directory and is short enough. -/
def Leads (name : String) : Prop := name ≠ ".." ∧ name.utf8ByteSize ≤ 255

theorem advance_eq_ok {tree : FileTree} {place next : List String} {name : String}
    (advanced : advance tree place name = .ok next) : tree.sight place = .directory := by
  unfold advance at advanced
  unfold FileTree.sight
  cases found : tree.find? place with
  | none => rw [found] at advanced; cases advanced
  | some part =>
    cases part with
    | file contents => rw [found] at advanced; cases advanced
    | directory entries => rfl

theorem find?_of_sight {tree : FileTree} {place : List String} (there : tree.sight place = .directory) :
    ∃ entries, tree.find? place = some (.directory entries) := by
  unfold FileTree.sight at there
  cases found : tree.find? place with
  | none => rw [found] at there; cases there
  | some part =>
    cases part with
    | file contents => rw [found] at there; cases there
    | directory entries => exact ⟨entries, rfl⟩

theorem advance_of_leads {tree : FileTree} {place : List String} {name : String}
    (there : tree.sight place = .directory) (leads : Leads name) :
    advance tree place name = .ok (place ++ [name]) := by
  obtain ⟨entries, found⟩ := find?_of_sight there
  unfold advance
  rw [found]
  simp only [if_neg leads.1, if_neg (Nat.not_lt.mpr leads.2)]

theorem advance_congr {tree other : FileTree} {place : List String}
    (there : tree.sight place = .directory) (there' : other.sight place = .directory) (name : String) :
    advance other place name = advance tree place name := by
  obtain ⟨entries, found⟩ := find?_of_sight there
  obtain ⟨entries', found'⟩ := find?_of_sight there'
  unfold advance
  rw [found, found']

theorem advance_mono {tree other : FileTree}
    (more : ∀ place, tree.sight place = .directory → other.sight place = .directory)
    {place next : List String} {name : String} (advanced : advance tree place name = .ok next) :
    advance other place name = .ok next := by
  have there := advance_eq_ok advanced
  rw [advance_congr there (more place there), advanced]

section Walk

variable {tree : FileTree} {start : List String}

theorem walk_cons (name : String) (names : List String) :
    (name :: names).foldlM (advance tree) start =
      (advance tree start name).bind (fun next => names.foldlM (advance tree) next) :=
  List.foldlM_cons

theorem sight_of_walk (walked : names.foldlM (advance tree) start = .ok place)
    (there : tree.sight place = .directory) : tree.sight start = .directory := by
  cases names with
  | nil =>
    cases walked
    exact there
  | cons name names =>
    rw [walk_cons] at walked
    cases advanced : advance tree start name with
    | error error => rw [advanced] at walked; cases walked
    | ok next => exact advance_eq_ok advanced

theorem walk_mono {other : FileTree}
    (more : ∀ place, tree.sight place = .directory → other.sight place = .directory)
    (walked : names.foldlM (advance tree) start = .ok place) :
    names.foldlM (advance other) start = .ok place := by
  induction names generalizing start with
  | nil => exact walked
  | cons name names ih =>
    rw [walk_cons] at walked ⊢
    cases advanced : advance tree start name with
    | error error => rw [advanced] at walked; cases walked
    | ok next =>
      rw [advanced] at walked
      rw [advance_mono more advanced]
      exact ih walked

/-- Along names that lead, the way goes to their place if everything before it is a directory. -/
theorem walk_of_leads (lead : ∀ name ∈ names, Leads name)
    (there : ∀ above, above <+: names → above ≠ names → tree.sight (start ++ above) = .directory) :
    names.foldlM (advance tree) start = .ok (start ++ names) := by
  induction names generalizing start with
  | nil => rw [List.append_nil]; rfl
  | cons name names ih =>
    have first : tree.sight start = .directory := by
      simpa using there [] List.nil_prefix (List.cons_ne_nil name names).symm
    rw [walk_cons, advance_of_leads first (lead name List.mem_cons_self)]
    show names.foldlM (advance tree) (start ++ [name]) = _
    rw [ih (fun other member => lead other (List.mem_cons_of_mem name member)), List.append_assoc]
    · rfl
    · intro above before other
      rw [List.append_assoc]
      exact there (name :: above) (List.cons_prefix_cons.mpr ⟨rfl, before⟩)
        (fun equal => other (List.cons.inj equal).2)

end Walk

theorem createDirectory_of_free (parent : system.tree.sight place = .directory)
    (free : ∀ contents, system.tree.sight (place ++ [name]) ≠ .file contents) :
    ∃ tree, createDirectory (place ++ [name]) system = (.ok (), { system with tree := tree }) ∧
      ∀ elsewhere, tree.sight elsewhere =
        if elsewhere = place ++ [name] then .directory else system.tree.sight elsewhere := by
  unfold createDirectory
  cases found : system.tree.find? (place ++ [name]) with
  | none =>
    have nothing : system.tree.sight (place ++ [name]) = .nothing := by
      unfold FileTree.sight
      rw [found]
    exact ⟨_, rfl, FileTree.sight_put_directory parent nothing⟩
  | some part =>
    cases part with
    | file contents =>
      refine absurd ?_ (free contents)
      unfold FileTree.sight
      rw [found]
    | directory entries =>
      refine ⟨system.tree, rfl, fun elsewhere => ?_⟩
      split
      · rename_i same
        rw [same]
        unfold FileTree.sight
        rw [found]
      · rfl

theorem createAlong_of_walk {start : List String}
    (walked : names.foldlM (advance system.tree) start = .ok place)
    (there : system.tree.sight place = .directory) :
    createAlong start (names ++ rest) system = createAlong place rest system := by
  induction names generalizing start with
  | nil =>
    cases walked
    rfl
  | cons name names ih =>
    rw [walk_cons] at walked
    cases advanced : advance system.tree start name with
    | error error => rw [advanced] at walked; cases walked
    | ok next =>
      rw [advanced] at walked
      obtain ⟨entries, found⟩ := find?_of_sight (sight_of_walk walked there)
      rw [List.cons_append, createAlong, advanced]
      simp only [createDirectory, found, Step.andThen]
      exact ih walked

/-- A place from one place on up to another. -/
def Between (start finish elsewhere : List String) : Prop :=
  start <+: elsewhere ∧ elsewhere <+: finish

instance (start finish elsewhere : List String) : Decidable (Between start finish elsewhere) :=
  inferInstanceAs (Decidable (_ ∧ _))

theorem between_cons (elsewhere : List String) :
    Between place (place ++ name :: names) elsewhere ↔
      elsewhere = place ∨ Between (place ++ [name]) (place ++ [name] ++ names) elsewhere := by
  rw [List.append_assoc]
  constructor
  · rintro ⟨⟨rest, rfl⟩, before⟩
    cases rest with
    | nil => exact Or.inl (List.append_nil place)
    | cons first rest =>
      rw [List.prefix_append_right_inj, List.cons_prefix_cons] at before
      refine Or.inr ⟨⟨rest, by rw [before.1, List.append_assoc]; rfl⟩, ?_⟩
      rw [before.1, List.prefix_append_right_inj]
      exact List.cons_prefix_cons.mpr ⟨rfl, before.2⟩
  · rintro (rfl | ⟨behind, before⟩)
    · exact ⟨List.prefix_refl _, List.prefix_append _ _⟩
    · exact ⟨(List.prefix_append place [name]).trans behind, before⟩

/-- Making directories along names makes the places on the way directories and changes nothing else,
if no file is in the way. -/
theorem createAlong_of_free (there : system.tree.sight place = .directory)
    (lead : ∀ name ∈ names, Leads name)
    (free : ∀ above, above <+: names → ∀ contents,
      system.tree.sight (place ++ above) ≠ .file contents) :
    ∃ tree, createAlong place names system = (.ok (), { system with tree := tree }) ∧
      ∀ elsewhere, tree.sight elsewhere =
        if Between place (place ++ names) elsewhere then .directory
        else system.tree.sight elsewhere := by
  induction names generalizing place system with
  | nil =>
    refine ⟨system.tree, rfl, fun elsewhere => ?_⟩
    split
    · rename_i between
      rw [List.append_nil] at between
      rw [← between.1.eq_of_length (between.1.length_le.antisymm between.2.length_le)]
      exact there
    · rfl
  | cons name names ih =>
    obtain ⟨tree, made, sight⟩ := createDirectory_of_free there
      (free [name] (List.cons_prefix_cons.mpr ⟨rfl, List.nil_prefix⟩))
    have next : ({ system with tree := tree } : FileSystem).tree.sight (place ++ [name]) =
      .directory := (sight _).trans (if_pos rfl)
    obtain ⟨tree', made', sight'⟩ := ih next
      (fun other member => lead other (List.mem_cons_of_mem name member))
      (by
        intro above before contents
        show tree.sight _ ≠ _
        rw [sight]
        split
        · exact Sight.noConfusion
        · rw [List.append_assoc]
          exact free (name :: above) (List.cons_prefix_cons.mpr ⟨rfl, before⟩) contents)
    refine ⟨tree', ?_, fun elsewhere => ?_⟩
    · rw [createAlong, advance_of_leads there (lead name List.mem_cons_self)]
      simp only [made, Step.andThen]
      exact made'
    · rw [sight' elsewhere]
      show (if _ then _ else tree.sight elsewhere) = _
      rw [sight elsewhere]
      by_cases behind : Between (place ++ [name]) (place ++ [name] ++ names) elsewhere
      · rw [if_pos behind, if_pos ((between_cons elsewhere).mpr (Or.inr behind))]
      · rw [if_neg behind]
        by_cases here : elsewhere = place
        · subst here
          rw [if_pos ((between_cons elsewhere).mpr (Or.inl rfl)), there, ite_id]
        · rw [if_neg (show ¬Between place (place ++ name :: names) elsewhere from
            fun between => ((between_cons elsewhere).mp between).elim here behind), if_neg]
          rintro rfl
          exact behind ⟨List.prefix_refl _, List.prefix_append _ _⟩

/-- A path means a place where a directory is. -/
structure DirectoryAt (system : FileSystem) (directory : String) (place : List String) : Prop where
  means : system.resolve directory = .ok place
  there : system.tree.sight place = .directory

/-- A path means a place where a directory is that has nothing in it. -/
def IsEmptyDirectory (system : FileSystem) (directory : String) : Prop :=
  ∃ place, DirectoryAt system directory place ∧
    ∀ name below, system.tree.sight (place ++ name :: below) = .nothing

/-- A path below a directory is not longer than the system allows, and neither are its names. -/
structure Fits (directory path : String) : Prop where
  whole : (join directory path).utf8ByteSize < 4096
  names : ∀ name ∈ FileSystem.names path, name.utf8ByteSize ≤ 255

instance (directory path : String) : Decidable (Fits directory path) :=
  decidable_of_iff ((join directory path).utf8ByteSize < 4096 ∧
      ∀ name ∈ FileSystem.names path, name.utf8ByteSize ≤ 255)
    ⟨fun ⟨whole, parts⟩ => ⟨whole, parts⟩, fun ⟨whole, parts⟩ => ⟨whole, parts⟩⟩

namespace DirectoryAt

variable {directory : String}

/-- A path that means a place is not empty, can be used, and its names lead to the place. -/
theorem resolve_eq_ok (means : system.resolve directory = .ok place) :
    directory ≠ "" ∧ unusable directory = false ∧
      (FileSystem.names directory).foldlM (advance system.tree) (system.start directory) =
        .ok place := by
  unfold resolve at means
  split at means
  · cases means
  · rename_i filled
    split at means
    · cases means
    · rename_i usable
      exact ⟨fun empty => filled (by rw [empty]; rfl), Bool.eq_false_iff.mpr usable, means⟩

theorem named (held : DirectoryAt system directory place) : directory ≠ "" :=
  (resolve_eq_ok held.means).1

theorem mono {tree : FileTree} (held : DirectoryAt system directory place)
    (more : ∀ place, system.tree.sight place = .directory → tree.sight place = .directory) :
    DirectoryAt { system with tree := tree } directory place where
  means := by
    obtain ⟨named, usable, walked⟩ := resolve_eq_ok held.means
    unfold resolve
    rw [if_neg (by simpa using named), usable]
    exact walk_mono more walked
  there := more place held.there

variable (held : DirectoryAt system directory place)

include held

theorem unusable_join (filled : names ≠ []) (good : ∀ name ∈ names, IsName name)
    (short : (join directory (relative names)).utf8ByteSize < 4096) :
    unusable (join directory (relative names)) = false := by
  obtain ⟨named, usable, -⟩ := resolve_eq_ok held.means
  have clean : '\x00' ∉ directory.toList := by
    unfold unusable at usable
    simpa using (Bool.or_eq_false_iff.mp usable).1
  unfold unusable
  simp [no_zero_join named clean filled good, Nat.not_le.mpr short]

theorem start_join (filled : names ≠ []) (good : ∀ name ∈ names, IsName name) :
    system.start (join directory (relative names)) = system.start directory := by
  unfold start
  rw [head?_join held.named filled good]

theorem resolve_join (filled : names ≠ []) (good : ∀ name ∈ names, IsName name)
    (fits : Fits directory (relative names))
    (there : ∀ above, above <+: names → above ≠ names →
      system.tree.sight (place ++ above) = .directory) :
    system.resolve (join directory (relative names)) = .ok (place ++ names) := by
  obtain ⟨named, -, walked⟩ := resolve_eq_ok held.means
  unfold resolve
  rw [if_neg (by simpa using join_ne_empty named filled good),
    held.unusable_join filled good fits.whole, names_join named filled good,
    held.start_join filled good, List.foldlM_append, walked]
  refine walk_of_leads (fun name member => ⟨(good name member).not_dots, fits.names name ?_⟩) there
  rwa [names_relative filled good]

theorem createDirectories_join (filled : names ≠ []) (good : ∀ name ∈ names, IsName name)
    (short : (join directory (relative names)).utf8ByteSize < 4096) :
    createDirectories (join directory (relative names)) system = createAlong place names system := by
  obtain ⟨named, -, walked⟩ := resolve_eq_ok held.means
  unfold createDirectories
  rw [if_neg (by simpa using join_ne_empty named filled good), held.unusable_join filled good short,
    endsInDot_join named filled good, names_join named filled good, held.start_join filled good]
  exact createAlong_of_walk walked held.there

theorem read_join {contents : String} (filled : names ≠ []) (good : ∀ name ∈ names, IsName name)
    (fits : Fits directory (relative names))
    (written : system.tree.sight (place ++ names) = .file contents) :
    system.read (join directory (relative names)) = .ok contents := by
  have means := held.resolve_join filled good fits (fun above before other =>
    FileTree.sight_of_prefix ((List.prefix_append_right_inj place).mpr before)
      (fun equal => other (List.append_cancel_left equal))
      (by rw [written]; exact Sight.noConfusion))
  unfold read
  rw [means]
  show Except.bind (.ok (place ++ names)) _ = _
  unfold Except.bind
  dsimp only
  unfold FileTree.sight at written
  cases found : system.tree.find? (place ++ names) with
  | none => rw [found] at written; cases written
  | some part =>
    cases part with
    | directory entries => rw [found] at written; cases written
    | file inside =>
      rw [found] at written
      cases written
      simp only [meansDirectory_join held.named filled good]
      rfl

/-- Writing to a path below the directory, whose parent is there, puts a file at its place. -/
theorem write_join (contents : String) (filled : names ≠ []) (good : ∀ name ∈ names, IsName name)
    (fits : Fits directory (relative names))
    (there : ∀ above, above <+: names → above ≠ names →
      system.tree.sight (place ++ above) = .directory)
    (own : system.tree.sight (place ++ names) ≠ .directory) :
    write (join directory (relative names)) contents system =
      (.ok (), { system with tree := system.tree.put (place ++ names) (.file contents) }) := by
  unfold write
  rw [held.resolve_join filled good fits there]
  simp only [meansDirectory_join held.named filled good]
  unfold placeFile
  unfold FileTree.sight at own
  cases found : system.tree.find? (place ++ names) with
  | none => rfl
  | some part =>
    rw [found] at own
    cases part with
    | file _ => rfl
    | directory _ => exact absurd rfl own

/-- Writing a file of an export below the directory, if no file is in the way and no directory in its
place, makes the directories above it and the file, and nothing else. -/
theorem writeFile_join (contents : String) (filled : above ≠ [])
    (good : ∀ part ∈ above ++ [name], IsName part)
    (fits : Fits directory (relative (above ++ [name])))
    (free : ∀ front, front <+: above → ∀ contents,
      system.tree.sight (place ++ front) ≠ .file contents)
    (own : system.tree.sight (place ++ (above ++ [name])) ≠ .directory) :
    ∃ tree, Export.writeFile directory ⟨relative (above ++ [name]), contents⟩ system =
        (.ok (), { system with tree := tree }) ∧
      ∀ elsewhere, tree.sight elsewhere =
        if elsewhere = place ++ (above ++ [name]) then .file contents
        else if Between place (place ++ above) elsewhere then .directory
        else system.tree.sight elsewhere := by
  have nonempty := List.concat_ne_nil name above
  have goodAbove : ∀ part ∈ above, IsName part :=
    fun part member => good part (List.mem_append_left _ member)
  have goodName : IsName name := good name List.mem_concat_self
  have parent := join_concat held.named filled goodAbove name
  have shorter : (join directory (relative above)).utf8ByteSize < 4096 := by
    have short := fits.whole
    rw [parent, String.utf8ByteSize_append, String.utf8ByteSize_append] at short
    omega
  have leads : ∀ part ∈ above, Leads part := fun part member =>
    ⟨(goodAbove part member).not_dots, fits.names part (by
      rw [names_relative nonempty good]
      exact List.mem_append_left _ member)⟩
  -- First the directories above the file are made: after that its parent is there.
  obtain ⟨tree, made, sight⟩ := createAlong_of_free held.there leads free
  have more (elsewhere : List String) (there : system.tree.sight elsewhere = .directory) :
      tree.sight elsewhere = .directory := by rw [sight, there, ite_id]
  have held' := held.mono more
  have parentThere : ∀ front, front <+: above → tree.sight (place ++ front) = .directory :=
    fun front before => (sight _).trans (if_pos
      ⟨List.prefix_append _ _, (List.prefix_append_right_inj place).mpr before⟩)
  have own' : tree.sight (place ++ (above ++ [name])) ≠ .directory := by
    rw [sight, if_neg]
    · exact own
    · rw [← List.append_assoc]
      exact fun ⟨_, before⟩ => prefix_ne_concat before rfl
  have written := held'.write_join contents nonempty good fits
    (fun front before other => parentThere front
      ((List.prefix_concat_iff.mp before).resolve_left other)) own'
  refine ⟨tree.put (place ++ (above ++ [name])) (.file contents), ?_, fun elsewhere => ?_⟩
  · unfold Export.writeFile
    dsimp only
    rw [parent, parentPath_concat _ goodName, ← parent,
      held.createDirectories_join filled goodAbove shorter, made]
    exact written
  · rw [← List.append_assoc] at own' ⊢
    rw [FileTree.sight_put_file contents (parentThere above (List.prefix_refl above)) own', sight]

end DirectoryAt

end ScreenStudio.FileSystem
