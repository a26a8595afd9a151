/- digest: Directories that are made in several attempts, some of which were cut short. -/

import ScreenStudio.Proofs.Storage.Writing

set_option autoImplicit false
set_option relaxedAutoImplicit false

namespace ScreenStudio.FileSystem

variable {system made other : FileSystem} {place next start names rest : List String} {name : String}

theorem advance_cases {tree : FileTree} (advanced : advance tree place name = .ok next) :
    tree.sight place = .directory ∧ (next = place ++ [name] ∨ tree.sight next = .directory) := by
  have there := advance_eq_ok advanced
  refine ⟨there, ?_⟩
  obtain ⟨entries, found⟩ := find?_of_sight there
  unfold advance at advanced
  rw [found] at advanced
  dsimp only at advanced
  split at advanced
  · cases advanced
    right
    by_cases same : place.dropLast = place
    · rw [same]
      exact there
    · exact FileTree.sight_of_prefix (List.dropLast_prefix place) same
        (by rw [there]; exact Sight.noConfusion)
  · split at advanced
    · cases advanced
    · cases advanced
      exact .inl rfl

theorem createDirectory_of_advance (advanced : advance system.tree place name = .ok next)
    (free : ∀ contents, system.tree.sight next ≠ .file contents) :
    ∃ tree, createDirectory next system = (.ok (), { system with tree := tree }) ∧
      ∀ elsewhere, tree.sight elsewhere =
        if elsewhere = next then .directory else system.tree.sight elsewhere := by
  obtain ⟨parent, rfl | there⟩ := advance_cases advanced
  · exact createDirectory_of_free parent free
  · obtain ⟨entries, found⟩ := find?_of_sight there
    refine ⟨system.tree, ?_, fun elsewhere => ?_⟩
    · unfold createDirectory
      rw [found]
    · split
      · rename_i same
        rw [same, there]
      · rfl

theorem advance_of_nothing {tree : FileTree} (nothing : tree.sight place = .nothing) :
    advance tree place name = .error .missing := by
  unfold FileTree.sight at nothing
  unfold advance
  cases found : tree.find? place with
  | none => rfl
  | some part => rw [found] at nothing; cases part <;> cases nothing

theorem createDirectory_of_file {contents : String} (is : system.tree.sight place = .file contents) :
    createDirectory place system = (.error .refused, system) := by
  unfold FileTree.sight at is
  unfold createDirectory
  cases found : system.tree.find? place with
  | none => rw [found] at is; cases is
  | some part =>
    cases part with
    | directory entries => rw [found] at is; cases is
    | file inside => rfl

section Growing

/-- Some places where nothing was have become directories, and nothing else has changed. -/
structure Grows (system after : FileSystem) : Prop where
  current : after.current = system.current
  sight : ∀ place, after.tree.sight place = system.tree.sight place ∨
    system.tree.sight place = .nothing ∧ after.tree.sight place = .directory

theorem Grows.refl (system : FileSystem) : Grows system system := ⟨rfl, fun _ => .inl rfl⟩

theorem Grows.directory (grows : Grows system made) (there : system.tree.sight place = .directory) :
    made.tree.sight place = .directory := by
  rcases grows.sight place with same | ⟨_, new⟩
  · rw [same, there]
  · exact new

theorem Grows.trans (first : Grows system made) (second : Grows made other) : Grows system other := by
  refine ⟨second.current.trans first.current, fun place => ?_⟩
  rcases second.sight place with same | ⟨nothing, new⟩
  · rw [same]
    exact first.sight place
  · rcases first.sight place with same' | ⟨nothing', _⟩
    · exact .inr ⟨same'.symm.trans nothing, new⟩
    · exact .inr ⟨nothing', new⟩

theorem Grows.before (grows : Grows system made) (there : made.tree.sight place = .directory) :
    system.tree.sight place = .directory ∨ system.tree.sight place = .nothing := by
  rcases grows.sight place with same | ⟨nothing, _⟩
  · exact .inl (same.symm.trans there)
  · exact .inr nothing

theorem grows_createDirectory (advanced : advance system.tree place name = .ok next) :
    Grows system (createDirectory next system).2 := by
  cases is : system.tree.sight next with
  | file contents =>
    rw [createDirectory_of_file is]
    exact .refl system
  | nothing | directory =>
    obtain ⟨tree, created, sight⟩ := createDirectory_of_advance advanced
      (by intro contents; rw [is]; exact Sight.noConfusion)
    rw [created]
    refine ⟨rfl, fun elsewhere => ?_⟩
    rw [sight]
    split
    · rename_i same
      rw [same, is]
      simp
    · exact .inl rfl

theorem grows_createAlong (start names : List String) (system : FileSystem) :
    Grows system (createAlong start names system).2 := by
  induction names generalizing start system with
  | nil => exact .refl system
  | cons name rest ih =>
    rw [createAlong]
    cases advanced : advance system.tree start name with
    | error error => exact .refl system
    | ok next =>
      have first := grows_createDirectory advanced
      dsimp only
      generalize createDirectory next system = step at first
      obtain ⟨result, between⟩ := step
      cases result with
      | error error => exact first
      | ok => exact first.trans (ih next between)

end Growing

section Along

theorem createAlong_of_advance (advanced : advance system.tree start name = .ok next)
    (free : ∀ contents, system.tree.sight next ≠ .file contents) :
    ∃ tree, (∀ rest, createAlong start (name :: rest) system =
        createAlong next rest { system with tree := tree }) ∧
      ∀ elsewhere, tree.sight elsewhere =
        if elsewhere = next then .directory else system.tree.sight elsewhere := by
  obtain ⟨tree, created, sight⟩ := createDirectory_of_advance advanced free
  refine ⟨tree, fun rest => ?_, sight⟩
  rw [createAlong, advanced]
  dsimp only
  rw [created]
  rfl

theorem exists_advance_of_createAlong
    (did : createAlong start (name :: rest) system = (.ok (), made)) :
    ∃ next, advance system.tree start name = .ok next ∧
      ∀ contents, system.tree.sight next ≠ .file contents := by
  rw [createAlong] at did
  cases advanced : advance system.tree start name with
  | error error => rw [advanced] at did; cases did
  | ok next =>
    refine ⟨next, rfl, fun contents is => ?_⟩
    rw [advanced] at did
    dsimp only at did
    rw [createDirectory_of_file is] at did
    cases did

theorem createAlong_take (did : createAlong start names system = (.ok (), made)) (count : Nat) :
    ∃ part, createAlong start (names.take count) system = (.ok (), part) ∧ Grows part made := by
  induction names generalizing start system count with
  | nil =>
    rw [List.take_nil]
    exact ⟨made, did, .refl made⟩
  | cons name rest ih =>
    cases count with
    | zero =>
      have grows := grows_createAlong start (name :: rest) system
      rw [did] at grows
      exact ⟨system, rfl, grows⟩
    | succ count =>
      obtain ⟨next, advanced, free⟩ := exists_advance_of_createAlong did
      obtain ⟨tree, onwards, _⟩ := createAlong_of_advance advanced free
      rw [onwards] at did
      rw [List.take_succ_cons, onwards]
      exact ih did count

/-- A way that was gone can be gone again from files with more directories, if only directories or nothing
are where the way has led. -/
theorem createAlong_again (did : createAlong start names system = (.ok (), made))
    (more : ∀ place, system.tree.sight place = .directory → other.tree.sight place = .directory)
    (free : ∀ place, made.tree.sight place = .directory →
      other.tree.sight place = .directory ∨ other.tree.sight place = .nothing) :
    ∃ after, createAlong start names other = (.ok (), after) ∧ after.current = other.current ∧
      (∀ place, made.tree.sight place = .directory → after.tree.sight place = .directory) ∧
      ∀ place, after.tree.sight place = other.tree.sight place ∨
        made.tree.sight place = .directory ∧ after.tree.sight place = .directory := by
  induction names generalizing start system other with
  | nil =>
    cases did
    exact ⟨other, rfl, rfl, more, fun _ => .inl rfl⟩
  | cons name rest ih =>
    obtain ⟨next, advanced, free'⟩ := exists_advance_of_createAlong did
    obtain ⟨tree, onwards, sight⟩ := createAlong_of_advance advanced free'
    rw [onwards] at did
    have grows := grows_createAlong next rest { system with tree := tree }
    rw [did] at grows
    have led : made.tree.sight next = .directory := grows.directory ((sight next).trans (if_pos rfl))
    obtain ⟨tree', onwards', sight'⟩ := createAlong_of_advance (advance_mono more advanced)
      (by
        intro contents is
        rcases free next led with there | nothing
        · rw [there] at is; cases is
        · rw [nothing] at is; cases is)
    have more' (place : List String) (there : tree.sight place = .directory) :
        ({ other with tree := tree' } : FileSystem).tree.sight place = .directory := by
      show tree'.sight place = _
      rw [sight] at there
      rw [sight']
      split
      · rfl
      · rename_i different
        rw [if_neg different] at there
        exact more place there
    have free'' (place : List String) (there : made.tree.sight place = .directory) :
        tree'.sight place = .directory ∨ tree'.sight place = .nothing := by
      rw [sight']
      split
      · exact .inl rfl
      · exact free place there
    obtain ⟨after, went, current, reached, others⟩ := ih did more' free''
    refine ⟨after, (onwards' rest).trans went, current, reached, fun place => ?_⟩
    rcases others place with same | new
    · rw [same]
      show tree'.sight place = _ ∨ _ ∧ tree'.sight place = _
      rw [sight']
      split
      · rename_i here
        rw [here]
        exact .inr ⟨led, rfl⟩
      · exact .inl rfl
    · exact .inr new

end Along

section Walking

/-- Where a way leads through directories of some files, it leads in others, which have directories or nothing
in their places, to the same place or to nothing. -/
theorem walk_or_missing {tree goal : FileTree}
    (free : ∀ place, goal.sight place = .directory →
      tree.sight place = .directory ∨ tree.sight place = .nothing)
    (walked : names.foldlM (advance goal) start = .ok place) :
    names.foldlM (advance tree) start = .ok place ∨
      names.foldlM (advance tree) start = .error .missing := by
  induction names generalizing start with
  | nil => exact .inl walked
  | cons name names ih =>
    rw [walk_cons] at walked ⊢
    cases advanced : advance goal start name with
    | error error => rw [advanced] at walked; cases walked
    | ok next =>
      rw [advanced] at walked
      have there := advance_eq_ok advanced
      rcases free start there with there' | nothing
      · rw [advance_congr there there', advanced]
        exact ih walked
      · right
        rw [advance_of_nothing nothing]
        rfl

theorem createAlong_front {front : List String} (before : front <+: names)
    (walked : names.foldlM (advance system.tree) start = .ok place)
    (there : system.tree.sight place = .directory) :
    createAlong start front system = (.ok (), system) := by
  obtain ⟨rest, rfl⟩ := before
  rw [List.foldlM_append] at walked
  cases halfway : front.foldlM (advance system.tree) start with
  | error error => rw [halfway] at walked; cases walked
  | ok between =>
    rw [halfway] at walked
    have along : createAlong start (front ++ []) system = createAlong between [] system :=
      createAlong_of_walk halfway (sight_of_walk walked there)
    rwa [List.append_nil] at along

end Walking

section Paths

variable {directory : String}

/-- The names along which the directories of a path are made. -/
def way (path : String) : List String :=
  if endsInDot path then (FileSystem.names path).dropLast else FileSystem.names path

theorem way_prefix_names (path : String) : way path <+: FileSystem.names path := by
  unfold way
  split
  · exact List.dropLast_prefix _
  · exact List.prefix_refl _

theorem requireDirectory_of_there (held : DirectoryAt system directory place) :
    requireDirectory directory system = (.ok (), system) := by
  obtain ⟨entries, found⟩ := find?_of_sight held.there
  unfold requireDirectory
  rw [held.means]
  dsimp only
  rw [found]

theorem eq_of_requireDirectory (did : requireDirectory directory system = (.ok (), made)) :
    system = made := by
  unfold requireDirectory at did
  split at did
  · cases did
  · split at did <;> cases did
    rfl

theorem createDirectories_eq_ok_iff (named : directory ≠ "") (usable : unusable directory = false)
    (held : DirectoryAt made directory place) :
    createDirectories directory system = (.ok (), made) ↔
      createAlong (system.start directory) (way directory) system = (.ok (), made) := by
  unfold createDirectories way
  rw [if_neg (by simpa using named), usable]
  rw [if_neg Bool.false_ne_true]
  split
  · generalize createAlong (system.start directory) (FileSystem.names directory).dropLast system = step
    obtain ⟨result, between⟩ := step
    cases result with
    | error error => exact iff_of_false nofun nofun
    | ok =>
      constructor
      · intro did
        rw [eq_of_requireDirectory did]
      · intro same
        cases same
        exact requireDirectory_of_there held
  · exact Iff.rfl

theorem DirectoryAt.createDirectories (held : DirectoryAt system directory place) :
    createDirectories directory system = (.ok (), system) := by
  obtain ⟨named, usable, walked⟩ := resolve_eq_ok held.means
  exact (createDirectories_eq_ok_iff named usable held).mpr
    (createAlong_front (way_prefix_names directory) walked held.there)

/-- A directory can be made at a path, and then nothing is in it: it is missing and no file is in its way, or it
is there and empty. -/
def Vacant (system : FileSystem) (directory : String) : Prop :=
  ∃ made, FileSystem.createDirectories directory system = (.ok (), made) ∧ IsEmptyDirectory made directory

theorem vacant_of_missing (named : directory ≠ "") (usable : unusable directory = false)
    (noDot : endsInDot directory = false) (lead : ∀ name ∈ FileSystem.names directory, Leads name)
    (there : system.tree.sight (system.start directory) = .directory)
    (free : ∀ above, above <+: FileSystem.names directory → ∀ contents,
      system.tree.sight (system.start directory ++ above) ≠ .file contents)
    (missing : system.tree.sight (system.start directory ++ FileSystem.names directory) = .nothing) :
    Vacant system directory := by
  obtain ⟨tree, made, sight⟩ := createAlong_of_free there lead free
  have held : DirectoryAt { system with tree := tree } directory
      (system.start directory ++ FileSystem.names directory) := by
    constructor
    · unfold resolve
      rw [if_neg (by simpa using named), usable]
      exact walk_of_leads lead fun above before _ => (sight _).trans (if_pos
        ⟨List.prefix_append _ _, (List.prefix_append_right_inj _).mpr before⟩)
    · exact (sight _).trans (if_pos ⟨List.prefix_append _ _, List.prefix_refl _⟩)
  refine ⟨_, (createDirectories_eq_ok_iff named usable held).mpr ?_, _, held, fun name below => ?_⟩
  · unfold way
    rw [noDot]
    exact made
  · show tree.sight _ = _
    rw [sight, if_neg]
    · exact FileTree.sight_below below (by rw [missing]; exact Sight.noConfusion)
    · rintro ⟨_, before⟩
      have short := before.length_le
      rw [List.length_append, List.length_cons] at short
      omega

end Paths

end ScreenStudio.FileSystem
