/- digest: A directory that is made in several attempts, and the entries it has. -/

import ScreenStudio.Proofs.Storage.Entries
import ScreenStudio.Proofs.Storage.Making

set_option autoImplicit false
set_option relaxedAutoImplicit false

namespace ScreenStudio.FileSystem

variable {initial made system : FileSystem} {directory : String} {place : List String}
  {entries : List (String × FileTree)}

/-- A directory was made from some files, and nothing is in it. -/
structure Opened (initial made : FileSystem) (directory : String) (place : List String) : Prop where
  did : createDirectories directory initial = (.ok (), made)
  held : DirectoryAt made directory place
  empty : ∀ name below, made.tree.sight (place ++ name :: below) = .nothing

theorem Opened.along (opened : Opened initial made directory place) :
    createAlong (initial.start directory) (way directory) initial = (.ok (), made) :=
  have ⟨named, usable, _⟩ := DirectoryAt.resolve_eq_ok opened.held.means
  (createDirectories_eq_ok_iff named usable opened.held).mp opened.did

theorem Opened.grows (opened : Opened initial made directory place) : Grows initial made := by
  have grows := grows_createAlong (initial.start directory) (way directory) initial
  rwa [opened.along] at grows

/-- Some of the directories that have to be made are made. -/
structure Underway (initial made system : FileSystem) : Prop where
  current : system.current = initial.current
  between : ∀ elsewhere, system.tree.sight elsewhere = initial.tree.sight elsewhere ∨
    made.tree.sight elsewhere = .directory ∧ system.tree.sight elsewhere = .directory

namespace Underway

variable (underway : Underway initial made system)

include underway

theorem more (elsewhere : List String) (there : initial.tree.sight elsewhere = .directory) :
    system.tree.sight elsewhere = .directory := by
  rcases underway.between elsewhere with same | ⟨_, new⟩
  · rw [same, there]
  · exact new

theorem free (opened : Opened initial made directory place) (elsewhere : List String)
    (there : made.tree.sight elsewhere = .directory) :
    system.tree.sight elsewhere = .directory ∨ system.tree.sight elsewhere = .nothing := by
  rcases underway.between elsewhere with same | ⟨_, new⟩
  · rw [same]
    exact opened.grows.before there
  · exact .inl new

theorem start_eq (path : String) : system.start path = initial.start path := by
  unfold start
  rw [underway.current]

theorem lists (opened : Opened initial made directory place) (held : DirectoryAt system directory place) :
    Lists system directory place [] := by
  obtain ⟨entries, found⟩ := find?_of_sight held.there
  cases entries with
  | nil => exact ⟨held, found⟩
  | cons entry rest =>
    -- The entry would be something below the directory, where neither before nor after anything is.
    obtain ⟨name, part⟩ := entry
    have own : system.tree.find? (place ++ [name]) = some part := by
      rw [FileTree.find?_concat found, Dictionary.get?, if_pos rfl]
    have nothing : system.tree.sight (place ++ [name]) = .nothing := by
      have after := opened.empty name []
      rcases underway.between (place ++ [name]) with same | ⟨there, _⟩
      · rcases opened.grows.sight (place ++ [name]) with same' | ⟨_, there⟩
        · rw [same, ← same', after]
        · rw [after] at there
          cases there
      · rw [after] at there
        cases there
    unfold FileTree.sight at nothing
    rw [own] at nothing
    cases part <;> cases nothing

theorem again {goal : FileSystem} {names : List String} (opened : Opened initial made directory place)
    (did : createAlong (initial.start directory) names initial = (.ok (), goal)) (grows : Grows goal made) :
    ∃ after, createAlong (system.start directory) names system = (.ok (), after) ∧ Underway initial made after ∧
      ∀ elsewhere, goal.tree.sight elsewhere = .directory → after.tree.sight elsewhere = .directory := by
  obtain ⟨after, along, current, reached, others⟩ := createAlong_again did underway.more
    (fun elsewhere there => underway.free opened elsewhere (grows.directory there))
  rw [underway.start_eq]
  refine ⟨after, along, ⟨current.trans underway.current, fun elsewhere => ?_⟩, reached⟩
  rcases others elsewhere with same | ⟨there, new⟩
  · rw [same]
    exact underway.between elsewhere
  · exact .inr ⟨grows.directory there, new⟩

end Underway

/-- What the files of a storage can be: the directories are not all made, or the directory has some entries. -/
inductive Stage (initial made : FileSystem) (directory : String) (place : List String) :
    FileSystem → List (String × FileTree) → Prop
  | before {system : FileSystem} (underway : Underway initial made system) :
    Stage initial made directory place system []
  | there {system : FileSystem} {entries : List (String × FileTree)}
    (lists : Lists system directory place entries) : Stage initial made directory place system entries

namespace Stage

variable (opened : Opened initial made directory place) (stage : Stage initial made directory place system entries)

include opened stage

theorem create :
    ∃ after, createDirectories directory system = (.ok (), after) ∧ Lists after directory place entries := by
  cases stage with
  | there lists => exact ⟨system, lists.held.createDirectories, lists⟩
  | before underway =>
    obtain ⟨named, usable, _⟩ := DirectoryAt.resolve_eq_ok opened.held.means
    obtain ⟨after, did, underway', reached⟩ := underway.again opened opened.along (.refl made)
    have current : after.current = made.current := underway'.current.trans opened.grows.current.symm
    have held : DirectoryAt after directory place := by
      have held := opened.held.mono reached
      rwa [← current] at held
    exact ⟨after, (createDirectories_eq_ok_iff named usable held).mpr did, underway'.lists opened held⟩

theorem create_some (count : Nat) :
    Stage initial made directory place
      (createAlong (system.start directory) ((way directory).take count) system).2 entries := by
  cases stage with
  | there lists =>
    obtain ⟨_, _, walked⟩ := DirectoryAt.resolve_eq_ok lists.held.means
    have before := (List.take_prefix count (way directory)).trans (way_prefix_names directory)
    rw [createAlong_front before walked lists.held.there]
    exact .there lists
  | before underway =>
    obtain ⟨part, did, grows⟩ := createAlong_take opened.along count
    obtain ⟨after, did', underway', _⟩ := underway.again opened did grows
    rw [did']
    exact .before underway'

/-- Unless there is the directory, there are no entries, and a path of a file means nothing. -/
theorem lists_or_missing : Lists system directory place entries ∨
    entries = [] ∧ ∀ name, Takes directory name → system.resolve (join directory name) = .error .missing := by
  cases stage with
  | there lists => exact .inl lists
  | before underway =>
    obtain ⟨named, usable, walked⟩ := DirectoryAt.resolve_eq_ok opened.held.means
    have start : made.start directory = system.start directory := by
      unfold start
      rw [underway.current, opened.grows.current]
    rw [start] at walked
    rcases walk_or_missing (underway.free opened) walked with reached | missing
    · rcases underway.free opened place opened.held.there with there | nothing
      · refine .inl (underway.lists opened ⟨?_, there⟩)
        unfold resolve
        rw [if_neg (by simpa using named), usable]
        exact reached
      · refine .inr ⟨rfl, fun name takes => ?_⟩
        rw [resolve_join_of_takes opened.held takes, reached]
        exact advance_of_nothing nothing
    · refine .inr ⟨rfl, fun name takes => ?_⟩
      rw [resolve_join_of_takes opened.held takes, missing]
      rfl

end Stage

end ScreenStudio.FileSystem
