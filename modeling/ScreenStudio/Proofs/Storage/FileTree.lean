/- digest: What there is at every place of a tree of files, before and after something was put there. -/

import Mathlib.Data.List.Infix
import ScreenStudio.Proofs.Dictionary
import ScreenStudio.Storage.FileSystem

set_option autoImplicit false
set_option relaxedAutoImplicit false

namespace ScreenStudio

theorem prefix_ne_concat {front above : List String} {name : String} (before : front <+: above) :
    front ≠ above ++ [name] := by
  rintro rfl
  have short := before.length_le
  rw [List.length_append, List.length_singleton] at short
  omega

/-- What there is at a place, apart from what is in it if it is a directory. -/
inductive Sight
  | nothing
  | directory
  | file (contents : String)
  deriving DecidableEq

namespace FileTree

def sight (tree : FileTree) (place : List String) : Sight :=
  match tree.find? place with
  | none => .nothing
  | some (.file contents) => .file contents
  | some (.directory _) => .directory

theorem sight_cons (entries : List (String × FileTree)) (name : String) (place : List String) :
    (directory entries).sight (name :: place) =
      match Dictionary.get? name entries with
      | some inner => inner.sight place
      | none => .nothing := by
  unfold sight
  rw [find?]
  cases Dictionary.get? name entries <;> rfl

theorem sight_cons_of_file (contents name : String) (place : List String) :
    (file contents).sight (name :: place) = .nothing := rfl

theorem sight_below {place : List String} {name : String} (rest : List String) {tree : FileTree}
    (no : tree.sight place ≠ .directory) : tree.sight (place ++ name :: rest) = .nothing := by
  induction place generalizing tree with
  | nil =>
    cases tree with
    | file contents => exact sight_cons_of_file contents name rest
    | directory entries => exact absurd rfl no
  | cons first place ih =>
    cases tree with
    | file contents => exact sight_cons_of_file contents first _
    | directory entries =>
      rw [sight_cons] at no
      rw [List.cons_append, sight_cons]
      cases found : Dictionary.get? first entries with
      | none => rfl
      | some inner =>
        rw [found] at no
        exact ih no

theorem sight_of_prefix {above place : List String} {tree : FileTree} (before : above <+: place)
    (other : above ≠ place) (there : tree.sight place ≠ .nothing) :
    tree.sight above = .directory := by
  obtain ⟨rest, rfl⟩ := before
  by_contra no
  cases rest with
  | nil => exact other (List.append_nil above).symm
  | cons name rest => exact there (sight_below rest no)

/-- The place leads through directories to the one with the entries. -/
inductive Leads (entries : List (String × FileTree)) : List String → FileTree → Prop
  | here : Leads entries [] (.directory entries)
  | step {name : String} {place : List String} {inner : FileTree} {others : List (String × FileTree)}
    (own : Dictionary.get? name others = some inner) (behind : Leads entries place inner) :
    Leads entries (name :: place) (.directory others)

theorem leads_of_find? {entries : List (String × FileTree)} {place : List String} {tree : FileTree}
    (found : tree.find? place = some (.directory entries)) : Leads entries place tree := by
  induction place generalizing tree with
  | nil =>
    cases found
    exact .here
  | cons name place ih =>
    cases tree with
    | file contents => cases found
    | directory others =>
      rw [find?] at found
      cases own : Dictionary.get? name others with
      | none => rw [own] at found; cases found
      | some inner =>
        rw [own] at found
        exact .step own (ih found)

theorem leads_of_sight {place : List String} {tree : FileTree} (there : tree.sight place = .directory) :
    ∃ entries, Leads entries place tree := by
  unfold sight at there
  split at there
  · cases there
  · cases there
  · rename_i entries found
    exact ⟨entries, leads_of_find? found⟩

/-- What is put into a directory is found at and below its own place, and all else stays. -/
theorem sight_put {place : List String} {name : String} {tree : FileTree} (part : FileTree)
    (parent : tree.sight place = .directory) (elsewhere : List String) :
    (tree.put (place ++ [name]) part).sight elsewhere =
      if place ++ [name] <+: elsewhere then part.sight (elsewhere.drop (place.length + 1))
      else tree.sight elsewhere := by
  obtain ⟨entries, leads⟩ := leads_of_sight parent
  clear parent
  induction leads generalizing elsewhere with
  | here =>
    cases elsewhere with
    | nil => rfl
    | cons first rest =>
      rw [List.nil_append, put, sight_cons]
      by_cases same : name = first
      · subst same
        rw [Dictionary.get?_insert_self, if_pos ⟨rest, rfl⟩]
        rfl
      · have apart : ¬[name] <+: first :: rest := fun before => same (List.cons_prefix_cons.mp before).1
        rw [Dictionary.get?_insert_of_ne (Ne.symm same), if_neg apart, sight_cons]
  | @step head place inner others own _ ih =>
    cases elsewhere with
    | nil => rw [List.cons_append, put, own]; rfl
    | cons first rest =>
      rw [List.cons_append, put, own, sight_cons]
      by_cases same : head = first
      · subst same
        rw [Dictionary.get?_insert_self, sight_cons, own]
        simp only [List.cons_prefix_cons, true_and]
        exact ih rest
      · have apart : ¬head :: (place ++ [name]) <+: first :: rest :=
          fun before => same (List.cons_prefix_cons.mp before).1
        rw [Dictionary.get?_insert_of_ne (Ne.symm same), if_neg apart, sight_cons]

private theorem sight_put_single {place : List String} {name : String} {tree part : FileTree}
    (alone : ∀ first rest, part.sight (first :: rest) = .nothing)
    (parent : tree.sight place = .directory) (free : tree.sight (place ++ [name]) ≠ .directory)
    (elsewhere : List String) :
    (tree.put (place ++ [name]) part).sight elsewhere =
      if elsewhere = place ++ [name] then part.sight [] else tree.sight elsewhere := by
  rw [sight_put _ parent]
  split
  · rename_i before
    obtain ⟨rest, rfl⟩ := before
    cases rest with
    | nil => simp
    | cons first rest =>
      rw [if_neg (by simp), sight_below rest free]
      simp [alone]
  · rename_i apart
    rw [if_neg]
    rintro rfl
    exact apart (List.prefix_refl _)

/-- A file that is put into a directory, where no directory is, changes its own place only. -/
theorem sight_put_file {place : List String} {name : String} {tree : FileTree} (contents : String)
    (parent : tree.sight place = .directory) (free : tree.sight (place ++ [name]) ≠ .directory)
    (elsewhere : List String) :
    (tree.put (place ++ [name]) (.file contents)).sight elsewhere =
      if elsewhere = place ++ [name] then .file contents else tree.sight elsewhere :=
  sight_put_single (sight_cons_of_file contents) parent free elsewhere

theorem sight_put_directory {place : List String} {name : String} {tree : FileTree}
    (parent : tree.sight place = .directory) (free : tree.sight (place ++ [name]) = .nothing)
    (elsewhere : List String) :
    (tree.put (place ++ [name]) (.directory [])).sight elsewhere =
      if elsewhere = place ++ [name] then .directory else tree.sight elsewhere :=
  sight_put_single (fun first rest => sight_cons [] first rest) parent
    (by rw [free]; exact Sight.noConfusion) elsewhere

section Entries

variable {tree : FileTree} {place : List String} {name : String} {entries : List (String × FileTree)}

theorem find?_append (place rest : List String) (tree : FileTree) :
    tree.find? (place ++ rest) = (tree.find? place).bind (find? rest) := by
  induction place generalizing tree with
  | nil => rfl
  | cons name place ih =>
    cases tree with
    | file contents => rfl
    | directory entries =>
      rw [List.cons_append, find?, find?]
      cases Dictionary.get? name entries with
      | none => rfl
      | some inner => exact ih inner

theorem find?_concat (found : tree.find? place = some (.directory entries)) (name : String) :
    tree.find? (place ++ [name]) = Dictionary.get? name entries := by
  rw [find?_append, found]
  show find? [name] (directory entries) = _
  rw [find?]
  cases Dictionary.get? name entries <;> rfl

theorem find?_put_concat (found : tree.find? place = some (.directory entries)) (name : String)
    (part : FileTree) :
    (tree.put (place ++ [name]) part).find? place =
      some (.directory (Dictionary.insert name part entries)) := by
  have leads := leads_of_find? found
  clear found
  induction leads with
  | here => rfl
  | step own _ ih =>
    rw [List.cons_append, put, own, find?, Dictionary.get?_insert_self]
    exact ih

theorem remove_cons (name : String) {path : List String} (filled : path ≠ [])
    (entries : List (String × FileTree)) :
    (directory entries).remove (name :: path) =
      match Dictionary.get? name entries with
      | some inner => .directory (Dictionary.insert name (remove path inner) entries)
      | none => .directory entries := by
  cases path with
  | nil => exact absurd rfl filled
  | cons next rest => rfl

theorem find?_remove_concat (found : tree.find? place = some (.directory entries)) (name : String) :
    (tree.remove (place ++ [name])).find? place =
      some (.directory (Dictionary.erase name entries)) := by
  have leads := leads_of_find? found
  clear found
  induction leads with
  | here => rfl
  | @step head place _ _ own _ ih =>
    rw [List.cons_append, remove_cons head (List.concat_ne_nil name place), own]
    dsimp only
    rw [find?, Dictionary.get?_insert_self]
    exact ih

theorem sight_remove {elsewhere : List String} (apart : ¬place ++ [name] <+: elsewhere) :
    (tree.remove (place ++ [name])).sight elsewhere = tree.sight elsewhere := by
  induction place generalizing tree elsewhere with
  | nil =>
    cases tree with
    | file contents => rfl
    | directory entries =>
      cases elsewhere with
      | nil => rfl
      | cons first rest =>
        have different : first ≠ name := by
          rintro rfl
          exact apart ⟨rest, rfl⟩
        rw [List.nil_append, remove, sight_cons, sight_cons, Dictionary.get?_erase_of_ne different]
  | cons head place ih =>
    cases tree with
    | file contents => rfl
    | directory entries =>
      rw [List.cons_append, remove_cons head (List.concat_ne_nil name place)]
      cases found : Dictionary.get? head entries with
      | none => rfl
      | some inner =>
        cases elsewhere with
        | nil => rfl
        | cons first rest =>
          dsimp only
          rw [sight_cons, sight_cons]
          by_cases same : first = head
          · subst same
            rw [Dictionary.get?_insert_self, found]
            exact ih fun before => apart (List.cons_prefix_cons.mpr ⟨rfl, before⟩)
          · rw [Dictionary.get?_insert_of_ne same]

theorem sight_remove_file {contents : String} {elsewhere : List String}
    (own : tree.sight (place ++ [name]) = .file contents) (there : tree.sight elsewhere = .directory) :
    (tree.remove (place ++ [name])).sight elsewhere = .directory := by
  rw [sight_remove, there]
  intro before
  by_cases same : place ++ [name] = elsewhere
  · rw [same, there] at own
    cases own
  · have above := sight_of_prefix before same (by rw [there]; exact Sight.noConfusion)
    rw [above] at own
    cases own

end Entries

end FileTree

end ScreenStudio
