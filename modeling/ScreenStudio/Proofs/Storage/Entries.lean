/- digest: Files are read, written and moved in a directory as its entries are. -/

import ScreenStudio.Proofs.Storage.Writing

set_option autoImplicit false
set_option relaxedAutoImplicit false

namespace ScreenStudio.FileSystem

variable {system : FileSystem} {directory name target : String} {place location : List String}
  {entries : List (String × FileTree)}

/-- A file in the directory can have the name: it is a name and not too long, and neither is the path. -/
structure Takes (directory name : String) : Prop where
  good : IsName name
  fits : Fits directory name

instance (directory name : String) : Decidable (Takes directory name) :=
  decidable_of_iff (IsName name ∧ Fits directory name)
    ⟨fun ⟨good, fits⟩ => ⟨good, fits⟩, fun ⟨good, fits⟩ => ⟨good, fits⟩⟩

section Names

theorem relative_singleton (name : String) : relative [name] = name := String.intercalate_singleton

theorem names_of_isName (good : IsName name) : names name = [name] := by
  have single := names_relative (List.cons_ne_nil name []) (List.forall_mem_singleton.mpr good)
  rwa [relative_singleton] at single

theorem length_of_advance {tree : FileTree} {next : List String}
    (advanced : advance tree place name = .ok next) (notUp : name ≠ "..") : name.utf8ByteSize ≤ 255 := by
  obtain ⟨entries, found⟩ := find?_of_sight (advance_eq_ok advanced)
  unfold advance at advanced
  rw [found] at advanced
  dsimp only at advanced
  rw [if_neg notUp] at advanced
  split at advanced
  · cases advanced
  · rename_i short
    exact Nat.not_lt.mp short

theorem mem_join {c : Char} (directory : String) (member : c ∈ name.toList) :
    c ∈ (join directory name).toList := by
  unfold join
  split
  · exact member
  · split <;> simp [String.toList_append, member]

theorem takes_of_resolve (named : directory ≠ "") (good : '\x00' ∉ name.toList → IsName name)
    (means : system.resolve (join directory name) = .ok location) : Takes directory name := by
  obtain ⟨_, usable, walked⟩ := DirectoryAt.resolve_eq_ok means
  obtain ⟨clean, short⟩ := Bool.or_eq_false_iff.mp usable
  have good := good fun member => by simp [mem_join directory member] at clean
  refine ⟨good, by simpa using short, ?_⟩
  have joined := names_join named (List.cons_ne_nil name []) (List.forall_mem_singleton.mpr good)
  rw [relative_singleton] at joined
  rw [joined, List.foldlM_append] at walked
  rw [names_of_isName good, List.forall_mem_singleton]
  cases above : (names directory).foldlM (advance system.tree) (system.start (join directory name)) with
  | error error => rw [above] at walked; cases walked
  | ok between =>
    rw [above] at walked
    replace walked : [name].foldlM (advance system.tree) between = .ok location := walked
    rw [walk_cons] at walked
    cases advanced : advance system.tree between name with
    | error error => rw [advanced] at walked; cases walked
    | ok next => exact length_of_advance advanced good.not_dots

namespace Takes

variable (takes : Takes directory name)

include takes

theorem names_good : ∀ part ∈ [name], IsName part := List.forall_mem_singleton.mpr takes.good

theorem fits_relative : Fits directory (relative [name]) := by
  rw [relative_singleton]
  exact takes.fits

theorem short : name.utf8ByteSize ≤ 255 :=
  takes.fits.names name (by rw [names_of_isName takes.good]; exact List.mem_singleton_self name)

end Takes

theorem takes_of_append {front more : String} (named : directory ≠ "") (long : 2 < front.toList.length)
    (takes : Takes directory (front ++ more)) : Takes directory front := by
  have inside {c : Char} (member : c ∈ front.toList) : c ∈ (front ++ more).toList := by
    rw [String.toList_append]
    exact List.mem_append_left _ member
  have good : IsName front :=
    isName_of_long long (fun slash => takes.good.no_slash (inside slash))
      (fun zero => takes.good.no_zero (inside zero))
  have apart : ∀ {name : String}, IsName name → name.toList.head? ≠ some '/' :=
    fun good slash => good.no_slash (List.mem_of_head? slash)
  refine ⟨good, ?_, ?_⟩
  · have short := takes.fits.whole
    rw [join_of_relative named (apart takes.good)] at short
    rw [join_of_relative named (apart good)]
    by_cases slash : directory.toList.getLast? = some '/'
    · simp only [if_pos slash, String.utf8ByteSize_append] at short ⊢
      omega
    · simp only [if_neg slash, String.utf8ByteSize_append] at short ⊢
      omega
  · have short := takes.short
    rw [String.utf8ByteSize_append] at short
    rw [names_of_isName good, List.forall_mem_singleton]
    omega

end Names

/-- Where a path with a name at its end means something, the way to the directory is gone first. -/
theorem resolve_join_of_takes {made : FileSystem} (held : DirectoryAt made directory place)
    (takes : Takes directory name) (system : FileSystem) :
    system.resolve (join directory name) =
      ((names directory).foldlM (advance system.tree) (system.start directory)).bind
        (fun above => advance system.tree above name) := by
  have filled := join_ne_empty held.named (List.cons_ne_nil name []) takes.names_good
  have usable := held.unusable_join (List.cons_ne_nil name []) takes.names_good takes.fits_relative.whole
  have joined := names_join held.named (List.cons_ne_nil name []) takes.names_good
  have first := head?_join held.named (List.cons_ne_nil name []) takes.names_good
  rw [relative_singleton] at filled usable joined first
  unfold FileSystem.resolve start
  rw [if_neg (by simpa using filled), usable, joined, first, List.foldlM_append]
  show Except.bind _ _ = Except.bind _ _
  refine congrArg (Except.bind _) (funext fun above => ?_)
  rw [walk_cons]
  cases advance system.tree above name <;> rfl

/-- A path means a directory with some entries. -/
structure Lists (system : FileSystem) (directory : String) (place : List String)
    (entries : List (String × FileTree)) : Prop where
  held : DirectoryAt system directory place
  found : system.tree.find? place = some (.directory entries)

namespace Lists

variable (lists : Lists system directory place entries)

include lists

theorem find?_entry (name : String) : system.tree.find? (place ++ [name]) = Dictionary.get? name entries :=
  FileTree.find?_concat lists.found name

theorem above_entry (above : List String) (before : above <+: [name]) (other : above ≠ [name]) :
    system.tree.sight (place ++ above) = .directory := by
  rcases List.prefix_concat_iff.mp (show above <+: [] ++ [name] from before) with same | before
  · exact absurd same other
  · rw [List.prefix_nil.mp before, List.append_nil]
    exact lists.held.there

theorem resolve (takes : Takes directory name) :
    system.resolve (join directory name) = .ok (place ++ [name]) := by
  have means := lists.held.resolve_join (List.cons_ne_nil name []) takes.names_good takes.fits_relative
    lists.above_entry
  rwa [relative_singleton] at means

theorem read (takes : Takes directory name) :
    system.read (join directory name) =
      match Dictionary.get? name entries with
      | none => .error .missing
      | some (.directory _) => .error .refused
      | some (.file contents) => .ok contents := by
  have plain := meansDirectory_join lists.held.named (List.cons_ne_nil name []) takes.names_good
  rw [relative_singleton] at plain
  unfold FileSystem.read
  rw [lists.resolve takes]
  show Except.bind (.ok (place ++ [name])) _ = _
  unfold Except.bind
  dsimp only
  rw [lists.find?_entry, plain]
  cases Dictionary.get? name entries with
  | none => rfl
  | some part => cases part <;> rfl

theorem sight_entry_ne (own : ∀ inner, Dictionary.get? name entries ≠ some (.directory inner)) :
    system.tree.sight (place ++ [name]) ≠ .directory := by
  intro there
  obtain ⟨inner, found⟩ := find?_of_sight there
  exact own inner (by rw [← lists.find?_entry, found])

theorem put_file (text : String) (own : ∀ inner, Dictionary.get? name entries ≠ some (.directory inner)) :
    Lists { system with tree := system.tree.put (place ++ [name]) (.file text) } directory place
      (Dictionary.insert name (.file text) entries) := by
  have free := lists.sight_entry_ne own
  refine ⟨lists.held.mono fun elsewhere there => ?_, FileTree.find?_put_concat lists.found name _⟩
  rw [FileTree.sight_put_file text lists.held.there free, if_neg]
  · exact there
  · rintro rfl
    exact free there

theorem remove_file {text : String} (own : Dictionary.get? name entries = some (.file text)) :
    Lists { system with tree := system.tree.remove (place ++ [name]) } directory place
      (Dictionary.erase name entries) := by
  have file : system.tree.sight (place ++ [name]) = .file text := by
    unfold FileTree.sight
    rw [lists.find?_entry, own]
  exact ⟨lists.held.mono fun _ there => FileTree.sight_remove_file file there,
    FileTree.find?_remove_concat lists.found name⟩

theorem write (takes : Takes directory name) (text : String)
    (own : ∀ inner, Dictionary.get? name entries ≠ some (.directory inner)) :
    ∃ after, FileSystem.write (join directory name) text system = (.ok (), after) ∧
      Lists after directory place (Dictionary.insert name (.file text) entries) := by
  have did := lists.held.write_join text (List.cons_ne_nil name []) takes.names_good takes.fits_relative
    lists.above_entry (lists.sight_entry_ne own)
  rw [relative_singleton] at did
  exact ⟨_, did, lists.put_file text own⟩

/-- Moving a file takes its entry out and puts it in under the other name, if there is no directory of that
name. -/
theorem rename {text : String} (takes : Takes directory name) (takes' : Takes directory target)
    (different : target ≠ name) (source : Dictionary.get? name entries = some (.file text))
    (own : ∀ inner, Dictionary.get? target entries ≠ some (.directory inner)) :
    ∃ after, FileSystem.rename (join directory name) (join directory target) system = (.ok (), after) ∧
      Lists after directory place
        (Dictionary.insert target (.file text) (Dictionary.erase name entries)) := by
  refine ⟨_, ?_, (lists.remove_file source).put_file text fun inner => ?_⟩
  · unfold FileSystem.rename
    rw [lists.resolve takes, lists.resolve takes']
    dsimp only
    unfold move
    rw [lists.find?_entry, lists.find?_entry, source]
    cases found : Dictionary.get? target entries with
    | none => rfl
    | some part =>
      cases part with
      | file inside => rfl
      | directory inner => exact absurd found (own inner)
  · rw [Dictionary.get?_erase_of_ne different]
    exact own inner

end Lists

end ScreenStudio.FileSystem
