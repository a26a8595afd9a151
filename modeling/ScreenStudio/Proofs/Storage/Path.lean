/- digest: The names in a path below a directory, and the path of its parent. -/

import ScreenStudio.Export
import ScreenStudio.Proofs.Text.Pieces

set_option autoImplicit false
set_option relaxedAutoImplicit false

namespace ScreenStudio

namespace FileSystem

theorem intercalate_parts (path : String) : "/".intercalate (parts path) = path :=
  Text.intercalate_split rfl path

theorem parts_append (first second : String) :
    parts (first ++ "/" ++ second) = parts first ++ parts second :=
  Text.split_append rfl first second

theorem parts_of_no_slash {name : String} (no : '/' ∉ name.toList) : parts name = [name] :=
  Text.split_of_not_mem no

/-- A name that leads into a directory and can be written between slashes. -/
structure IsName (name : String) : Prop where
  filled : name ≠ ""
  not_dot : name ≠ "."
  not_dots : name ≠ ".."
  no_slash : '/' ∉ name.toList
  no_zero : '\x00' ∉ name.toList

instance (name : String) : Decidable (IsName name) :=
  decidable_of_iff (name ≠ "" ∧ name ≠ "." ∧ name ≠ ".." ∧ '/' ∉ name.toList ∧ '\x00' ∉ name.toList)
    ⟨fun ⟨filled, dot, dots, slash, zero⟩ => ⟨filled, dot, dots, slash, zero⟩,
      fun ⟨filled, dot, dots, slash, zero⟩ => ⟨filled, dot, dots, slash, zero⟩⟩

theorem isName_of_long {name : String} (long : 2 < name.toList.length) (slash : '/' ∉ name.toList)
    (zero : '\x00' ∉ name.toList) : IsName name := by
  refine ⟨?_, ?_, ?_, slash, zero⟩ <;>
  · rintro rfl
    exact absurd long (by decide)

/-- The relative path that leads along some names. -/
def relative (names : List String) : String := "/".intercalate names

variable {above names : List String} {name : String}

theorem relative_concat (filled : above ≠ []) (name : String) :
    relative (above ++ [name]) = relative above ++ "/" ++ name := by
  unfold relative
  rw [String.intercalate_append_of_ne_nil filled (List.cons_ne_nil name []),
    String.intercalate_singleton]

theorem parts_relative (filled : names ≠ [])
    (good : ∀ name ∈ names, IsName name) : parts (relative names) = names :=
  Text.split_intercalate rfl filled (fun name member => (good name member).no_slash)

theorem filter_names (good : ∀ name ∈ names, IsName name) :
    names.filter (fun part => !part.isEmpty && part != ".") = names := by
  rw [List.filter_eq_self]
  intro name member
  have good := good name member
  simp [good.filled, good.not_dot]

theorem names_relative (filled : names ≠ []) (good : ∀ name ∈ names, IsName name) :
    FileSystem.names (relative names) = names := by
  rw [FileSystem.names, parts_relative filled good, filter_names good]

theorem head?_append {first : String} (filled : first ≠ "") (second : String) :
    (first ++ second).toList.head? = first.toList.head? := by
  obtain ⟨c, rest, chars⟩ :=
    List.exists_cons_of_ne_nil (fun empty => filled (String.toList_eq_nil_iff.mp empty))
  rw [String.toList_append, chars]
  rfl

theorem head?_relative (names : List String) (good : IsName name) :
    (relative (name :: names)).toList.head? = name.toList.head? := by
  have filled : name.toList ≠ [] := fun empty => good.filled (String.toList_eq_nil_iff.mp empty)
  rw [relative, String.toList_intercalate, List.map_cons]
  obtain ⟨c, rest, chars⟩ := List.exists_cons_of_ne_nil filled
  rw [chars]
  cases names.map String.toList <;> rfl

theorem head?_relative_ne (filled : names ≠ [])
    (good : ∀ name ∈ names, IsName name) : (relative names).toList.head? ≠ some '/' := by
  obtain ⟨name, rest, rfl⟩ := List.exists_cons_of_ne_nil filled
  have first := good name List.mem_cons_self
  rw [head?_relative rest first]
  exact fun slash => first.no_slash (List.mem_of_head? slash)

theorem relative_ne_empty (filled : names ≠ [])
    (good : ∀ name ∈ names, IsName name) : relative names ≠ "" := by
  intro empty
  have single := parts_relative filled good
  rw [empty] at single
  have member : "" ∈ names := by rw [← single]; decide
  exact (good "" member).filled rfl

section Join

variable {directory : String}

/-- Below a directory with a path a relative path follows, with a slash in between unless one is
there already. -/
theorem join_of_relative {path : String} (named : directory ≠ "")
    (notRoot : path.toList.head? ≠ some '/') :
    join directory path =
      if directory.toList.getLast? = some '/' then directory ++ path else directory ++ "/" ++ path := by
  unfold join
  rw [if_neg]
  simp [notRoot, named]

theorem join_concat (named : directory ≠ "") (filled : above ≠ [])
    (good : ∀ name ∈ above, IsName name) (name : String) :
    join directory (relative (above ++ [name])) =
      join directory (relative above) ++ "/" ++ name := by
  have notRoot := head?_relative_ne filled good
  have notRoot' : (relative (above ++ [name])).toList.head? ≠ some '/' := by
    rw [relative_concat filled, String.append_assoc, head?_append (relative_ne_empty filled good)]
    exact notRoot
  rw [join_of_relative named notRoot, join_of_relative named notRoot', relative_concat filled]
  split <;> simp only [String.append_assoc]

theorem parentPath_concat (path : String) (good : IsName name) :
    Export.parentPath (path ++ "/" ++ name) = path := by
  rw [Export.parentPath, parts_append, parts_of_no_slash good.no_slash, List.dropLast_concat,
    intercalate_parts]

/-- The pieces of a path below a directory are those of the directory, the last one perhaps not if it
is empty, and then the names. -/
theorem parts_join (named : directory ≠ "") (filled : above ≠ [])
    (good : ∀ name ∈ above, IsName name) :
    ∃ lead, parts (join directory (relative above)) = lead ++ above ∧
      lead.filter (fun part => !part.isEmpty && part != ".") =
        FileSystem.names directory := by
  rw [join_of_relative named (head?_relative_ne filled good)]
  split
  · rename_i slash
    obtain ⟨front, chars⟩ := List.getLast?_eq_some_iff.mp slash
    have split : directory = String.ofList front ++ "/" := by
      rw [← String.toList_inj, String.toList_append, String.toList_ofList, chars]
      rfl
    refine ⟨parts (String.ofList front), ?_, ?_⟩
    · rw [split, parts_append, parts_relative filled good]
    · rw [FileSystem.names, split, ← String.append_empty (s := String.ofList front ++ "/"), parts_append]
      rw [List.filter_append, show parts "" = [""] from rfl]
      simp
  · exact ⟨parts directory, by rw [parts_append, parts_relative filled good], rfl⟩

theorem names_join (named : directory ≠ "") (filled : above ≠ [])
    (good : ∀ name ∈ above, IsName name) :
    FileSystem.names (join directory (relative above)) = FileSystem.names directory ++ above := by
  obtain ⟨lead, pieces, leading⟩ := parts_join named filled good
  rw [FileSystem.names, pieces, List.filter_append, leading, filter_names good]

theorem getLast?_parts_join (named : directory ≠ "") (filled : above ≠ [])
    (good : ∀ name ∈ above, IsName name) :
    (parts (join directory (relative above))).getLast? = above.getLast? := by
  obtain ⟨lead, pieces, -⟩ := parts_join named filled good
  rw [pieces, List.getLast?_append, List.getLast?_eq_some_getLast filled]
  rfl

theorem meansDirectory_join (named : directory ≠ "") (filled : above ≠ [])
    (good : ∀ name ∈ above, IsName name) :
    meansDirectory (join directory (relative above)) = false := by
  rw [meansDirectory, getLast?_parts_join named filled good, List.getLast?_eq_some_getLast filled]
  have last := good _ (List.getLast_mem filled)
  simp [last.filled, last.not_dot]

theorem endsInDot_join (named : directory ≠ "") (filled : above ≠ [])
    (good : ∀ name ∈ above, IsName name) :
    endsInDot (join directory (relative above)) = false := by
  obtain ⟨lead, pieces, -⟩ := parts_join named filled good
  have kept : above.filter (fun part => !part.isEmpty) = above := by
    rw [List.filter_eq_self]
    intro name member
    simp [(good name member).filled]
  rw [endsInDot, pieces, List.filter_append, kept, List.getLast?_append,
    List.getLast?_eq_some_getLast filled, Option.some_or]
  simp [(good _ (List.getLast_mem filled)).not_dot]

theorem head?_join (named : directory ≠ "") (filled : above ≠ [])
    (good : ∀ name ∈ above, IsName name) :
    (join directory (relative above)).toList.head? = directory.toList.head? := by
  rw [join_of_relative named (head?_relative_ne filled good)]
  split
  · exact head?_append named _
  · rw [String.append_assoc, head?_append named]

theorem join_ne_empty (named : directory ≠ "") (filled : above ≠ [])
    (good : ∀ name ∈ above, IsName name) : join directory (relative above) ≠ "" := by
  intro empty
  have first := head?_join named filled good
  rw [empty] at first
  exact named (String.toList_eq_nil_iff.mp (List.head?_eq_none_iff.mp first.symm))

theorem no_zero_relative (good : ∀ name ∈ above, IsName name) :
    '\x00' ∉ (relative above).toList := by
  induction above with
  | nil => decide
  | cons first rest ih =>
    have here := (good first List.mem_cons_self).no_zero
    have later := ih (fun name member => good name (List.mem_cons_of_mem first member))
    cases rest with
    | nil => rwa [relative, String.intercalate_singleton]
    | cons second rest =>
      unfold relative at later ⊢
      rw [String.intercalate_cons_cons, String.toList_append, String.toList_append]
      rintro member
      rcases List.mem_append.mp member with front | behind
      · rcases List.mem_append.mp front with inside | slash
        · exact here inside
        · exact absurd slash (by decide)
      · exact later behind

theorem no_zero_join (named : directory ≠ "") (clean : '\x00' ∉ directory.toList) (filled : above ≠ [])
    (good : ∀ name ∈ above, IsName name) :
    '\x00' ∉ (join directory (relative above)).toList := by
  have clean' := no_zero_relative good
  rw [join_of_relative named (head?_relative_ne filled good)]
  split <;> simp [String.toList_append, clean, clean']

end Join

end FileSystem

end ScreenStudio
