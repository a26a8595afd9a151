/- digest: Inserting, erasing and building keep the keys of a dictionary in ascending order. -/

import ScreenStudio.Dictionary

set_option autoImplicit false
set_option relaxedAutoImplicit false

namespace ScreenStudio.Dictionary

variable {α : Type}

instance (entries : List (String × α)) : Decidable (Ascending entries) :=
  inferInstanceAs (Decidable ((entries.map Prod.fst).Pairwise (· < ·)))

private theorem lt_of_ne_of_not_lt {a b : String} (different : a ≠ b) (notBelow : ¬a < b) : b < a :=
  Std.lt_of_le_of_ne notBelow (fun equal => different equal.symm)

theorem mem_of_get? {key : String} {entries : List (String × α)} {value : α}
    (found : get? key entries = some value) : (key, value) ∈ entries := by
  induction entries with
  | nil => cases found
  | cons entry rest ih =>
    obtain ⟨name, first⟩ := entry
    unfold get? at found
    split at found
    · rename_i same
      cases found
      rw [same]
      exact List.mem_cons_self
    · exact List.mem_cons_of_mem _ (ih found)

theorem mem_of_mem_insert {key : String} {value : α} {entries : List (String × α)}
    {entry : String × α} (member : entry ∈ insert key value entries) :
    entry = (key, value) ∨ entry ∈ entries := by
  induction entries with
  | nil => exact Or.inl (List.mem_singleton.mp member)
  | cons head rest ih =>
    obtain ⟨name, old⟩ := head
    unfold insert at member
    split at member
    · rcases List.mem_cons.mp member with equal | behind
      · exact Or.inl equal
      · exact Or.inr (List.mem_cons_of_mem _ behind)
    · split at member
      · rcases List.mem_cons.mp member with equal | behind
        · exact Or.inl equal
        · exact Or.inr behind
      · rcases List.mem_cons.mp member with equal | behind
        · exact Or.inr (by rw [equal]; exact List.mem_cons_self)
        · rcases ih behind with equal | inside
          · exact Or.inl equal
          · exact Or.inr (List.mem_cons_of_mem _ inside)

theorem ascending_nil : Ascending ([] : List (String × α)) := List.Pairwise.nil

theorem ascending_cons {entry : String × α} {rest : List (String × α)} :
    Ascending (entry :: rest) ↔ (∀ other ∈ rest, entry.1 < other.1) ∧ Ascending rest := by
  unfold Ascending
  rw [List.map_cons, List.pairwise_cons]
  simp only [List.mem_map, forall_exists_index, and_imp, forall_apply_eq_imp_iff₂]

theorem ascending_insert {key : String} {value : α} {entries : List (String × α)}
    (ascending : Ascending entries) : Ascending (insert key value entries) := by
  induction entries with
  | nil => exact ascending_cons.mpr ⟨by simp, ascending_nil⟩
  | cons head rest ih =>
    obtain ⟨name, old⟩ := head
    have parts := ascending_cons.mp ascending
    unfold insert
    split
    · rename_i same
      exact ascending_cons.mpr ⟨by rw [same]; exact parts.1, parts.2⟩
    · rename_i different
      split
      · rename_i below
        refine ascending_cons.mpr ⟨?_, ascending⟩
        intro other member
        rcases List.mem_cons.mp member with rfl | behind
        · exact below
        · exact String.lt_trans below (parts.1 other behind)
      · rename_i notBelow
        refine ascending_cons.mpr ⟨?_, ih parts.2⟩
        intro other member
        rcases mem_of_mem_insert member with rfl | inside
        · exact lt_of_ne_of_not_lt different notBelow
        · exact parts.1 other inside

theorem insert_insert_self (key : String) (old new : α) (entries : List (String × α)) :
    insert key new (insert key old entries) = insert key new entries := by
  induction entries with
  | nil => simp [insert]
  | cons entry rest ih =>
    obtain ⟨name, value⟩ := entry
    by_cases same : key = name
    · simp [insert, same]
    · by_cases below : key < name
      · simp [insert, same, below]
      · simp [insert, same, below, ih]

private theorem insert_insert_of_lt {key other : String} (below : key < other) (one two : α)
    (entries : List (String × α)) :
    insert key one (insert other two entries) = insert other two (insert key one entries) := by
  have apart : key ≠ other := String.ne_of_lt below
  have behind : ¬ other < key := String.lt_asymm below
  induction entries with
  | nil => simp [insert, apart, apart.symm, below, behind]
  | cons entry rest ih =>
    obtain ⟨name, value⟩ := entry
    by_cases same : key = name
    · subst same
      simp [insert, apart.symm, behind]
    · by_cases first : key < name
      · by_cases equal : other = name
        · subst equal
          simp [insert, apart.symm, behind, same, first]
        · by_cases second : other < name
          · simp [insert, apart, apart.symm, below, behind, same, first, equal, second]
          · simp [insert, apart.symm, behind, same, first, equal, second]
      · have ahead : name < key := lt_of_ne_of_not_lt same first
        have further : name < other := String.lt_trans ahead below
        have unequal : other ≠ name := (String.ne_of_lt further).symm
        have second : ¬ other < name := String.lt_asymm further
        simp [insert, same, first, unequal, second, ih]

theorem insert_insert_of_ne {key other : String} (different : key ≠ other) (one two : α)
    (entries : List (String × α)) :
    insert key one (insert other two entries) = insert other two (insert key one entries) := by
  by_cases below : key < other
  · exact insert_insert_of_lt below one two entries
  · exact (insert_insert_of_lt (lt_of_ne_of_not_lt different below) two one entries).symm

theorem exists_insert_eq_append {key : String} {entries : List (String × α)}
    (absent : get? key entries = none) (value : α) :
    ∃ front back, entries = front ++ back ∧ insert key value entries = front ++ (key, value) :: back := by
  induction entries with
  | nil => exact ⟨[], [], rfl, rfl⟩
  | cons entry rest ih =>
    obtain ⟨name, old⟩ := entry
    rw [get?] at absent
    split at absent
    · cases absent
    · rename_i different
      rw [insert, if_neg (Ne.symm different)]
      split
      · exact ⟨[], (name, old) :: rest, rfl, rfl⟩
      · obtain ⟨front, back, whole, inserted⟩ := ih absent
        exact ⟨(name, old) :: front, back, congrArg _ whole, congrArg _ inserted⟩

theorem get?_erase_of_ne {key other : String} (different : other ≠ key) (entries : List (String × α)) :
    get? other (erase key entries) = get? other entries := by
  induction entries with
  | nil => rfl
  | cons entry rest ih =>
    obtain ⟨name, value⟩ := entry
    unfold erase
    split
    · rename_i same
      rw [get?, if_neg (fun equal => different (equal.symm.trans same))]
    · rw [get?, get?, ih]
theorem mem_of_mem_erase {key : String} {entries : List (String × α)} {entry : String × α}
    (member : entry ∈ erase key entries) : entry ∈ entries := by
  induction entries with
  | nil => exact member
  | cons head rest ih =>
    obtain ⟨name, value⟩ := head
    unfold erase at member
    split at member
    · exact List.mem_cons_of_mem _ member
    · rcases List.mem_cons.mp member with equal | behind
      · rw [equal]
        exact List.mem_cons_self
      · exact List.mem_cons_of_mem _ (ih behind)

theorem ascending_erase {key : String} {entries : List (String × α)}
    (ascending : Ascending entries) : Ascending (erase key entries) := by
  induction entries with
  | nil => exact ascending
  | cons head rest ih =>
    obtain ⟨name, value⟩ := head
    have parts := ascending_cons.mp ascending
    unfold erase
    split
    · exact parts.2
    · exact ascending_cons.mpr
        ⟨fun other member => parts.1 other (mem_of_mem_erase member), ih parts.2⟩

theorem ne_of_mem_erase {key : String} {entries : List (String × α)} {entry : String × α}
    (ascending : Ascending entries) (member : entry ∈ erase key entries) : entry.1 ≠ key := by
  induction entries with
  | nil => cases member
  | cons head rest ih =>
    obtain ⟨name, value⟩ := head
    have parts := ascending_cons.mp ascending
    unfold erase at member
    split at member
    · rename_i same
      rintro equal
      have above := parts.1 entry member
      rw [equal, same] at above
      exact String.lt_irrefl key above
    · rename_i different
      rcases List.mem_cons.mp member with rfl | behind
      · exact different
      · exact ih parts.2 behind

private theorem insert_above {key : String} {value : α} {entries : List (String × α)}
    (above : ∀ entry ∈ entries, entry.1 < key) :
    insert key value entries = entries ++ [(key, value)] := by
  induction entries with
  | nil => rfl
  | cons head rest ih =>
    obtain ⟨name, old⟩ := head
    have below : name < key := above (name, old) List.mem_cons_self
    unfold insert
    rw [if_neg, if_neg, ih (fun entry member => above entry (List.mem_cons_of_mem _ member))]
    · rfl
    · exact String.lt_asymm below
    · rintro rfl
      exact String.lt_irrefl key below

private theorem foldl_insert_ascending {start entries : List (String × α)}
    (ascending : Ascending start) :
    Ascending (entries.foldl (fun dictionary entry => insert entry.1 entry.2 dictionary) start) := by
  induction entries generalizing start with
  | nil => exact ascending
  | cons entry rest ih => exact ih (ascending_insert ascending)

theorem ascending_ofEntries (entries : List (String × α)) : Ascending (ofEntries entries) :=
  foldl_insert_ascending ascending_nil

private theorem mem_of_mem_foldl_insert {start entries : List (String × α)} {entry : String × α}
    (member : entry ∈
      entries.foldl (fun dictionary entry => insert entry.1 entry.2 dictionary) start) :
    entry ∈ start ∨ entry ∈ entries := by
  induction entries generalizing start with
  | nil => exact Or.inl member
  | cons head rest ih =>
    rcases ih member with inserted | behind
    · rcases mem_of_mem_insert inserted with rfl | inside
      · exact Or.inr List.mem_cons_self
      · exact Or.inl inside
    · exact Or.inr (List.mem_cons_of_mem _ behind)

theorem mem_of_mem_ofEntries {entries : List (String × α)} {entry : String × α}
    (member : entry ∈ ofEntries entries) : entry ∈ entries := by
  rcases mem_of_mem_foldl_insert member with nothing | inside
  · cases nothing
  · exact inside

private theorem foldl_insert_of_ascending {start entries : List (String × α)}
    (ascending : Ascending entries)
    (above : ∀ low ∈ start, ∀ high ∈ entries, low.1 < high.1) :
    entries.foldl (fun dictionary entry => insert entry.1 entry.2 dictionary) start =
      start ++ entries := by
  induction entries generalizing start with
  | nil => simp
  | cons entry rest ih =>
    have parts := ascending_cons.mp ascending
    rw [List.foldl_cons, insert_above (fun low member => above low member entry List.mem_cons_self)]
    rw [ih parts.2, List.append_assoc]
    · rfl
    · intro low lowMember high highMember
      rcases List.mem_append.mp lowMember with old | new
      · exact above low old high (List.mem_cons_of_mem _ highMember)
      · rw [List.mem_singleton.mp new]
        exact parts.1 high highMember

theorem ofEntries_of_ascending {entries : List (String × α)} (ascending : Ascending entries) :
    ofEntries entries = entries :=
  foldl_insert_of_ascending ascending (fun low member => by cases member)

/-- The same keys in the same order, and under each of them values that are related. -/
inductive Related (related : α → α → Prop) : List (String × α) → List (String × α) → Prop
  | nil : Related related [] []
  | cons (key : String) {one two : α} {rest more : List (String × α)} (first : related one two)
    (others : Related related rest more) : Related related ((key, one) :: rest) ((key, two) :: more)

section Related

variable {related : α → α → Prop} {entries others : List (String × α)}

theorem Related.get? (are : Related related entries others) (key : String) :
    Option.Rel related (Dictionary.get? key entries) (Dictionary.get? key others) := by
  induction are with
  | nil => exact .none
  | cons name first _ ih =>
    rw [Dictionary.get?, Dictionary.get?]
    split
    · exact .some first
    · exact ih

theorem Related.insert {one two : α} (new : related one two) (are : Related related entries others)
    (key : String) :
    Related related (Dictionary.insert key one entries) (Dictionary.insert key two others) := by
  induction are with
  | nil => exact .cons key new .nil
  | cons name first behind ih =>
    rw [Dictionary.insert, Dictionary.insert]
    split
    · exact .cons key new behind
    · split
      · exact .cons key new (.cons name first behind)
      · exact .cons name first ih

theorem Related.ofEntries (are : Related related entries others) :
    Related related (Dictionary.ofEntries entries) (Dictionary.ofEntries others) := by
  have onto : ∀ {before after : List (String × α)}, Related related before after →
      Related related
        (entries.foldl (fun all entry => Dictionary.insert entry.1 entry.2 all) before)
        (others.foldl (fun all entry => Dictionary.insert entry.1 entry.2 all) after) := by
    induction are with
    | nil => exact fun start => start
    | cons name first _ ih => exact fun start => ih (start.insert first name)
  exact onto .nil

end Related

end ScreenStudio.Dictionary
