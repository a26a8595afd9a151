/- digest: Association lists keyed by text and kept in ascending key order. -/

set_option autoImplicit false
set_option relaxedAutoImplicit false

namespace ScreenStudio

/-- Entries in ascending key order, each key once. -/
abbrev Dictionary (α : Type) := List (String × α)

namespace Dictionary

variable {α : Type}

def get? (key : String) : List (String × α) → Option α
  | [] => none
  | (name, value) :: rest => if name = key then some value else get? key rest

/-- Store `value` under `key`, replacing what was there. -/
def insert (key : String) (value : α) : List (String × α) → List (String × α)
  | [] => [(key, value)]
  | (name, old) :: rest =>
    if key = name then (key, value) :: rest
    else if key < name then (key, value) :: (name, old) :: rest
    else (name, old) :: insert key value rest

def erase (key : String) : List (String × α) → List (String × α)
  | [] => []
  | (name, value) :: rest => if name = key then rest else (name, value) :: erase key rest

/-- The dictionary of some entries; of two entries with one key the later stays. -/
def ofEntries (entries : List (String × α)) : List (String × α) :=
  entries.foldl (fun dictionary entry => insert entry.1 entry.2 dictionary) []

def Ascending (entries : List (String × α)) : Prop :=
  (entries.map Prod.fst).Pairwise (· < ·)

theorem get?_insert_self (key : String) (value : α) (entries : List (String × α)) :
    get? key (insert key value entries) = some value := by
  induction entries with
  | nil => simp [insert, get?]
  | cons entry rest ih =>
    obtain ⟨name, old⟩ := entry
    unfold insert
    split
    · simp [get?]
    · split
      · simp [get?]
      · rename_i different _
        simp [get?, ih, Ne.symm different]

theorem get?_insert_of_ne {key other : String} (different : other ≠ key) (value : α)
    (entries : List (String × α)) : get? other (insert key value entries) = get? other entries := by
  induction entries with
  | nil => simp [insert, get?, Ne.symm different]
  | cons entry rest ih =>
    obtain ⟨name, old⟩ := entry
    unfold insert
    split
    · rename_i same
      subst same
      simp [get?, Ne.symm different]
    · split
      · simp [get?, Ne.symm different]
      · simp [get?, ih]

end Dictionary

end ScreenStudio
