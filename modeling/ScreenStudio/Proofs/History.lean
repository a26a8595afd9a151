/- digest: What recording, undo and redo do to the entries and the cursor of a history. -/

import ScreenStudio.History

set_option autoImplicit false
set_option relaxedAutoImplicit false

namespace ScreenStudio.History

/-- The cursor names an entry. -/
def InRange (history : History) : Prop := history.cursor < history.entries.length

theorem current?_of_inRange {history : History} (inRange : history.InRange) :
    ∃ entry ∈ history.entries, history.current? = some entry :=
  ⟨history.entries[history.cursor], List.getElem_mem inRange, List.getElem?_eq_getElem inRange⟩

theorem inRange_of_current? {history : History} {entry : Snapshot}
    (current : history.current? = some entry) : history.InRange :=
  (List.getElem?_eq_some_iff.mp current).1

theorem mem_of_current? {history : History} {entry : Snapshot}
    (current : history.current? = some entry) : entry ∈ history.entries :=
  List.mem_of_getElem? current

theorem mem_push {history : History} {snapshot entry : Snapshot}
    (member : entry ∈ (history.push snapshot).entries) :
    entry ∈ history.entries ∨ entry = snapshot := by
  rcases List.mem_append.mp member with old | new
  · exact Or.inl (List.mem_of_mem_take old)
  · exact Or.inr (List.mem_singleton.mp new)

theorem current?_push (history : History) (snapshot : Snapshot) :
    (history.push snapshot).current? = some snapshot := by
  unfold current? push
  exact List.getElem?_concat_length

theorem cursor_push {history : History} (inRange : history.InRange) (snapshot : Snapshot) :
    (history.push snapshot).cursor = history.cursor + 1 := by
  show (history.entries.take (history.cursor + 1)).length = history.cursor + 1
  rw [List.length_take]
  exact Nat.min_eq_left inRange

theorem length_push (history : History) (snapshot : Snapshot) :
    (history.push snapshot).entries.length = (history.push snapshot).cursor + 1 := by
  simp [push]

theorem redo?_push (history : History) (snapshot : Snapshot) :
    (history.push snapshot).redo? = none := by
  unfold redo? canRedo
  rw [length_push, decide_eq_false (Nat.lt_irrefl _)]
  rfl

theorem undo?_push {history : History} (inRange : history.InRange) (snapshot : Snapshot) :
    (history.push snapshot).undo? =
      some { history.push snapshot with cursor := history.cursor } := by
  unfold undo? canUndo
  rw [cursor_push inRange, decide_eq_true (Nat.succ_pos _), if_pos rfl, Nat.add_sub_cancel]

theorem current?_recorded {history : History} (inRange : history.InRange) (recorded : List Snapshot) :
    current? ⟨history.entries.take (history.cursor + 1) ++ recorded, history.cursor⟩ =
      history.current? := by
  have before : history.cursor < (history.entries.take (history.cursor + 1)).length := by
    rw [List.length_take]
    exact Nat.lt_min.mpr ⟨Nat.lt_succ_self _, inRange⟩
  unfold current?
  dsimp only
  rw [List.getElem?_append_left before, List.getElem?_take_of_lt (Nat.lt_succ_self _)]

theorem current?_undo_push (history : History) (snapshot : Snapshot) (inRange : history.InRange) :
    History.current? { history.push snapshot with cursor := history.cursor } =
      history.current? :=
  current?_recorded inRange [snapshot]

theorem redo?_undo_push {history : History} (inRange : history.InRange) (snapshot : Snapshot) :
    History.redo? { history.push snapshot with cursor := history.cursor } =
      some (history.push snapshot) := by
  have length := length_push history snapshot
  have cursor := cursor_push inRange snapshot
  unfold redo? canRedo
  dsimp only
  rw [decide_eq_true (by omega), if_pos rfl, ← cursor]

theorem undo?_eq_some {history back : History} (step : history.undo? = some back) :
    back.entries = history.entries ∧ back.cursor + 1 = history.cursor := by
  unfold undo? canUndo at step
  split at step
  · rename_i above
    have positive := of_decide_eq_true above
    cases step
    exact ⟨rfl, by dsimp only; omega⟩
  · cases step

theorem redo?_eq_some {history forward : History} (step : history.redo? = some forward) :
    forward.entries = history.entries ∧ forward.cursor = history.cursor + 1 ∧ forward.InRange := by
  unfold redo? canRedo at step
  split at step
  · rename_i below
    have inside := of_decide_eq_true below
    cases step
    exact ⟨rfl, rfl, inside⟩
  · cases step

/-- A history that is accepted has an entry under its cursor and unique identifiers in each entry. -/
theorem ofParts_eq_ok {entries : List Snapshot} {cursor : Nat} {history : History}
    (accepted : ofParts entries cursor = .ok history) :
    history = ⟨entries, cursor⟩ ∧ history.InRange ∧
      ∀ entry ∈ entries, entry.project.hasUniqueIds = true := by
  unfold ofParts at accepted
  split at accepted
  · cases accepted
  · split at accepted
    · cases accepted
    · rename_i inside
      split at accepted
      · cases accepted
      · rename_i unique
        cases accepted
        refine ⟨rfl, Nat.lt_of_not_le inside, ?_⟩
        intro entry member
        have kept := List.findIdx?_eq_none_iff.mp unique entry member
        simpa using kept

theorem ofParts_of_inRange {history : History} (inRange : history.InRange)
    (unique : ∀ entry ∈ history.entries, entry.project.hasUniqueIds = true) :
    ofParts history.entries history.cursor = .ok history := by
  have noDuplicate : history.entries.findIdx? (fun entry => !entry.project.hasUniqueIds) = none := by
    refine List.findIdx?_eq_none_iff.mpr ?_
    intro entry member
    rw [unique entry member]
    rfl
  have inside : history.cursor < history.entries.length := inRange
  have notEmpty : ¬history.entries.isEmpty = true := by
    intro empty
    rw [List.isEmpty_iff.mp empty] at inside
    exact Nat.not_lt_zero _ inside
  unfold ofParts
  rw [if_neg notEmpty, if_neg (Nat.not_le.mpr inside), noDuplicate]

end ScreenStudio.History
