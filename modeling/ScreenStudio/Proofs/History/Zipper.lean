/- digest: A history with a cursor is a place in a sequence with a past and a future. -/

import ScreenStudio.Proofs.History
import Mathlib.Logic.Function.Iterate

/-!
A place in a sequence is what came before it, what stands there and what comes behind it. Recording
moves what stands there into the past and drops the future; going back and forward moves one element
across it. Nothing is counted. A history is such a place written down as a list with a cursor: each
step on it answers what the step on the place answers and leads to the place that the step leads to.
The invariant is that the cursor names an entry unless the history is empty.
-/

set_option autoImplicit false
set_option relaxedAutoImplicit false

namespace ScreenStudio

/-- A place in a sequence: what came before it, the nearest first, what stands there, and what comes
behind it, the nearest first. -/
structure Zipper (α : Type) where
  past : List α
  current : Option α
  future : List α

/-- What can be done to a history. -/
inductive HistoryStep
  | push (snapshot : Snapshot)
  | undo
  | redo

namespace Zipper

variable {α : Type}

/-- The whole sequence in order. -/
def entries (place : Zipper α) : List α :=
  place.past.reverse ++ place.current.toList ++ place.future

def canUndo (place : Zipper α) : Bool := !place.past.isEmpty

def canRedo (place : Zipper α) : Bool := !place.future.isEmpty

/-- What stands here becomes the nearest past, and the future is dropped. -/
def push (place : Zipper α) (element : α) : Zipper α :=
  ⟨place.current.toList ++ place.past, some element, []⟩

/-- The place one element back. -/
def undo? : Zipper α → Option (Zipper α)
  | ⟨[], _, _⟩ => none
  | ⟨element :: past, current, future⟩ => some ⟨past, some element, current.toList ++ future⟩

/-- The place one element forward. -/
def redo? : Zipper α → Option (Zipper α)
  | ⟨_, _, []⟩ => none
  | ⟨past, current, element :: future⟩ => some ⟨current.toList ++ past, some element, future⟩

/-- What a step answers and the place it leads to. -/
def step (place : Zipper Snapshot) : HistoryStep → Option Snapshot × Zipper Snapshot
  | .push snapshot => (none, place.push snapshot)
  | .undo => (place.undo?.bind Zipper.current, place.undo?.getD place)
  | .redo => (place.redo?.bind Zipper.current, place.redo?.getD place)

/-- What some steps answer one after the other, and the place they lead to. -/
def run (place : Zipper Snapshot) : List HistoryStep → List (Option Snapshot) × Zipper Snapshot
  | [] => ([], place)
  | step :: rest =>
    let (answer, next) := place.step step
    let (answers, last) := next.run rest
    (answer :: answers, last)

end Zipper

namespace History

/-- The history one snapshot back, or as it is where there is none. -/
def back (history : History) : History := history.undo?.getD history

/-- The history one snapshot forward, or as it is where there is none. -/
def forward (history : History) : History := history.redo?.getD history

/-- What a step answers and the history it leads to. -/
def step (history : History) : HistoryStep → Option Snapshot × History
  | .push snapshot => (none, history.push snapshot)
  | .undo => (history.undo?.bind History.current?, history.back)
  | .redo => (history.redo?.bind History.current?, history.forward)

/-- What some steps answer one after the other, and the history they lead to. -/
def run (history : History) : List HistoryStep → List (Option Snapshot) × History
  | [] => ([], history)
  | step :: rest =>
    let (answer, next) := history.step step
    let (answers, last) := next.run rest
    (answer :: answers, last)

/-- The place in its entries that a history is at. -/
def zipper (history : History) : Zipper Snapshot where
  past := (history.entries.take history.cursor).reverse
  current := history.current?
  future := history.entries.drop (history.cursor + 1)

/-- The history says of itself what the place says. -/
structure Agrees (history : History) (place : Zipper Snapshot) : Prop where
  entries : history.entries = place.entries
  cursor : history.cursor = place.past.length
  current : history.current? = place.current
  canUndo : history.canUndo = place.canUndo
  canRedo : history.canRedo = place.canRedo

/-- The cursor names an entry, or nothing was recorded yet. -/
def Placed (history : History) : Prop := history = .empty ∨ history.InRange

variable {history : History}

theorem placed_of_ofParts {entries : List Snapshot} {cursor : Nat}
    (accepted : ofParts entries cursor = .ok history) : history.Placed :=
  Or.inr (ofParts_eq_ok accepted).2.1

/-- A place that is not empty, written down as a list with a cursor: the cursor counts the past. -/
def ofPlace (past : List Snapshot) (current : Snapshot) (future : List Snapshot) : History :=
  ⟨past.reverse ++ current :: future, past.length⟩

private theorem exists_ofPlace (inRange : history.InRange) :
    ∃ past current future, history = ofPlace past current future := by
  obtain ⟨entries, cursor⟩ := history
  have inside : cursor < entries.length := inRange
  refine ⟨(entries.take cursor).reverse, entries[cursor], entries.drop (cursor + 1), ?_⟩
  unfold ofPlace
  rw [List.reverse_reverse, ← List.drop_eq_getElem_cons inside, List.take_append_drop,
    List.length_reverse, List.length_take, Nat.min_eq_left (Nat.le_of_lt inside)]

section OfPlace

variable (past : List Snapshot) (current : Snapshot) (future : List Snapshot)

private theorem inRange_ofPlace : (ofPlace past current future).InRange := by
  simp [ofPlace, InRange]

private theorem zipper_ofPlace :
    (ofPlace past current future).zipper = ⟨past, some current, future⟩ := by
  simp [ofPlace, zipper, current?, List.drop_append]

private theorem agrees_ofPlace : (ofPlace past current future).Agrees ⟨past, some current, future⟩ where
  entries := by simp [ofPlace, Zipper.entries]
  cursor := rfl
  current := by simp [ofPlace, current?]
  canUndo := by cases past <;> simp [ofPlace, canUndo, Zipper.canUndo]
  canRedo := by cases future <;> simp [ofPlace, canRedo, Zipper.canRedo]

private theorem push_ofPlace (snapshot : Snapshot) :
    (ofPlace past current future).push snapshot = ofPlace (current :: past) snapshot [] := by
  have kept : past.reverse.take (past.length + 1) = past.reverse :=
    List.take_of_length_le (by rw [List.length_reverse]; omega)
  simp [ofPlace, push, List.take_append, kept]

private theorem undo?_ofPlace_nil : (ofPlace [] current future).undo? = none := rfl

private theorem undo?_ofPlace_cons (earlier : Snapshot) :
    (ofPlace (earlier :: past) current future).undo? =
      some (ofPlace past earlier (current :: future)) := by
  simp [ofPlace, undo?, canUndo]

private theorem redo?_ofPlace_nil : (ofPlace past current []).redo? = none := by
  simp [ofPlace, redo?, canRedo]

private theorem redo?_ofPlace_cons (later : Snapshot) :
    (ofPlace past current (later :: future)).redo? =
      some (ofPlace (current :: past) later future) := by
  simp [ofPlace, redo?, canRedo]

end OfPlace

theorem agrees_zipper (placed : history.Placed) : history.Agrees history.zipper := by
  rcases placed with rfl | inRange
  · exact ⟨rfl, rfl, rfl, rfl, rfl⟩
  · obtain ⟨past, current, future, rfl⟩ := exists_ofPlace inRange
    rw [zipper_ofPlace]
    exact agrees_ofPlace past current future

/-- One step on a history answers what the step on its place answers, and leads to the place that the
step leads to. -/
theorem step_zipper (placed : history.Placed) (step : HistoryStep) :
    (history.step step).1 = (history.zipper.step step).1 ∧
      (history.step step).2.zipper = (history.zipper.step step).2 ∧
      (history.step step).2.Placed := by
  rcases placed with rfl | inRange
  · cases step with
    | push snapshot => exact ⟨rfl, rfl, Or.inr Nat.zero_lt_one⟩
    | undo => exact ⟨rfl, rfl, Or.inl rfl⟩
    | redo => exact ⟨rfl, rfl, Or.inl rfl⟩
  obtain ⟨past, current, future, rfl⟩ := exists_ofPlace inRange
  rw [zipper_ofPlace]
  cases step with
  | push snapshot =>
    dsimp only [History.step]
    rw [push_ofPlace, zipper_ofPlace]
    exact ⟨rfl, rfl, Or.inr (inRange_ofPlace _ _ _)⟩
  | undo =>
    cases past with
    | nil =>
      dsimp only [History.step, back]
      rw [undo?_ofPlace_nil, Option.getD_none, zipper_ofPlace]
      exact ⟨rfl, rfl, Or.inr inRange⟩
    | cons earlier past =>
      dsimp only [History.step, back]
      rw [undo?_ofPlace_cons, Option.getD_some, zipper_ofPlace]
      exact ⟨(agrees_ofPlace past earlier _).current, rfl, Or.inr (inRange_ofPlace _ _ _)⟩
  | redo =>
    cases future with
    | nil =>
      dsimp only [History.step, forward]
      rw [redo?_ofPlace_nil, Option.getD_none, zipper_ofPlace]
      exact ⟨rfl, rfl, Or.inr inRange⟩
    | cons later future =>
      dsimp only [History.step, forward]
      rw [redo?_ofPlace_cons, Option.getD_some, zipper_ofPlace]
      exact ⟨(agrees_ofPlace _ later future).current, rfl, Or.inr (inRange_ofPlace _ _ _)⟩

/-- Some steps answer what they answer on the place, and lead to the place that they lead to. -/
theorem run_zipper (placed : history.Placed) (steps : List HistoryStep) :
    (history.run steps).1 = (history.zipper.run steps).1 ∧
      (history.run steps).2.zipper = (history.zipper.run steps).2 ∧
      (history.run steps).2.Placed := by
  induction steps generalizing history with
  | nil => exact ⟨rfl, rfl, placed⟩
  | cons step rest ih =>
    obtain ⟨answer, next, placedNext⟩ := step_zipper placed step
    obtain ⟨answers, last, placedLast⟩ := ih placedNext
    rw [next] at answers last
    exact ⟨congrArg₂ List.cons answer answers, last, placedLast⟩

theorem back_iterate (history : History) (count : Nat) :
    back^[count] history = { history with cursor := history.cursor - count } := by
  induction count with
  | zero => rfl
  | succ count ih =>
    rw [Function.iterate_succ_apply', ih]
    unfold back undo? canUndo
    split
    · simp only [Option.getD_some, Nat.sub_sub]
    · rename_i atStart
      simp only [Bool.not_eq_true, decide_eq_false_iff_not] at atStart
      simp only [Option.getD_none, History.mk.injEq, true_and]
      omega

theorem forward_iterate {count : Nat} (room : history.cursor + count < history.entries.length) :
    forward^[count] history = { history with cursor := history.cursor + count } := by
  induction count with
  | zero => rfl
  | succ count ih =>
    rw [Function.iterate_succ_apply', ih (by omega)]
    unfold forward redo? canRedo
    dsimp only
    rw [if_pos (decide_eq_true (by omega)), Option.getD_some, Nat.add_assoc]

theorem forward_back_iterate (placed : history.Placed) {count : Nat}
    (within : count ≤ history.cursor) : forward^[count] (back^[count] history) = history := by
  rw [back_iterate]
  rcases placed with rfl | inRange
  · obtain rfl : count = 0 := Nat.le_zero.mp within
    rfl
  · have inside : history.cursor < history.entries.length := inRange
    rw [forward_iterate (by dsimp only; omega)]
    simp only [Nat.sub_add_cancel within]

/-- A history that is new or was accepted goes through any steps as a place in a sequence does, in what
it answers and in what it says of itself. Going back some snapshots and forward as many changes
nothing, and recording after going back keeps exactly the entries up to the cursor. -/
theorem history_is_zipper
    (start : history = .empty ∨ ∃ entries cursor, ofParts entries cursor = .ok history)
    (steps : List HistoryStep) :
    let after := (history.run steps).2
    (history.run steps).1 = (history.zipper.run steps).1 ∧
      after.Agrees (history.zipper.run steps).2 ∧
      (∀ count ≤ after.cursor, forward^[count] (back^[count] after) = after) ∧
      ∀ count snapshot, ((back^[count] after).push snapshot).entries =
        after.entries.take (after.cursor - count + 1) ++ [snapshot] := by
  intro after
  have placed : history.Placed := by
    rcases start with new | ⟨entries, cursor, accepted⟩
    · exact Or.inl new
    · exact placed_of_ofParts accepted
  obtain ⟨answers, last, placedLast⟩ := run_zipper placed steps
  refine ⟨answers, ?_, fun count within => forward_back_iterate placedLast within, ?_⟩
  · rw [← last]
    exact agrees_zipper placedLast
  · intro count snapshot
    rw [back_iterate]
    rfl

/-- A loaded history of two snapshots at the first one: it goes forward and back, and recording then
drops the second one. -/
theorem loaded_history_drops_redo :
    let state (value : Json) : Snapshot := ⟨Project.initial 0, value, some Screen.initialId⟩
    let loaded : History := ⟨[state .null, state (.bool true)], 0⟩
    let ran := loaded.run [.redo, .undo, .push (state (.text "new")), .redo, .undo]
    ran.1 = [some (state (.bool true)), some (state .null), none, none, some (state .null)] ∧
      ran.2.Agrees ⟨[], some (state .null), [state (.text "new")]⟩ ∧
      forward^[1] (back^[1] (loaded.run [.redo]).2) = (loaded.run [.redo]).2 := by
  intro state loaded ran
  have accepted : ofParts loaded.entries 0 = .ok loaded := rfl
  have start : loaded = .empty ∨ ∃ entries cursor, ofParts entries cursor = .ok loaded :=
    Or.inr ⟨_, _, accepted⟩
  obtain ⟨answers, agrees, _⟩ := history_is_zipper start
    [.redo, .undo, .push (state (.text "new")), .redo, .undo]
  obtain ⟨_, _, there, _⟩ := history_is_zipper start [.redo]
  exact ⟨answers, agrees, there 1 (Nat.le_refl 1)⟩

end History

end ScreenStudio
