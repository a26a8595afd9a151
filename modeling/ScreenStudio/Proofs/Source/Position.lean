/- digest: Lines and columns count what starts before an offset, and keep the order of offsets. -/

import Mathlib.Data.List.DropRight
import Mathlib.Data.Prod.Lex
import Mathlib.Order.Monotone.Defs
import ScreenStudio.Proofs.Source.Cutting

/-!
The position of an offset depends on the characters that start before it and on nothing else: the line
counts their newlines, and the column counts those that stand behind the last newline. Of two offsets the
earlier has a beginning of these characters before it, and every further character moves the position
onwards, to the next column or to the next line.
-/

set_option autoImplicit false
set_option relaxedAutoImplicit false

namespace ScreenStudio.Source

section Before

variable {offset index : Nat} {cs : List Char}

/-- The characters with the offsets at which they start, the first of them at the index. -/
def starts : Nat → List Char → List (Nat × Char)
  | _, [] => []
  | index, c :: rest => (index, c) :: starts (index + c.utf8Size) rest

/-- Those of the characters, the first of which starts at the index, that start before the offset. -/
def startingBefore (offset index : Nat) (cs : List Char) : List Char :=
  ((starts index cs).filter (fun start => start.1 < offset)).map Prod.snd

theorem le_of_mem_starts {start : Nat × Char} (member : start ∈ starts index cs) : index ≤ start.1 := by
  induction cs generalizing index with
  | nil => cases member
  | cons c rest ih =>
    rcases List.mem_cons.mp member with rfl | member
    · exact Nat.le_refl index
    · exact Nat.le_trans (Nat.le_add_right index _) (ih member)

theorem startingBefore_of_le (late : offset ≤ index) : startingBefore offset index cs = [] := by
  have none : (starts index cs).filter (fun start => start.1 < offset) = [] := by
    rw [List.filter_eq_nil_iff]
    intro start member early
    exact Nat.not_le.mpr (of_decide_eq_true early) (Nat.le_trans late (le_of_mem_starts member))
  rw [startingBefore, none, List.map_nil]

theorem startingBefore_cons (early : index < offset) (c : Char) (rest : List Char) :
    startingBefore offset index (c :: rest) =
      c :: startingBefore offset (index + c.utf8Size) rest := by
  rw [startingBefore, starts, List.filter_cons, if_pos (decide_eq_true early), List.map_cons]
  rfl

theorem startingBefore_mono {one two : Nat} (le : one ≤ two) (index : Nat) (cs : List Char) :
    startingBefore one index cs <+: startingBefore two index cs := by
  induction cs generalizing index with
  | nil => exact List.prefix_refl []
  | cons c rest ih =>
    rcases Nat.lt_or_ge index one with early | late
    · rw [startingBefore_cons early, startingBefore_cons (Nat.lt_of_lt_of_le early le)]
      exact List.cons_prefix_cons.mpr ⟨rfl, ih _⟩
    · rw [startingBefore_of_le late]
      exact List.nil_prefix

theorem startingBefore_append (index : Nat) (front back : List Char) :
    startingBefore (index + byteLength front) index (front ++ back) = front := by
  induction front generalizing index with
  | nil => exact startingBefore_of_le (Nat.le_refl index)
  | cons c rest ih =>
    have early : index < index + byteLength (c :: rest) :=
      Nat.lt_add_of_pos_right (byteLength_pos (List.cons_ne_nil c rest))
    have whole : index + byteLength (c :: rest) = index + c.utf8Size + byteLength rest :=
      (Nat.add_assoc ..).symm
    rw [List.cons_append, startingBefore_cons early, whole, ih]

theorem startingBefore_of_end_le (behind : index + byteLength cs ≤ offset) :
    startingBefore offset index cs = cs := by
  induction cs generalizing index with
  | nil => rfl
  | cons c rest ih =>
    have whole : index + byteLength (c :: rest) = index + c.utf8Size + byteLength rest :=
      (Nat.add_assoc ..).symm
    have filled := c.utf8Size_pos
    rw [startingBefore_cons (by omega), ih (by omega)]

end Before

namespace Position

/-- The position behind some characters. -/
def behind (front : List Char) : Position :=
  ⟨1 + front.count '\n', 1 + (front.rtakeWhile (· != '\n')).length⟩

theorem behind_concat (front : List Char) (c : Char) : behind (front ++ [c]) = (behind front).after c := by
  unfold behind after
  rw [List.count_append, List.rtakeWhile_concat]
  by_cases newline : c = '\n'
  · subst newline
    rfl
  · simp [newline, Nat.add_assoc]

/-- Positions in the order of their lines, those of one line in the order of their columns. -/
def rank (position : Position) : ℕ ×ₗ ℕ := toLex (position.line, position.column)

theorem rank_lt_after (position : Position) (c : Char) : position.rank < (position.after c).rank := by
  unfold after rank
  rw [Prod.Lex.toLex_lt_toLex]
  split
  · exact .inl (Nat.lt_succ_self _)
  · exact .inr ⟨rfl, Nat.lt_succ_self _⟩

theorem rank_behind_lt (front : List Char) {more : List Char} (filled : more ≠ []) :
    (behind front).rank < (behind (front ++ more)).rank := by
  induction more generalizing front with
  | nil => exact absurd rfl filled
  | cons c rest ih =>
    have step : (behind front).rank < (behind (front ++ [c])).rank := by
      rw [behind_concat]
      exact rank_lt_after _ c
    cases rest with
    | nil => exact step
    | cons d rest =>
      have onwards := ih (front ++ [c]) (List.cons_ne_nil d rest)
      rw [List.append_assoc] at onwards
      exact step.trans onwards

theorem rank_behind_le {front whole : List Char} (before : front <+: whole) :
    (behind front).rank ≤ (behind whole).rank := by
  obtain ⟨more, rfl⟩ := before
  cases more with
  | nil => rw [List.append_nil]
  | cons c rest => exact (rank_behind_lt front (List.cons_ne_nil c rest)).le

end Position

/-- The walk that has gone over some characters goes over those of the others that start before the
offset. -/
theorem positionFrom_behind (offset index : Nat) (front cs : List Char) :
    positionFrom (.behind front) index offset cs =
      .behind (front ++ startingBefore offset index cs) := by
  induction cs generalizing index front with
  | nil =>
    rw [show startingBefore offset index [] = [] from rfl, List.append_nil]
    rfl
  | cons c rest ih =>
    rw [positionFrom]
    split
    · rename_i late
      rw [startingBefore_of_le late, List.append_nil]
    · rename_i early
      rw [← Position.behind_concat, ih, startingBefore_cons (Nat.lt_of_not_le early), List.append_assoc]
      rfl

theorem positionAt_eq (source : String) (offset : Nat) :
    positionAt source offset = .behind (startingBefore offset 0 source.toList) :=
  positionFrom_behind offset 0 [] source.toList

/-- The offset is between two characters of the text, at its start or at its end. -/
def IsBoundary (source : String) (offset : Nat) : Prop :=
  ∃ front, front <+: source.toList ∧ byteLength front = offset

theorem positionAt_of_boundary {source : String} {front : List Char} (before : front <+: source.toList) :
    positionAt source (byteLength front) = .behind front := by
  obtain ⟨back, whole⟩ := before
  have own := startingBefore_append 0 front back
  rw [Nat.zero_add, whole] at own
  rw [positionAt_eq, own]

/-- Positions are exact and in order. The line counts the newlines among the characters that start before
the offset, and the column those of the characters that stand behind the last newline. Later offsets have no
earlier positions, later ones of two boundaries have later positions, so that no two boundaries share one,
and from the end of the text on all offsets have the position of the end. -/
theorem positions_are_exact_and_ordered (source : String) :
    (∀ offset, positionAt source offset =
      let before := startingBefore offset 0 source.toList
      ⟨1 + before.count '\n', 1 + (before.rtakeWhile (· != '\n')).length⟩) ∧
      Monotone (fun offset => (positionAt source offset).rank) ∧
      StrictMonoOn (fun offset => (positionAt source offset).rank) {offset | IsBoundary source offset} ∧
      Set.InjOn (positionAt source) {offset | IsBoundary source offset} ∧
      ∀ more, positionAt source (byteLength source.toList + more) =
        positionAt source (byteLength source.toList) := by
  have strict : StrictMonoOn (fun offset => (positionAt source offset).rank)
      {offset | IsBoundary source offset} := by
    rintro _ ⟨front, before, rfl⟩ _ ⟨whole, before', rfl⟩ less
    dsimp only
    rw [positionAt_of_boundary before, positionAt_of_boundary before']
    rcases List.prefix_or_prefix_of_prefix before before' with ⟨more, rfl⟩ | ⟨more, rfl⟩
    · refine Position.rank_behind_lt front ?_
      rintro rfl
      rw [List.append_nil] at less
      exact Nat.lt_irrefl _ less
    · rw [byteLength_append] at less
      omega
  refine ⟨positionAt_eq source, fun one two le => ?_, strict, fun one first two second same => ?_,
    fun more => ?_⟩
  · dsimp only
    rw [positionAt_eq, positionAt_eq]
    exact Position.rank_behind_le (startingBefore_mono le 0 source.toList)
  · exact strict.injOn first second (congrArg Position.rank same)
  · have start : 0 + byteLength source.toList = byteLength source.toList := Nat.zero_add _
    rw [positionAt_eq, positionAt_eq, startingBefore_of_end_le start.le,
      startingBefore_of_end_le (by omega)]

/-- An offset inside a character is behind it. -/
example : positionAt "é\nb" 1 = ⟨1, 2⟩ ∧ positionAt "é\nb" 3 = ⟨2, 1⟩ := by decide

end ScreenStudio.Source
