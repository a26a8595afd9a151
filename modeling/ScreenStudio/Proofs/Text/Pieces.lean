/- digest: Cutting a text at a character undoes joining at it, and trimming drops the blanks at the ends. -/

import ScreenStudio.Text.Blank
import Mathlib.Data.List.DropRight

set_option autoImplicit false
set_option relaxedAutoImplicit false

namespace ScreenStudio.Text

section Runs

theorem run_append {p : Char → Bool} {part after : List Char} (all : ∀ c ∈ part, p c = true)
    (stops : ∀ c, after.head? = some c → p c = false) :
    (part ++ after).takeWhile p = part ∧ (part ++ after).dropWhile p = after := by
  rw [List.takeWhile_append_of_pos all, List.dropWhile_append_of_pos all]
  cases after with
  | nil => exact ⟨List.append_nil part, rfl⟩
  | cons c more =>
    have not := stops c rfl
    rw [List.takeWhile_cons_of_neg (by rw [not]; exact Bool.false_ne_true), List.append_nil,
      List.dropWhile_cons_of_neg (by rw [not]; exact Bool.false_ne_true)]
    exact ⟨rfl, rfl⟩

theorem head_dropWhile (p : Char → Bool) (cs : List Char) :
    ∀ c, (cs.dropWhile p).head? = some c → p c = false := by
  induction cs with
  | nil => exact fun _ is => by cases is
  | cons first rest ih =>
    intro c is
    cases held : p first with
    | true =>
      rw [List.dropWhile_cons_of_pos held] at is
      exact ih c is
    | false =>
      rw [List.dropWhile_cons_of_neg (by rw [held]; exact Bool.false_ne_true)] at is
      cases is
      exact held

end Runs

theorem splitChars_eq_splitOnP (separator : Char → Bool) (cs : List Char) :
    splitChars separator cs = cs.splitOnP separator := by
  induction cs with
  | nil => rfl
  | cons c rest ih =>
    rw [splitChars, List.splitOnP_cons_eq_if_modifyHead, ih]
    split
    · rfl
    · cases pieces : rest.splitOnP separator with
      | nil => exact absurd pieces (List.splitOnP_ne_nil separator rest)
      | cons piece pieces => rfl

theorem not_separator_of_mem_splitChars {separator : Char → Bool} {cs piece : List Char} {c : Char}
    (member : piece ∈ splitChars separator cs) (inside : c ∈ piece) : separator c = false := by
  induction cs generalizing piece with
  | nil =>
    rw [List.mem_singleton.mp member] at inside
    cases inside
  | cons first rest ih =>
    unfold splitChars at member
    split at member
    · rcases List.mem_cons.mp member with rfl | behind
      · cases inside
      · exact ih behind inside
    · rename_i other
      split at member
      · rename_i nothing
        exact absurd nothing (splitChars_ne_nil separator rest)
      · rename_i head tail equal
        rcases List.mem_cons.mp member with rfl | behind
        · rcases List.mem_cons.mp inside with rfl | later
          · exact Bool.eq_false_iff.mpr other
          · exact ih (by rw [equal]; exact List.mem_cons_self) later
        · exact ih (by rw [equal]; exact List.mem_cons_of_mem _ behind) inside

theorem exists_mem_splitChars {separator : Char → Bool} {cs : List Char} {c : Char} (member : c ∈ cs)
    (other : separator c = false) : ∃ piece ∈ splitChars separator cs, c ∈ piece := by
  induction cs with
  | nil => cases member
  | cons first rest ih =>
    unfold splitChars
    split
    · rename_i cut
      rcases List.mem_cons.mp member with rfl | behind
      · exact absurd cut (Bool.eq_false_iff.mp other)
      · obtain ⟨piece, inside, holds⟩ := ih behind
        exact ⟨piece, List.mem_cons_of_mem _ inside, holds⟩
    · split
      · rename_i nothing
        exact absurd nothing (splitChars_ne_nil separator rest)
      · rename_i head tail equal
        rcases List.mem_cons.mp member with rfl | behind
        · exact ⟨c :: head, List.mem_cons_self, List.mem_cons_self⟩
        · obtain ⟨piece, inside, holds⟩ := ih behind
          rw [equal] at inside
          rcases List.mem_cons.mp inside with rfl | later
          · exact ⟨first :: piece, List.mem_cons_self, List.mem_cons_of_mem _ holds⟩
          · exact ⟨piece, List.mem_cons_of_mem _ later, holds⟩

section Separator

variable {separator : Char}

theorem split_eq_splitOn (separator : Char) (text : String) :
    split (· == separator) text = (text.toList.splitOn separator).map String.ofList := by
  rw [split, splitChars_eq_splitOnP, List.splitOn_eq_splitOnP]

theorem split_append {joint : String} (single : joint.toList = [separator])
    (first second : String) :
    split (· == separator) (first ++ joint ++ second) =
      split (· == separator) first ++ split (· == separator) second := by
  simp only [split_eq_splitOn, String.toList_append]
  rw [List.append_assoc, single, List.singleton_append, List.splitOn_append_cons_self,
    List.map_append]

theorem split_of_not_mem {text : String} (absent : separator ∉ text.toList) :
    split (· == separator) text = [text] := by
  rw [split_eq_splitOn, List.splitOn_eq_singleton absent, List.map_singleton, String.ofList_toList]

theorem not_mem_of_mem_split {text piece : String} (member : piece ∈ split (· == separator) text) :
    separator ∉ piece.toList := by
  obtain ⟨chars, inside, rfl⟩ := List.mem_map.mp member
  rw [String.toList_ofList]
  intro held
  have apart := not_separator_of_mem_splitChars inside held
  rw [beq_self_eq_true] at apart
  cases apart

theorem intercalate_split {joint : String} (single : joint.toList = [separator]) (text : String) :
    joint.intercalate (split (· == separator) text) = text := by
  rw [← String.toList_inj, String.toList_intercalate, split_eq_splitOn, List.map_map, single]
  simp only [Function.comp_def, String.toList_ofList, List.map_id']
  exact List.intercalate_splitOn separator

theorem split_intercalate {joint : String} (single : joint.toList = [separator])
    {pieces : List String} (filled : pieces ≠ [])
    (absent : ∀ piece ∈ pieces, separator ∉ piece.toList) :
    split (· == separator) (joint.intercalate pieces) = pieces := by
  rw [split_eq_splitOn, String.toList_intercalate, single, List.splitOn_intercalate, List.map_map]
  · simp only [Function.comp_def, String.ofList_toList, List.map_id']
  · intro chars member
    obtain ⟨piece, inside, rfl⟩ := List.mem_map.mp member
    exact absent piece inside
  · exact fun empty => filled (List.map_eq_nil_iff.mp empty)

end Separator

theorem trimChars_eq (cs : List Char) :
    trimChars cs = (cs.dropWhile isBlank).rdropWhile isBlank := rfl

theorem trimChars_trimChars (cs : List Char) : trimChars (trimChars cs) = trimChars cs := by
  have front : (trimChars cs).dropWhile isBlank = trimChars cs := by
    rw [trimChars_eq, List.dropWhile_eq_self_iff]
    intro filled
    have start := List.dropWhile_eq_self_iff.mp (List.dropWhile_idempotent isBlank cs)
    have within := List.rdropWhile_prefix isBlank (cs.dropWhile isBlank)
    have room := Nat.lt_of_lt_of_le filled within.length_le
    rw [within.getElem filled]
    exact start room
  rw [trimChars_eq (trimChars cs), front, trimChars_eq, List.rdropWhile_idempotent]

/-- There is a first and a last character, and neither is a blank. -/
structure IsTrimmed (cs : List Char) : Prop where
  filled : cs ≠ []
  first : ∀ c, cs.head? = some c → isBlank c = false
  last : ∀ c, cs.getLast? = some c → isBlank c = false

theorem isTrimmed_of_no_blank {cs : List Char} (filled : cs ≠ []) (none : ∀ c ∈ cs, isBlank c = false) :
    IsTrimmed cs :=
  ⟨filled, fun c head => none c (List.mem_of_mem_head? head), fun c last => none c (List.mem_of_getLast? last)⟩

theorem trimChars_around {front core back : List Char} (ahead : ∀ c ∈ front, isBlank c = true)
    (behind : ∀ c ∈ back, isBlank c = true) (trimmed : IsTrimmed core) :
    trimChars (front ++ (core ++ back)) = core := by
  have start : ∀ c, (core ++ back).head? = some c → isBlank c = false := by
    intro c head
    obtain ⟨d, more, rfl⟩ := List.exists_cons_of_ne_nil trimmed.filled
    exact trimmed.first c head
  have backwards : ∀ c ∈ back.reverse, isBlank c = true := fun c member =>
    behind c (List.mem_reverse.mp member)
  have stop : ∀ c, core.reverse.head? = some c → isBlank c = false := by
    intro c head
    rw [List.head?_reverse] at head
    exact trimmed.last c head
  rw [trimChars, (run_append ahead start).2, List.reverse_append, (run_append backwards stop).2,
    List.reverse_reverse]

theorem trim_around {front core back : String} (ahead : ∀ c ∈ front.toList, isBlank c = true)
    (behind : ∀ c ∈ back.toList, isBlank c = true) (trimmed : IsTrimmed core.toList) :
    trim (front ++ core ++ back) = core := by
  rw [trim, String.toList_append, String.toList_append, List.append_assoc,
    trimChars_around ahead behind trimmed, String.ofList_toList]

theorem IsTrimmed.isEmpty {text : String} (trimmed : IsTrimmed text.toList) : text.isEmpty = false := by
  rw [Bool.eq_false_iff, Ne, String.isEmpty_iff]
  rintro rfl
  exact trimmed.filled rfl

theorem trim_trim (text : String) : trim (trim text) = trim text := by
  unfold trim
  rw [String.toList_ofList, trimChars_trimChars]

theorem exists_blanks_around_trimChars (cs : List Char) :
    ∃ front back, (∀ c ∈ front, isBlank c = true) ∧ (∀ c ∈ back, isBlank c = true) ∧
      cs = front ++ (trimChars cs ++ back) := by
  refine ⟨cs.takeWhile isBlank, (cs.dropWhile isBlank).rtakeWhile isBlank, ?_, ?_, ?_⟩
  · exact fun c member => List.mem_takeWhile_imp member
  · exact fun c member => List.mem_rtakeWhile_imp member
  · rw [trimChars_eq, List.rdropWhile_append_rtakeWhile, List.takeWhile_append_dropWhile]

theorem mem_trim_of_mem {text : String} {c : Char} (member : c ∈ text.toList)
    (filled : isBlank c = false) : c ∈ (trim text).toList := by
  obtain ⟨front, back, ahead, behind, shape⟩ := exists_blanks_around_trimChars text.toList
  rw [trim, String.toList_ofList]
  rw [shape] at member
  rcases List.mem_append.mp member with before | inside
  · exact absurd (ahead c before) (Bool.eq_false_iff.mp filled)
  · rcases List.mem_append.mp inside with kept | after
    · exact kept
    · exact absurd (behind c after) (Bool.eq_false_iff.mp filled)

theorem mem_of_mem_trim {text : String} {c : Char} (member : c ∈ (trim text).toList) :
    c ∈ text.toList := by
  rw [trim, String.toList_ofList, trimChars_eq] at member
  exact (List.dropWhile_sublist _).mem ((List.rdropWhile_prefix _ _).mem member)

end ScreenStudio.Text
