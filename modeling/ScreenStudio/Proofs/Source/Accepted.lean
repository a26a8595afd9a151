/- digest: Texts that are cut into the tokens of statements are accepted as programs. -/

import ScreenStudio.Proofs.Source.Cutting
import ScreenStudio.Proofs.Source.Derived
import ScreenStudio.Source.Program

set_option autoImplicit false
set_option relaxedAutoImplicit false

namespace ScreenStudio.Source

open Nested (ofLevels)

theorem programOfLexemes_of_complete {statements : List Statement} {lexemes : List Lexeme}
    (complete : CompleteStatements statements (tokensOf lexemes)) (length : Nat) :
    ∃ read, programOfLexemes length lexemes = .ok read ∧
      Statement.bareList read = Statement.bareList statements := by
  have stops : FirstToken Token.Stops [] := fun _ none => by cases none
  have enough : (tokensOf lexemes ++ []).length ≤ lexemes.length := by
    rw [List.append_nil]
    exact Nat.le_of_eq (List.length_map _)
  obtain ⟨read, ⟨ahead, behind⟩, outcome, empty, same⟩ :=
    complete [] lexemes.length stops enough ⟨lexemes, 0⟩ (List.append_nil _).symm
  cases List.map_eq_nil_iff.mp empty
  have reading : ((ofLevels (lexemes.length + 1)).statements ⟨lexemes, 0⟩).outcome =
      some (read, ⟨[], behind⟩) := outcome
  refine ⟨read, ?_, same⟩
  unfold programOfLexemes
  dsimp only
  rw [reading]

/-- A text that is cut into tokens, which without comments make up statements, is read as these. -/
theorem program_of_complete {source : String} {lexemes : List Lexeme} {statements : List Statement}
    (cuts : Cuts 0 source.toList lexemes)
    (complete : CompleteStatements statements (tokensOf (withoutComments lexemes))) :
    ∃ read, program source = .ok read ∧ Statement.bareList read = Statement.bareList statements := by
  obtain ⟨read, parsed, same⟩ :=
    programOfLexemes_of_complete complete (byteLength source.toList)
  refine ⟨read, ?_, same⟩
  unfold withoutComments at parsed
  rw [program, lexemes_iff_cuts.mpr cuts]
  dsimp only
  rw [parsed]
  rfl

theorem Derives.alone {exact : Prop} {lead : Lead} {tail : Tail} {value : Expression}
    {inner : List Lexeme} (chain : Derives exact (.chain lead tail value) inner) :
    Derives exact (.expression lead value) inner := by
  have operation : Derives exact (.operation lead tail value) (inner ++ []) :=
    .operation [] (List.forall_mem_nil _) (.operand nowhere [] (List.forall_mem_nil _) chain) trivial
      (List.forall_mem_nil _)
  rw [List.append_nil] at operation
  exact .plain operation

/-- A text that is cut into tokens, which without comments make up an expression, is read as this one
expression. -/
theorem expression_of_derives {exact : Prop} {source : String} {all : List Lexeme} {lead : Lead}
    {value : Expression} (cut : lexemes source = .ok all)
    (derived : Derives exact (.expression lead value) (withoutComments all)) :
    ∃ read, expression source = .ok read ∧ read.bare = value.bare := by
  let place := extentOf (withoutComments all)
  let sentence : Sentence := ⟨.value, ⟨lead, .expression place value, withoutComments all⟩, []⟩
  have single : Derives exact (.statements [.expression place value])
      ([] ++ [sentence].flatMap Sentence.lexemes) :=
    .statements [] [sentence] (List.forall_mem_nil _)
      (List.forall_mem_singleton.mpr (List.forall_mem_nil _)) (.singleton _)
      (List.forall_mem_singleton.mpr (.expression place derived fun _ => rfl))
  have row : [] ++ [sentence].flatMap Sentence.lexemes = withoutComments all := by
    rw [List.nil_append, List.flatMap_singleton]
    exact List.append_nil _
  rw [row] at single
  obtain ⟨statements, accepted, same⟩ := program_of_complete (lexemes_iff_cuts.mp cut) single.complete
  rw [Statement.bareList_eq_map, Statement.bareList_eq_map, List.map_singleton,
    List.map_eq_singleton_iff] at same
  obtain ⟨statement, rfl, alone⟩ := same
  cases statement with
  | expression span read =>
    obtain ⟨_, equal⟩ := Statement.expression.inj alone
    refine ⟨read, ?_, equal⟩
    rw [expression, accepted]
    rfl
  | binding => cases alone
  | branch span condition consequent alternative =>
    rw [Statement.bare_branch] at alone
    cases alone
  | result span given => cases given <;> cases alone

end ScreenStudio.Source
