/- digest: The names that a piece of source reads from what stands around it. -/

import ScreenStudio.Proofs.Source.Occurrence

set_option autoImplicit false
set_option relaxedAutoImplicit false

namespace ScreenStudio.Source

instance (occurrence : Occurrence) : Decidable occurrence.IsBound :=
  inferInstanceAs (Decidable (∃ binder ∈ occurrence.visible, binder.name = occurrence.name))

/-- The names among the occurrences that nothing visible binds. -/
def freeAmong (occurrences : List Occurrence) : List String :=
  (occurrences.filter (fun occurrence => ¬ occurrence.IsBound)).map Occurrence.name

/-- The names that an expression reads from what is around it. -/
def Expression.freeNames (value : Expression) : List String := freeAmong (value.occurrences [])

def Body.freeNames (body : Body) : List String := freeAmong (body.occurrences [])

def Statement.freeNames (statement : Statement) : List String := freeAmong (statement.occurrences [])

/-- The names that the statements of a block read from what is around the block. -/
def Statement.blockFreeNames (statements : List Statement) : List String :=
  freeAmong (Statement.listOccurrences [] statements)

@[simp] theorem freeAmong_append (first second : List Occurrence) :
    freeAmong (first ++ second) = freeAmong first ++ freeAmong second := by
  rw [freeAmong, List.filter_append, List.map_append]
  rfl

section Around

/-- The occurrence with more visible around what was visible. -/
def Occurrence.inside (outer : List Binder) (occurrence : Occurrence) : Occurrence :=
  { occurrence with visible := occurrence.visible ++ outer }

mutual

/-- What is visible around an expression is visible at all its occurrences, behind all else. -/
theorem Expression.occurrences_append (outer : List Binder) :
    ∀ (value : Expression) (inner : List Binder), value.occurrences (inner ++ outer) =
      (value.occurrences inner).map (Occurrence.inside outer)
  | .literal _ _, _ => rfl
  | .array _ items, inner => Expression.listOccurrences_append outer items inner
  | .object _ entries, inner => Expression.entryOccurrences_append outer entries inner
  | .name _ _, _ => rfl
  | .member _ target _, inner => Expression.occurrences_append outer target inner
  | .index _ target key, inner => by
    rw [Expression.occurrences, Expression.occurrences, Expression.occurrences_append outer target,
      Expression.occurrences_append outer key, List.map_append]
  | .call _ callee arguments, inner => by
    rw [Expression.occurrences, Expression.occurrences, Expression.occurrences_append outer callee,
      Expression.listOccurrences_append outer arguments, List.map_append]
  | .arrow _ _ body, inner => by
    rw [Expression.occurrences, Expression.occurrences, ← List.append_assoc, Body.occurrences_append outer body]
  | .unary _ _ operand, inner => Expression.occurrences_append outer operand inner
  | .binary _ _ left right, inner => by
    rw [Expression.occurrences, Expression.occurrences, Expression.occurrences_append outer left,
      Expression.occurrences_append outer right, List.map_append]
  | .conditional _ condition consequent alternative, inner => by
    rw [Expression.occurrences, Expression.occurrences, Expression.occurrences_append outer condition,
      Expression.occurrences_append outer consequent, Expression.occurrences_append outer alternative,
      List.map_append, List.map_append]

theorem Expression.listOccurrences_append (outer : List Binder) :
    ∀ (items : List Expression) (inner : List Binder),
      Expression.listOccurrences (inner ++ outer) items =
        (Expression.listOccurrences inner items).map (Occurrence.inside outer)
  | [], _ => rfl
  | item :: rest, inner => by
    rw [Expression.listOccurrences, Expression.listOccurrences, Expression.occurrences_append outer item,
      Expression.listOccurrences_append outer rest, List.map_append]

theorem Expression.entryOccurrences_append (outer : List Binder) :
    ∀ (entries : List (String × Expression)) (inner : List Binder),
      Expression.entryOccurrences (inner ++ outer) entries =
        (Expression.entryOccurrences inner entries).map (Occurrence.inside outer)
  | [], _ => rfl
  | (_, item) :: rest, inner => by
    rw [Expression.entryOccurrences, Expression.entryOccurrences, Expression.occurrences_append outer item,
      Expression.entryOccurrences_append outer rest, List.map_append]

theorem Body.occurrences_append (outer : List Binder) : ∀ (body : Body) (inner : List Binder),
    body.occurrences (inner ++ outer) = (body.occurrences inner).map (Occurrence.inside outer)
  | .expression value, inner => Expression.occurrences_append outer value inner
  | .block statements, inner => Statement.listOccurrences_append outer statements inner

theorem Statement.occurrences_append (outer : List Binder) :
    ∀ (statement : Statement) (inner : List Binder), statement.occurrences (inner ++ outer) =
      (statement.occurrences inner).map (Occurrence.inside outer)
  | .binding _ _ value, inner => Expression.occurrences_append outer value inner
  | .expression _ value, inner => Expression.occurrences_append outer value inner
  | .branch _ condition consequent none, inner => by
    rw [Statement.occurrences, Statement.occurrences, Expression.occurrences_append outer condition,
      Statement.listOccurrences_append outer consequent, List.map_append]
  | .branch _ condition consequent (some alternative), inner => by
    rw [Statement.occurrences, Statement.occurrences, Expression.occurrences_append outer condition,
      Statement.listOccurrences_append outer consequent, Statement.listOccurrences_append outer alternative,
      List.map_append, List.map_append]
  | .result _ none, _ => rfl
  | .result _ (some value), inner => Expression.occurrences_append outer value inner

theorem Statement.listOccurrences_append (outer : List Binder) :
    ∀ (statements : List Statement) (inner : List Binder),
      Statement.listOccurrences (inner ++ outer) statements =
        (Statement.listOccurrences inner statements).map (Occurrence.inside outer)
  | [], _ => rfl
  | statement :: rest, inner => by
    rw [Statement.listOccurrences, Statement.listOccurrences, ← List.append_assoc,
      Statement.occurrences_append outer statement, Statement.listOccurrences_append outer rest,
      List.map_append]

end

theorem mem_freeAmong_inside {name : String} {occurrences : List Occurrence} {outer : List Binder}
    (free : name ∈ freeAmong occurrences) (other : ∀ binder ∈ outer, binder.name ≠ name) :
    name ∈ freeAmong (occurrences.map (Occurrence.inside outer)) := by
  obtain ⟨occurrence, kept, rfl⟩ := List.mem_map.mp free
  obtain ⟨member, unbound⟩ := List.mem_filter.mp kept
  refine List.mem_map.mpr
    ⟨occurrence.inside outer, List.mem_filter.mpr ⟨List.mem_map_of_mem member, ?_⟩, rfl⟩
  rw [decide_eq_true_eq] at unbound ⊢
  rintro ⟨binder, visible, same⟩
  rcases List.mem_append.mp visible with inner | behind
  · exact unbound ⟨binder, inner, same⟩
  · exact other binder behind same

end Around

section Parts

theorem mem_freeNames_arrow {name : String} (span : Span) {parameters : List String} {body : Body}
    (free : name ∈ body.freeNames) (other : name ∉ parameters) :
    name ∈ (Expression.arrow span parameters body).freeNames := by
  have apart : ∀ binder ∈ parameterBinders span parameters, binder.name ≠ name := by
    intro binder member
    obtain ⟨entry, listed, rfl⟩ := List.mem_map.mp (List.mem_reverse.mp member)
    rintro rfl
    exact other (List.fst_mem_of_mem_zipIdx listed)
  have inside := mem_freeAmong_inside free apart
  rw [← Body.occurrences_append, List.nil_append] at inside
  rw [Expression.freeNames, Expression.occurrences, List.append_nil]
  exact inside

theorem mem_blockFreeNames_cons {name : String} {statement : Statement} {rest : List Statement}
    (free : name ∈ Statement.blockFreeNames rest)
    (other : ∀ binder ∈ statement.binders, binder.name ≠ name) :
    name ∈ Statement.blockFreeNames (statement :: rest) := by
  have inside := mem_freeAmong_inside free other
  rw [← Statement.listOccurrences_append, List.nil_append] at inside
  rw [Statement.blockFreeNames, Statement.listOccurrences, freeAmong_append, List.append_nil]
  exact List.mem_append_right _ inside

end Parts

end ScreenStudio.Source
