/- digest: A key that an action neither assigns to nor reads makes no difference to it. -/

import ScreenStudio.Proofs.Action.Assignment
import ScreenStudio.Proofs.Evaluation.UnreadKey

/-!
A statement is unrelated to a key if it does not assign under it and neither the key nor the name of the
document is free in its source. On a document with this key besides others, such a statement does what it
does on the document without it: it fails in the same way, or assigns the same data along the same path,
and the key keeps its value. Statement by statement the same holds of an action.
-/

set_option autoImplicit false
set_option relaxedAutoImplicit false

namespace ScreenStudio.Action

open Evaluation (singleExpression toJson_singleExpression_insert)

/-- The key of the document under which a statement assigns, if it has a path. -/
def target? (statement : String) : Option String :=
  ((splitAssignment? statement).bind (fun parts => segments? parts.1)).bind List.head?

/-- The names that the source of a statement reads from the scope of the document. -/
def reads (statement : String) : List String :=
  match splitAssignment? statement with
  | none => []
  | some (_, source) =>
    match Source.expression source with
    | .ok value => value.freeNames
    | .error _ => []

/-- The statement neither assigns under the key nor reads it, nor the document as a whole. -/
structure Unrelated (key statement : String) : Prop where
  assigned : target? statement ≠ some key
  key : key ∉ reads statement
  state : "state" ∉ reads statement

instance (key statement : String) : Decidable (Unrelated key statement) :=
  decidable_of_iff
    (target? statement ≠ some key ∧ key ∉ reads statement ∧ "state" ∉ reads statement)
    ⟨fun ⟨assigned, key, state⟩ => ⟨assigned, key, state⟩,
      fun ⟨assigned, key, state⟩ => ⟨assigned, key, state⟩⟩

variable {key statement : String} {entries : List (String × Json)}

section Statements

private theorem evaluate_congr {state other : Json}
    (same : ∀ path source, splitAssignment? statement = some (path, source) →
      (singleExpression source other .empty).1.map Value.toJson =
        (singleExpression source state .empty).1.map Value.toJson) :
    evaluate statement other = evaluate statement state := by
  unfold evaluate
  cases split : splitAssignment? statement with
  | none => rfl
  | some parts =>
    obtain ⟨path, source⟩ := parts
    have documents := same path source split
    dsimp only
    cases segments? path with
    | none => rfl
    | some keys =>
      dsimp only
      generalize (singleExpression source state .empty).1 = one at documents ⊢
      generalize (singleExpression source other .empty).1 = two at documents ⊢
      cases one with
      | error error =>
        cases two with
        | error also =>
          cases (Except.error.inj documents : also = error)
          rfl
        | ok value => cases documents
      | ok value =>
        cases two with
        | error error => cases documents
        | ok also =>
          have data : also.toJson = value.toJson := Except.ok.inj documents
          dsimp only
          rw [data]

theorem evaluate_insert (absent : Dictionary.get? key entries = none)
    (unrelated : Unrelated key statement) (extra : Json) :
    evaluate statement (.object (Dictionary.insert key extra entries)) =
      evaluate statement (.object entries) := by
  refine evaluate_congr fun path source split => toJson_singleExpression_insert absent ?_ extra .empty
  intro value read
  have names : reads statement = value.freeNames := by
    rw [reads, split]
    dsimp only
    rw [read]
  exact ⟨names ▸ unrelated.key, names ▸ unrelated.state⟩

theorem target_of_evaluate {state : Json} {keys : List String} {json : Json}
    (result : evaluate statement state = .ok (keys, json)) :
    ∃ first rest, keys = first :: rest ∧ target? statement = some first := by
  unfold evaluate at result
  split at result
  · cases result
  · rename_i path source parts
    split at result
    · cases result
    · split at result
      · cases result
      · rename_i segments found
        have same : segments = keys := by
          split at result
          · cases result
          · split at result
            · cases result
            · cases result
              rfl
        subst same
        obtain ⟨first, rest, rfl⟩ := List.exists_cons_of_ne_nil (pieces_of_segments found).2
        refine ⟨first, rest, rfl, ?_⟩
        rw [target?, parts, Option.bind_some, found]
        rfl

end Statements

section Assignments

theorem assign_insert {first : String} (different : first ≠ key) (rest : List String)
    (value extra : Json) (entries : List (String × Json)) :
    assign (first :: rest) value (Dictionary.insert key extra entries) =
      Dictionary.insert key extra (assign (first :: rest) value entries) := by
  rw [assign_cons, assign_cons, Dictionary.get?_insert_of_ne different,
    Dictionary.insert_insert_of_ne different]

theorem get?_assign_of_ne {first : String} (different : first ≠ key) (rest : List String) (value : Json)
    (entries : List (String × Json)) :
    Dictionary.get? key (assign (first :: rest) value entries) = Dictionary.get? key entries := by
  rw [assign_cons, Dictionary.get?_insert_of_ne different.symm]

end Assignments

/-- The outcomes are the same, but for the key that the second document has besides. -/
structure WithKey (key : String) (extra : Json) (first second : ActionOutcome) : Prop where
  document : ∃ entries, Dictionary.get? key entries = none ∧ first.state = .object entries ∧
    second.state = .object (Dictionary.insert key extra entries)
  changed : second.changed = first.changed
  errors : second.errors = first.errors

section Running

variable {extra : Json} {first second : ActionOutcome}

/-- An unrelated statement leaves the key as it is, and the key leaves the statement as it is. -/
theorem WithKey.step (alike : WithKey key extra first second) (unrelated : Unrelated key statement) :
    WithKey key extra (step first statement) (step second statement) := by
  obtain ⟨⟨entries, absent, before, beside⟩, changed, errors⟩ := alike
  have same := evaluate_insert absent unrelated extra
  unfold Action.step apply
  rw [before, beside, same]
  cases result : evaluate statement (.object entries) with
  | error error =>
    refine ⟨⟨entries, absent, rfl, rfl⟩, changed, ?_⟩
    exact congrArg (· ++ [error]) errors
  | ok assignment =>
    obtain ⟨keys, json⟩ := assignment
    obtain ⟨head, rest, rfl, target⟩ := target_of_evaluate result
    have different : head ≠ key := fun equal => unrelated.assigned (equal ▸ target)
    refine ⟨⟨assign (head :: rest) json entries, ?_, rfl, ?_⟩, rfl, errors⟩
    · rw [get?_assign_of_ne different, absent]
    · exact congrArg Json.object (assign_insert different rest json extra entries)

theorem WithKey.foldl_step (alike : WithKey key extra first second) {list : List String}
    (unrelated : ∀ statement ∈ list, Unrelated key statement) :
    WithKey key extra (list.foldl Action.step first) (list.foldl Action.step second) := by
  induction list generalizing first second with
  | nil => exact alike
  | cons statement rest ih =>
    obtain ⟨own, others⟩ := List.forall_mem_cons.mp unrelated
    exact ih (alike.step own) others

end Running

/-- A key that is not in the document, is not assigned to and not read makes no difference to an action,
whatever stands under it: the errors and whether something changed are the same, and the document is the
same with the key besides. -/
theorem unrelated_key_makes_no_difference {action : String}
    (absent : Dictionary.get? key entries = none)
    (unrelated : ∀ statement ∈ statements action, Unrelated key statement) (extra : Json) :
    ∃ final, (execute action (.object entries)).state = .object final ∧
      Dictionary.get? key final = none ∧
      execute action (.object (Dictionary.insert key extra entries)) =
        ⟨.object (Dictionary.insert key extra final), (execute action (.object entries)).changed,
          (execute action (.object entries)).errors⟩ := by
  have start : WithKey key extra ⟨.object entries, false, []⟩
      ⟨.object (Dictionary.insert key extra entries), false, []⟩ :=
    ⟨⟨entries, absent, rfl, rfl⟩, rfl, rfl⟩
  obtain ⟨⟨final, kept, state, beside⟩, changed, errors⟩ := start.foldl_step unrelated
  refine ⟨final, state, kept, ?_⟩
  rw [execute, execute, ← beside, ← changed, ← errors]

/-- A function has a parameter with the name of the key, and a later statement fails. -/
theorem parameter_hides_unrelated_key :
    let action := "b = ((k) => [k, a])('t'); c = missing"
    let entries := [("a", Json.bool true)]
    (execute action (.object entries)).errors.length = 1 ∧
      ∃ final, (execute action (.object entries)).state = .object final ∧
        Dictionary.get? "k" final = none ∧
        execute action (.object [("a", .bool true), ("k", .null)]) =
          ⟨.object (Dictionary.insert "k" .null final), true,
            (execute action (.object entries)).errors⟩ := by
  intro action entries
  have absent : Dictionary.get? "k" entries = none := rfl
  have unrelated : ∀ statement ∈ statements action, Unrelated "k" statement := by decide +kernel
  have changed : (execute action (.object entries)).changed = true := by decide +kernel
  obtain ⟨final, state, kept, same⟩ := unrelated_key_makes_no_difference absent unrelated .null
  rw [changed] at same
  exact ⟨by decide +kernel, final, state, kept, same⟩

end ScreenStudio.Action
