/- digest: Actions keep documents regular and leave them alone where no statement succeeds. -/

import ScreenStudio.Action
import ScreenStudio.Proofs.Evaluation.Confined

set_option autoImplicit false
set_option relaxedAutoImplicit false

namespace ScreenStudio

namespace Json

private theorem regular_insert {key : String} {value : Json} {entries : List (String × Json)}
    (regular : (Json.object entries).Regular) (inserted : value.Regular) :
    (Json.object (Dictionary.insert key value entries)).Regular := by
  refine ⟨Dictionary.ascending_insert regular.1, entriesRegular_iff.mpr ?_⟩
  intro entry member
  rcases Dictionary.mem_of_mem_insert member with rfl | old
  · exact inserted
  · exact entriesRegular_iff.mp regular.2 entry old

private theorem regular_entries {json : Json} (regular : json.Regular) :
    (Json.object (json.entries?.getD [])).Regular := by
  cases json with
  | object entries => exact regular
  | _ => exact ⟨Dictionary.ascending_nil, trivial⟩

end Json

namespace Action

theorem regular_assign {path : List String} {value : Json} {entries : List (String × Json)}
    (assigned : value.Regular) (regular : (Json.object entries).Regular) :
    (Json.object (assign path value entries)).Regular := by
  induction path generalizing entries with
  | nil => exact regular
  | cons key rest ih =>
    cases rest with
    | nil => exact Json.regular_insert regular assigned
    | cons next others =>
      refine Json.regular_insert regular (ih ?_)
      cases found : Dictionary.get? key entries with
      | none => exact ⟨Dictionary.ascending_nil, trivial⟩
      | some inner =>
        have member := Dictionary.mem_of_get? found
        exact Json.regular_entries (Json.entriesRegular_iff.mp regular.2 _ member)

private theorem regular_evaluate {statement : String} {state : Json} (regular : state.Regular)
    {keys : List String} {assigned : Json} (result : evaluate statement state = .ok (keys, assigned)) :
    assigned.Regular := by
  unfold evaluate at result
  split at result
  · cases result
  · split at result
    · cases result
    · split at result
      · cases result
      · split at result
        · cases result
        · rename_i value evaluated
          split at result
          · cases result
          · rename_i json converted
            cases result
            have confined := Evaluation.confined_singleExpression regular evaluated
            exact Value.regular_toJson value _ confined converted

theorem apply_of_ok {statement : String} {state : Json} {path : List String} {value : Json}
    (evaluated : evaluate statement state = .ok (path, value)) :
    apply statement state = (.ok (), .object (assign path value (state.entries?.getD []))) := by
  rw [apply, evaluated]

theorem apply_of_error {statement : String} {state : Json} {error : ActionError}
    (failed : evaluate statement state = .error error) : apply statement state = (.error error, state) := by
  rw [apply, failed]

theorem regular_apply {state : Json} (regular : state.Regular) (statement : String) :
    (apply statement state).2.Regular := by
  cases result : evaluate statement state with
  | error error =>
    rw [apply_of_error result]
    exact regular
  | ok assignment =>
    rw [apply_of_ok result]
    exact regular_assign (regular_evaluate regular result) (Json.regular_entries regular)

theorem state_step (outcome : ActionOutcome) (statement : String) :
    (step outcome statement).state = (apply statement outcome.state).2 := by
  unfold step
  split <;> rename_i ran <;> rw [ran]

private theorem foldl_step (holds : ActionOutcome → Prop)
    (keeps : ∀ outcome statement, holds outcome → holds (step outcome statement))
    (list : List String) (outcome : ActionOutcome) (start : holds outcome) :
    holds (list.foldl step outcome) := by
  induction list generalizing outcome with
  | nil => exact start
  | cons statement rest ih => exact ih _ (keeps outcome statement start)

theorem regular_execute {state : Json} (regular : state.Regular) (action : String) :
    (execute action state).state.Regular := by
  refine foldl_step (fun outcome => outcome.state.Regular) ?_ (statements action) _ regular
  intro outcome statement held
  rw [state_step]
  exact regular_apply held statement

theorem execute_unchanged {action : String} {state : Json}
    (unchanged : (execute action state).changed = false) : (execute action state).state = state := by
  have invariant := foldl_step
    (fun outcome => outcome.changed = false → outcome.state = state) ?_
    (statements action) ⟨state, false, []⟩ (fun _ => rfl)
  · exact invariant unchanged
  · intro outcome statement held
    cases result : evaluate statement outcome.state with
    | ok assignment =>
      rw [step, apply_of_ok result]
      exact nofun
    | error error =>
      rw [step, apply_of_error result]
      exact held

end Action

end ScreenStudio
