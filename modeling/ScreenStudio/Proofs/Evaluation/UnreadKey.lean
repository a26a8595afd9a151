/- digest: A key of the document that a source does not read makes no difference to its value. -/

import ScreenStudio.Proofs.Evaluation.Coincidence
import ScreenStudio.Proofs.Evaluation.Interchangeable

set_option autoImplicit false
set_option relaxedAutoImplicit false

namespace ScreenStudio

namespace Value

theorem ofEntries_append (start : Nat) (front back : List (String × Json)) :
    (ofEntries start (front ++ back)).2 = (ofEntries (ofEntries start front).2 back).2 := by
  induction front generalizing start with
  | nil => rfl
  | cons entry rest ih => exact ih (ofJson start entry.2).2

theorem ofEntries_mono {low high : Nat} (le : low ≤ high) (entries : List (String × Json)) :
    (ofEntries low entries).2 ≤ (ofEntries high entries).2 := by
  have counts : CountsOn (fun identity => identity + (high - low)) low high (ofEntries low entries).2 :=
    fun count _ => by dsimp only; omega
  have far := (ofEntries_coincide entries counts).2
  omega

end Value

namespace Evaluation

section Documents

variable {relabel : Nat → Nat} {names : List String} {entries front back : List (String × Json)}

theorem bindEntries_append (start : Nat) (scope : Scope) (front back : List (String × Json)) :
    bindEntries start scope (front ++ back) =
      bindEntries (bindEntries start scope front).2 (bindEntries start scope front).1 back := by
  induction front generalizing start scope with
  | nil => rfl
  | cons entry rest ih => exact ih (Value.ofJson start entry.2).2 _

theorem le_bindEntries (start : Nat) (scope : Scope) (entries : List (String × Json)) :
    start ≤ (bindEntries start scope entries).2 := by
  induction entries generalizing start scope with
  | nil => exact Nat.le_refl start
  | cons entry rest ih => exact Nat.le_trans (Value.ofJson_below entry.2 start).1 (ih _ _)

theorem agreeOn_bindEntries (entries : List (String × Json)) {start other : Nat} {scope also : Scope}
    (counts : Value.CountsOn relabel start other (bindEntries start scope entries).2)
    (agree : scope.AgreeOn relabel names also) :
    (bindEntries start scope entries).1.AgreeOn relabel names (bindEntries other also entries).1 ∧
      (bindEntries other also entries).2 + start = other + (bindEntries start scope entries).2 := by
  induction entries generalizing start other scope also with
  | nil => exact ⟨agree, rfl⟩
  | cons entry rest ih =>
    obtain ⟨key, json⟩ := entry
    have le := (Value.ofJson_below json start).1
    have further := le_bindEntries (Value.ofJson start json).2
      (Scope.bind key (Value.ofJson start json).1 scope) rest
    obtain ⟨coincide, far⟩ := Value.ofJson_coincide json (counts.mono further)
    obtain ⟨bound, last⟩ :=
      ih (counts.onward le far) (.bind coincide fun name member _ => agree name member)
    refine ⟨bound, ?_⟩
    rw [bindEntries, bindEntries]
    dsimp only
    omega

/-- One entry more among the others, counted from further on, makes no difference to the names that it does
not bind, up to a renaming. -/
theorem agreeOn_bindEntries_extra {key : String} (extra : Json) {low high : Nat} (le : low ≤ high)
    {scope also : Scope} (noKey : key ∉ names) (agree : ∀ relabel, scope.AgreeOn relabel names also) :
    ∃ map : Renaming, map.start ≤ (bindEntries low scope (front ++ back)).2 ∧
      (bindEntries high also (front ++ (key, extra) :: back)).2 =
        map.relabel (bindEntries low scope (front ++ back)).2 ∧
      (bindEntries low scope (front ++ back)).1.AgreeOn map.relabel names
        (bindEntries high also (front ++ (key, extra) :: back)).1 := by
  have forward := le_bindEntries low scope front
  have further := le_bindEntries (bindEntries low scope front).2 (bindEntries low scope front).1 back
  have wider := (Value.ofJson_below extra (bindEntries high also front).2).1
  rw [bindEntries_append, bindEntries_append, bindEntries]
  dsimp only
  -- Identities of the front move by one distance, and those behind the new entry by another.
  have moved : ∀ relabel, Value.CountsOn relabel low high (bindEntries low scope front).2 →
      (bindEntries low scope front).1.AgreeOn relabel names (bindEntries high also front).1 ∧
        (bindEntries high also front).2 + low = high + (bindEntries low scope front).2 :=
    fun relabel counts => agreeOn_bindEntries front counts (agree relabel)
  have distance := (moved (fun identity => identity + (high - low)) fun count _ => by
    dsimp only
    omega).2
  let map := Renaming.splice (high - low) (bindEntries low scope front).2
    (Value.ofJson (bindEntries high also front).2 extra).2 (by omega)
  have near : Value.CountsOn map.relabel low high (bindEntries low scope front).2 := by
    intro count less
    show (if _ < _ then _ else _) = _
    rw [if_pos less]
    omega
  have start : map.relabel (bindEntries low scope front).2 =
      (Value.ofJson (bindEntries high also front).2 extra).2 := Renaming.relabel_splice_start _
  have far : ∀ stop, Value.CountsOn map.relabel (bindEntries low scope front).2
      (Value.ofJson (bindEntries high also front).2 extra).2 stop := by
    intro stop count _
    rw [← start]
    exact map.inStep count
  have skipped : (bindEntries low scope front).1.AgreeOn map.relabel names
      (Scope.bind key (Value.ofJson (bindEntries high also front).2 extra).1
        (bindEntries high also front).1) := by
    intro name member
    have different : key ≠ name := fun same => noKey (same ▸ member)
    rw [Scope.bind, Scope.lookup?, if_neg different]
    exact (moved map.relabel near).1 name member
  obtain ⟨bound, last⟩ := agreeOn_bindEntries back (far _) skipped
  refine ⟨map, further, ?_, bound⟩
  obtain ⟨count, reached⟩ := Nat.exists_eq_add_of_le further
  rw [reached] at last ⊢
  have stepped : map.relabel ((bindEntries low scope front).2 + count) =
      map.relabel (bindEntries low scope front).2 + count := map.inStep count
  rw [stepped, start]
  omega

/-- With one more key in the document, the scope of a single expression is the same up to a renaming, but
for the key and the name of the document. -/
theorem agreeOn_documentScope {key : String} (extra : Json) (absent : Dictionary.get? key entries = none)
    (noKey : key ∉ names) (noState : "state" ∉ names) :
    ∃ map : Renaming, map.start ≤ (documentScope (.object entries)).2 ∧
      (documentScope (.object (Dictionary.insert key extra entries))).2 =
        map.relabel (documentScope (.object entries)).2 ∧
      (documentScope (.object entries)).1.AgreeOn map.relabel names
        (documentScope (.object (Dictionary.insert key extra entries))).1 := by
  obtain ⟨front, back, rfl, inserted⟩ := Dictionary.exists_insert_eq_append absent extra
  rw [inserted]
  refine agreeOn_bindEntries_extra extra ?_ noKey ?_
  · show (Value.ofEntries 1 (front ++ back)).2 ≤ (Value.ofEntries 1 (front ++ (key, extra) :: back)).2
    rw [Value.ofEntries_append, Value.ofEntries_append]
    exact Value.ofEntries_mono (Value.ofJson_below extra _).1 back
  · intro relabel name member
    have different : "state" ≠ name := fun same => noState (same ▸ member)
    show Option.Rel _ (if "state" = name then _ else none) (if "state" = name then _ else none)
    rw [if_neg different, if_neg different]
    exact .none

end Documents

/-- Where neither the key nor the name of the document is free in it, a source has the same failure with
the key in the document as without it, or the same document as its value, or none for the same reason. -/
theorem toJson_singleExpression_insert {source key : String} {entries : List (String × Json)}
    (absent : Dictionary.get? key entries = none)
    (unread : ∀ value, Source.expression source = .ok value →
      key ∉ value.freeNames ∧ "state" ∉ value.freeNames)
    (extra : Json) (host : Recording) :
    (singleExpression source (.object (Dictionary.insert key extra entries)) host).1.map Value.toJson =
      (singleExpression source (.object entries) host).1.map Value.toJson := by
  unfold singleExpression
  cases read : Source.expression source with
  | error error => rfl
  | ok expression =>
    obtain ⟨noKey, noState⟩ := unread expression read
    obtain ⟨map, reached, next, agree⟩ := agreeOn_documentScope extra absent noKey noState
    have calls : (callWithin source callLimit).Coincides (.renamed map) :=
      coincide_callWithin source callLimit
    have outcome := coincide_evaluate calls expression agree _ _ (Nat.le_refl _)
      (alike_initial map reached host)
    rw [← next] at outcome
    have result := outcome.result
    dsimp only
    revert result
    generalize (evaluate _ (documentScope (.object entries)).1 expression _).1 = one
    generalize (evaluate _ _ expression _).1 = two
    intro result
    cases result with
    | error error => rfl
    | ok coincide => exact congrArg Except.ok coincide.toJson

end Evaluation

end ScreenStudio
