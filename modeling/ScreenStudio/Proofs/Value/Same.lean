/- digest: The comparison of values is symmetric and transitive, and only NaN differs from itself. -/

import Mathlib
import ScreenStudio.Value.Text

set_option autoImplicit false
set_option relaxedAutoImplicit false

namespace ScreenStudio.Value

theorem same_comm (one two : Value) : one.same two = two.same one := by
  cases one <;> cases two <;> first | rfl | exact BEq.comm

theorem same_trans {one two three : Value} (first : one.same two = true) (second : two.same three = true) :
    one.same three = true := by
  -- Where two of the values are of different kinds, one of the assumptions says that false is true.
  cases one <;> cases two <;> (try cases first) <;> cases three <;> (try cases second) <;>
    first | rfl | exact PartialEquivBEq.trans first second

theorem same_self_iff (value : Value) : value.same value = true ↔ value ≠ .number Number.nan := by
  have canonical : Number.nan = Float.nan := rfl
  cases value with
  | number content =>
    rw [canonical, Ne, Value.number.injEq]
    exact Float.beq_self_iff
  | null => exact iff_of_true rfl nofun
  | _ => exact iff_of_true BEq.rfl nofun

end ScreenStudio.Value
