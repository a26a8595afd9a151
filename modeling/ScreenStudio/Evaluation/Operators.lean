/- digest: Operators, members and indices of values. -/

import ScreenStudio.Evaluation.Machine

set_option autoImplicit false
set_option relaxedAutoImplicit false

namespace ScreenStudio.Evaluation

open Source (Span BinaryOperator UnaryOperator)

def isPlain : Value → Bool
  | .null => true
  | .bool _ => true
  | .number _ => true
  | _ => false

/-- The first value is less than the second. -/
def less : Value → Value → Bool
  | .text a, .text b => decide (a < b)
  | a, b => decide (a.toNumber < b.toNumber)

/-- The first value is less than or equal to the second. -/
def lessOrEqual : Value → Value → Bool
  | .text a, .text b => decide (a < b) || a == b
  | a, b => decide (a.toNumber < b.toNumber) || a.toNumber == b.toNumber

/-- The result of an operator on two values. -/
def applyBinary (operator : BinaryOperator) (a b : Value) : Value :=
  match operator with
  | .or => if a.isTruthy then a else b
  | .and => if a.isTruthy then b else a
  | .equal => .bool (a.same b)
  | .notEqual => .bool (!a.same b)
  | .less => .bool (less a b)
  | .lessOrEqual => .bool (lessOrEqual a b)
  | .greater => .bool (less b a)
  | .greaterOrEqual => .bool (lessOrEqual b a)
  | .add =>
    if isPlain a && isPlain b then .number (a.toNumber + b.toNumber)
    else .text (a.display ++ b.display)
  | .subtract => .number (a.toNumber - b.toNumber)
  | .multiply => .number (a.toNumber * b.toNumber)
  | .divide => .number (a.toNumber / b.toNumber)
  | .remainder => .number (Number.remainder a.toNumber b.toNumber)

def applyUnary (operator : UnaryOperator) (operand : Value) : Value :=
  match operator with
  | .not => .bool (!operand.isTruthy)
  | .negate => .number (-operand.toNumber)

/-- The member of a value under a name. -/
def memberOf (target : Value) (property : String) (span : Span) : Run Value :=
  match target with
  | .null => Run.fail span (.memberOfNull property)
  | .object _ entries => Run.succeed ((Dictionary.get? property entries).getD .null)
  | .array _ items =>
    Run.succeed (if property = "length" then .number (Number.ofInt items.length) else .null)
  | .text content =>
    Run.succeed
      (if property = "length" then .number (Number.ofInt content.toList.length) else .null)
  | _ => Run.succeed .null

/-- The place in a sequence that a number names. -/
def position? (number : Float) : Option Nat :=
  match Number.toInt? number with
  | some place => if 0 ≤ place then some place.toNat else none
  | none => none

/-- The part of a value under a key. A number names a place in an array or a text; otherwise the key
is the name of a member. -/
def indexOf (target key : Value) (span : Span) : Run Value :=
  match target, key with
  | .array _ items, .number place =>
    Run.succeed (((position? place).bind (fun index => items[index]?)).getD .null)
  | .text content, .number place =>
    Run.succeed (((position? place).bind (fun index => content.toList[index]?)).elim .null
      (fun c => .text c.toString))
  | _, _ => memberOf target key.display span

end ScreenStudio.Evaluation
