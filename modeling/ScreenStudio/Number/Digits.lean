/- digest: The fewest decimal digits that still name one double. -/

import ScreenStudio.Number.Binary

/-!
The reals that round to a double form an interval around it: from half way to the double below to
half way to the double above, with the ends included when the significand is even. `shortest` finds
the decimal in this interval that has the fewest digits and, among these, is nearest to the double.
It walks over decimal grids from coarse to fine and tests the two grid points around the value; the
first grid with a hit wins. A value half way between two hits is settled by a tie rule.
-/

set_option autoImplicit false
set_option relaxedAutoImplicit false

namespace ScreenStudio.Number

/-- A decimal: `digits · 10 ^ exponent`. -/
structure Decimal where
  digits : Nat
  exponent : Int
  deriving DecidableEq, Repr

/-- Which of two equally near decimals is taken. -/
inductive TieRule
  | up
  | even
  deriving DecidableEq, Repr

/-- `significand · 2 ^ exponent` and a decimal grid brought to one scale: quarters of the last
binary place count `quarter`, a step of the grid counts `step`. -/
structure Grid where
  quarter : Nat
  step : Nat

/-- The common scale of quarters of `2 ^ binary` and steps of `10 ^ decimal`. -/
def Grid.of (binary decimal : Int) : Grid where
  quarter := 2 ^ (binary - 2).toNat * 10 ^ (-decimal).toNat
  step := 10 ^ decimal.toNat * 2 ^ (2 - binary).toNat

/-- Quarters from the value down to the lower end of its interval. The double below the least
significand of a binade is only half as far. -/
def quartersBelow (significand : Nat) (exponent : Int) : Nat :=
  if significand = 2 ^ 52 ∧ leastExponent < exponent then 1 else 2

/-- The grid point lies in the interval of reals that round to the value. -/
def readsBack (grid : Grid) (significand : Nat) (exponent : Int) (point : Nat) : Bool :=
  let low := (4 * significand - quartersBelow significand exponent) * grid.quarter
  let high := (4 * significand + 2) * grid.quarter
  let place := point * grid.step
  if significand % 2 = 0 then decide (low ≤ place ∧ place ≤ high)
  else decide (low < place ∧ place < high)

/-- The grid point nearest to the value among the two around it that read back. -/
def gridPoint? (tie : TieRule) (significand : Nat) (exponent decimal : Int) :
    Option Nat :=
  let grid := Grid.of exponent decimal
  let place := 4 * significand * grid.quarter
  let below := place / grid.step
  let above := below + 1
  match readsBack grid significand exponent below,
      readsBack grid significand exponent above with
  | true, true =>
    let middle := (2 * below + 1) * grid.step
    if 2 * place < middle then some below
    else if middle < 2 * place then some above
    else
      match tie with
      | .up => some above
      | .even => some (below + below % 2)
  | true, false => some below
  | false, true => some above
  | false, false => none

/-- Search `count` grids from `10 ^ decimal` downwards; the exact value is the last resort. -/
def searchGrids (tie : TieRule) (significand : Nat) (exponent : Int) : Nat → Int → Decimal
  | 0, _ =>
    if 0 ≤ exponent then ⟨significand * 2 ^ exponent.toNat, 0⟩
    else ⟨significand * 5 ^ (-exponent).toNat, exponent⟩
  | count + 1, decimal =>
    match gridPoint? tie significand exponent decimal with
    | some digits => ⟨digits, decimal⟩
    | none => searchGrids tie significand exponent count (decimal - 1)

/-- A power of ten at or above `significand · 2 ^ exponent`, estimated from the binary logarithm. -/
def topExponent (significand : Nat) (exponent : Int) : Int :=
  ((significand.log2 : Int) + 1 + exponent) * 30103 / 100000 + 1

/-- The fewest digits that read back to the positive double `significand · 2 ^ exponent`. -/
def shortest (tie : TieRule) (significand : Nat) (exponent : Int) : Decimal :=
  if significand = 0 then ⟨0, 0⟩
  else searchGrids tie significand exponent 24 (topExponent significand exponent)

end ScreenStudio.Number
