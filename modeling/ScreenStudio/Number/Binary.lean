/- digest: Exact decoding of a double and rounding of a quotient to the nearest double. -/

set_option autoImplicit false
set_option relaxedAutoImplicit false

namespace ScreenStudio.Number

-- Powers are those of the core library, whatever other powers are in sight.
@[default_instance 10000]
instance (priority := 10000) powNat : Pow Nat Nat := instPowNat

@[default_instance 10000]
instance (priority := 10000) powInt : Pow Int Nat := instPowNat

/-- What the bits of a double stand for. A finite one is `significand · 2 ^ exponent`. -/
inductive Parts
  | nan
  | infinite (negative : Bool)
  | finite (negative : Bool) (significand : Nat) (exponent : Int)
  deriving DecidableEq, Repr

def leastExponent : Int := -1074

/-- Read the sign, significand and exponent off the bits. -/
def parts (x : Float) : Parts :=
  let bits : Nat := x.toBits.toNat
  let negative := decide (2 ^ 63 ≤ bits)
  let biased : Nat := bits / 2 ^ 52 % 2 ^ 11
  let fraction : Nat := bits % 2 ^ 52
  if biased = 2047 then if fraction = 0 then .infinite negative else .nan
  else if biased = 0 then .finite negative fraction leastExponent
  else .finite negative (2 ^ 52 + fraction) ((biased : Int) - 1075)

def nan : Float := Float.ofBits 0x7ff8000000000000

/-- Neither infinite nor the value that stands for no number. -/
def isFinite (x : Float) : Bool :=
  match parts x with
  | .finite .. => true
  | _ => false

/-- `numerator / denominator` divided by `2 ^ exponent`, as a quotient of naturals. -/
def scaleRatio (numerator denominator : Nat) (exponent : Int) : Nat × Nat :=
  if 0 ≤ exponent then (numerator, denominator * 2 ^ exponent.toNat)
  else (numerator * 2 ^ (-exponent).toNat, denominator)

/-- The natural nearest to a quotient; of two equally near ones the even one. -/
def roundHalfEven (numerator denominator : Nat) : Nat :=
  let quotient := numerator / denominator
  let twice := 2 * (numerator % denominator)
  if twice < denominator then quotient
  else if denominator < twice then quotient + 1
  else quotient + quotient % 2

/-- The exponent at which the quotient has a significand of 53 bits, or the least one. -/
def ratioExponent (numerator denominator : Nat) : Int :=
  let guess : Int := (numerator.log2 : Int) - (denominator.log2 : Int) - 53
  let scaled := scaleRatio numerator denominator guess
  max leastExponent (if scaled.1 / scaled.2 < 2 ^ 53 then guess else guess + 1)

/-- The magnitude bits of the double nearest to a quotient. -/
def ratioBits (numerator denominator : Nat) : Nat :=
  if numerator = 0 then 0
  else
    let exponent := ratioExponent numerator denominator
    let scaled := scaleRatio numerator denominator exponent
    min (roundHalfEven scaled.1 scaled.2 + (exponent - leastExponent).toNat * 2 ^ 52)
      (2047 * 2 ^ 52)

/-- The double with the given sign and magnitude bits. -/
def ofSignedBits (negative : Bool) (magnitude : Nat) : Float :=
  Float.ofBits (UInt64.ofNat (magnitude + if negative then 2 ^ 63 else 0))

/-- The double nearest to a quotient of naturals with a sign. -/
def ofRatio (negative : Bool) (numerator denominator : Nat) : Float :=
  ofSignedBits negative (ratioBits numerator denominator)

def ofInt (value : Int) : Float := ofRatio (decide (value < 0)) value.natAbs 1

/-- `significand · 2 ^ exponent` as a double. -/
def ofScaled (negative : Bool) (significand : Nat) (exponent : Int) : Float :=
  if 0 ≤ exponent then ofRatio negative (significand * 2 ^ exponent.toNat) 1
  else ofRatio negative significand (2 ^ (-exponent).toNat)

/-- The double nearest to `digits · 10 ^ exponent`. Exponents that put the value past every double,
or below half of the least one, are settled without building the power. -/
def ofDecimal (negative : Bool) (digits : Nat) (exponent : Int) : Float :=
  if digits = 0 then ofSignedBits negative 0
  else if 310 < exponent then ofSignedBits negative (2047 * 2 ^ 52)
  else if exponent + (digits.log2 : Int) + 1 < -330 then ofSignedBits negative 0
  else if 0 ≤ exponent then ofRatio negative (digits * 10 ^ exponent.toNat) 1
  else ofRatio negative digits (10 ^ (-exponent).toNat)

/-- The integer that a double equals, if it equals one. -/
def toInt? (x : Float) : Option Int :=
  let signed (negative : Bool) (magnitude : Nat) : Int :=
    if negative then -(magnitude : Int) else (magnitude : Int)
  match parts x with
  | .finite negative significand exponent =>
    if 0 ≤ exponent then some (signed negative (significand * 2 ^ exponent.toNat))
    else
      let unit := 2 ^ (-exponent).toNat
      if significand % unit = 0 then some (signed negative (significand / unit)) else none
  | _ => none

/-- The remainder of a division that truncates: it has the sign of the dividend and is exact. -/
def remainder (dividend divisor : Float) : Float :=
  match parts dividend, parts divisor with
  | .finite negative left leftExponent, .finite _ right rightExponent =>
    if right = 0 then nan
    else
      let exponent := min leftExponent rightExponent
      let leftUnits := left * 2 ^ (leftExponent - exponent).toNat
      let rightUnits := right * 2 ^ (rightExponent - exponent).toNat
      ofScaled negative (leftUnits % rightUnits) exponent
  | .finite .., .infinite _ => dividend
  | _, _ => nan

end ScreenStudio.Number
