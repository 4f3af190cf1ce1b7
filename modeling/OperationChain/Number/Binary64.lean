/-! # Binary floating point numbers of 64 bits

A number is its word of 64 bits: a sign, an exponent field of eleven bits and a
fraction of 52. Its exact value, its order and the rounding of exact values to it
are computed on whole numbers, so every statement about them is one about
arithmetic. Words that differ are different numbers here, also zeros of either sign
and the many words that are not a number.
-/

namespace OperationChain

/-- A floating point number, given by its word. -/
structure Binary64 where
  bits : UInt64
  deriving DecidableEq

namespace Binary64

/-- The value of the sign bit. -/
def signBit : Nat := 0x8000000000000000

/-- The value of the lowest bit of the exponent field, one above the fraction. -/
def exponentUnit : Nat := 0x10000000000000

/-- Whether the sign bit is set. -/
def isNegative (x : Binary64) : Bool := signBit ≤ x.bits.toNat

/-- The word without its sign bit, which orders the numbers of one sign. -/
def magnitude (x : Binary64) : Nat := x.bits.toNat % signBit

def exponentField (x : Binary64) : Nat := x.magnitude / exponentUnit

def fraction (x : Binary64) : Nat := x.magnitude % exponentUnit

/-- The magnitude of the infinities; larger ones are not a number. -/
def infinite : Nat := 2047 * exponentUnit

def isNaN (x : Binary64) : Bool := infinite < x.magnitude

def isFinite (x : Binary64) : Bool := x.magnitude < infinite

/-- The whole number that a finite number is a multiple of a power of two of. -/
def significand (x : Binary64) : Nat :=
  if x.exponentField = 0 then x.fraction else exponentUnit + x.fraction

/-- The power of two that the significand counts. -/
def exponent (x : Binary64) : Int := (max x.exponentField 1 : Nat) - 1075

/-- The number with this sign and magnitude. -/
def ofMagnitude (negative : Bool) (magnitude : Nat) : Binary64 :=
  ⟨UInt64.ofNat (if negative then signBit + magnitude else magnitude)⟩

/-- A quotient rounded to the nearest whole number, and to the even one of two that
are equally near. -/
def roundDiv (num den : Nat) : Nat :=
  let quotient := num / den
  let twice := 2 * (num % den)
  if den < twice ∨ (twice = den ∧ quotient % 2 = 1) then quotient + 1 else quotient

/-- The quotient `num / den` counted in units of `2 ^ exponent`, rounded. -/
def roundAt (num den : Nat) (exponent : Int) : Nat :=
  if 0 ≤ exponent then roundDiv num (den * Nat.pow 2 exponent.toNat)
  else roundDiv (num * Nat.pow 2 (-exponent).toNat) den

/-- The exponent at which `num / den` has a significand of 53 bits, or the least
exponent there is. -/
def exponentFor (num den : Nat) : Int :=
  let guess : Int := (Nat.log2 num : Int) - Nat.log2 den - 52
  let short :=
    if 0 ≤ guess then num < den * Nat.pow 2 (guess.toNat + 52)
    else num * Nat.pow 2 (-guess).toNat < den * exponentUnit
  max (if short then guess - 1 else guess) (-1074)

/-- The number nearest to `num / den`, with an even significand where two are
equally near. Values beyond the largest finite number become infinite. -/
def ofRatio (negative : Bool) (num den : Nat) : Binary64 :=
  if num = 0 then ofMagnitude negative 0
  else
    let exponent := exponentFor num den
    let magnitude := (exponent + 1074).toNat * exponentUnit + roundAt num den exponent
    ofMagnitude negative (min magnitude infinite)

/-- The number nearest to a whole number. -/
def ofInt (n : Int) : Binary64 := ofRatio (n < 0) n.natAbs 1

/-- The number nearest to `digits * 10 ^ exponent`. -/
def ofDecimal (negative : Bool) (digits : Nat) (exponent : Int) : Binary64 :=
  let length : Int := (Nat.toDigits 10 digits).length
  if digits = 0 ∨ length + exponent < -330 then ofMagnitude negative 0
  else if 310 < length + exponent then ofMagnitude negative infinite
  else if 0 ≤ exponent then ofRatio negative (digits * Nat.pow 10 exponent.toNat) 1
  else ofRatio negative digits (Nat.pow 10 (-exponent).toNat)

/-- Numerator and denominator of the magnitude of a finite number. -/
def ratio (x : Binary64) : Nat × Nat :=
  if 0 ≤ x.exponent then (x.significand * Nat.pow 2 x.exponent.toNat, 1)
  else (x.significand, Nat.pow 2 (-x.exponent).toNat)

/-- The rounded product of two finite numbers. -/
def mul (x y : Binary64) : Binary64 :=
  ofRatio (x.isNegative != y.isNegative) (x.ratio.1 * y.ratio.1) (x.ratio.2 * y.ratio.2)

/-- The rounded quotient of two finite numbers, the second not zero. -/
def div (x y : Binary64) : Binary64 :=
  ofRatio (x.isNegative != y.isNegative) (x.ratio.1 * y.ratio.2) (x.ratio.2 * y.ratio.1)

/-- The number with the other sign. -/
def neg (x : Binary64) : Binary64 := ofMagnitude (!x.isNegative) x.magnitude

/-- The place of a number among all: a larger key is a larger number, and zeros of
either sign share one. -/
def orderKey (x : Binary64) : Int :=
  if x.isNegative then -(x.magnitude : Int) else x.magnitude

/-- The order of two numbers, which none has that is not a number. -/
def compare? (x y : Binary64) : Option Ordering :=
  if x.isNaN || y.isNaN then none else some (compare x.orderKey y.orderKey)

/-- Equality of numbers: zeros of either sign are equal, and what is not a number
equals nothing. -/
def equal (x y : Binary64) : Bool := x.compare? y == some .eq

/-- The whole number that a finite number without fraction is. -/
def toInt? (x : Binary64) : Option Int :=
  if !x.isFinite then none
  else if x.ratio.1 % x.ratio.2 = 0 then
    let n : Int := (x.ratio.1 / x.ratio.2 : Nat)
    some (if x.isNegative then -n else n)
  else none

end Binary64

end OperationChain
