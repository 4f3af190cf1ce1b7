import OperationChain.Number.Binary64
import OperationChain.Text.Numeral

/-! # Shortest decimal text of a floating point number

Among the decimals that read back as a given number, those with the fewest digits,
and of these the nearest. The digits come out as a whole number and a power of ten.
Which of two decimals that are equally near is taken, where the point stands, and
when a power of ten is written, is for the two layouts at the end.
-/

namespace OperationChain.Binary64

/-- A positive decimal `coefficient * 10 ^ exponent`. -/
structure Scaled where
  coefficient : Nat
  exponent : Int
  deriving DecidableEq, Repr

/-- The decimals `low` to `high` that round to one number, all over one denominator.
The bounds belong to them if `closed`. -/
structure Interval where
  low : Nat
  value : Nat
  high : Nat
  denominator : Nat
  closed : Bool

/-- The interval of decimals that round to a finite positive number. Below a power
of two the numbers lie twice as close. -/
def interval (x : Binary64) : Interval :=
  let below := if x.fraction = 0 ∧ 1 < x.exponentField then 1 else 2
  let closed := x.significand % 2 == 0
  let shift := x.exponent - 2
  let unit := Nat.pow 2 shift.toNat
  ⟨(4 * x.significand - below) * unit, 4 * x.significand * unit, (4 * x.significand + 2) * unit,
    Nat.pow 2 (-shift).toNat, closed⟩

/-- Orders the decimal `digits * 10 ^ exponent` against the fraction `num / den`. -/
def compareDecimal (digits : Nat) (exponent : Int) (num den : Nat) : Ordering :=
  compare (digits * Nat.pow 10 exponent.toNat * den) (num * Nat.pow 10 (-exponent).toNat)

/-- Whether a decimal rounds to the number of the interval. -/
def Interval.holds (i : Interval) (digits : Nat) (exponent : Int) : Bool :=
  let low := compareDecimal digits exponent i.low i.denominator
  let high := compareDecimal digits exponent i.high i.denominator
  if i.closed then low != .lt && high != .gt else low == .gt && high == .lt

/-- The power of ten at or below `num / den`. -/
def decimalExponent (num den : Nat) : Int :=
  if den ≤ num then (Nat.toDigits 10 (num / den)).length - 1
  else
    let length := (Nat.toDigits 10 (den / num)).length
    if num * Nat.pow 10 (length - 1) = den then 1 - (length : Int) else -(length : Int)

/-- Which of two decimals that are equally near to a value is taken. -/
inductive Tie where
  /-- The one with the even last digit. -/
  | even
  /-- The one further from zero. -/
  | away
  deriving DecidableEq, Repr

/-- Whether the upper of two equally near decimals is taken, the lower of which has
this coefficient. -/
def Tie.goesUp (tie : Tie) (lower : Nat) : Bool :=
  match tie with
  | .even => lower % 2 == 1
  | .away => true

/-- The nearer of the two decimals around the value on the grid of `10 ^ exponent`
that lies in the interval, if one does. -/
def Interval.nearest? (i : Interval) (tie : Tie) (exponent : Int) : Option Scaled :=
  let num := i.value * Nat.pow 10 (-exponent).toNat
  let den := i.denominator * Nat.pow 10 exponent.toNat
  let floor := num / den
  let twice := 2 * (num % den)
  let nearerUp := den < twice ∨ (den = twice ∧ tie.goesUp floor)
  let first := if nearerUp then floor + 1 else floor
  let second := if nearerUp then floor else floor + 1
  if i.holds first exponent then some ⟨first, exponent⟩
  else if i.holds second exponent then some ⟨second, exponent⟩
  else none

/-- Tries the grids of `count` more lengths, coarse ones first. -/
def Interval.search (i : Interval) (tie : Tie) (exponent : Int) : (count : Nat) → Scaled
  | 0 => ⟨i.value / i.denominator, 0⟩
  | count + 1 => (i.nearest? tie exponent).getD (i.search tie (exponent - 1) count)

/-- Moves the zeros at the end of the digits into the power of ten. At most `count`
are moved. -/
def Scaled.strip (d : Scaled) : (count : Nat) → Scaled
  | 0 => d
  | count + 1 =>
    if d.coefficient ≠ 0 ∧ d.coefficient % 10 = 0 then
      strip ⟨d.coefficient / 10, d.exponent + 1⟩ count
    else d

/-- The shortest decimal that rounds to a finite number other than zero, without its
sign. Seventeen digits are always enough. -/
def shortest (x : Binary64) (tie : Tie) : Scaled :=
  let i := x.interval
  (i.search tie (decimalExponent i.value i.denominator) 17).strip 17

/-- A number of zeros. -/
def zeros (n : Int) : List Char := List.replicate n.toNat '0'

/-- Digits with the point after the first `place` of them, filled up with zeros on
either side. -/
def placePoint (digits : List Char) (place : Int) : List Char :=
  if place ≤ 0 then '0' :: '.' :: (zeros (-place) ++ digits)
  else if digits.length ≤ place then digits ++ zeros (place - digits.length)
  else digits.take place.toNat ++ '.' :: digits.drop place.toNat

/-- Puts the sign of a number in front. -/
def withSign (x : Binary64) (cs : List Char) : String :=
  String.ofList (if x.isNegative then '-' :: cs else cs)

/-- A number standing alone: never a power of ten, no point in a whole number. Of
two shortest decimals that are equally near the one further from zero is taken. -/
def plainText (x : Binary64) : String :=
  if x.isNaN then "NaN"
  else if !x.isFinite then withSign x ['i', 'n', 'f']
  else if x.magnitude = 0 then withSign x ['0']
  else
    let d := x.shortest .away
    let digits := Numeral.ofNat d.coefficient
    withSign x (placePoint digits (digits.length + d.exponent))

/-- A finite number inside a document: whole numbers keep a zero after the point,
and a power of ten with its sign is written below `10 ^ -5` and from `10 ^ 16` on.
Of two shortest decimals that are equally near the even one is taken. -/
def documentText (x : Binary64) : String :=
  if x.magnitude = 0 then withSign x ['0', '.', '0']
  else
    let d := x.shortest .even
    let digits := Numeral.ofNat d.coefficient
    let place : Int := digits.length + d.exponent
    if -5 < place ∧ place ≤ 16 then
      let cs := placePoint digits place
      withSign x (if digits.length ≤ place then cs ++ ['.', '0'] else cs)
    else
      let mantissa := if digits.length ≤ 1 then digits else placePoint digits 1
      let power := place - 1
      let sign := if power < 0 then '-' else '+'
      withSign x (mantissa ++ 'e' :: sign :: Numeral.ofNat power.natAbs)

end OperationChain.Binary64
