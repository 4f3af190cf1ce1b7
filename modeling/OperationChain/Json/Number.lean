import OperationChain.Json.Basic
import OperationChain.Text.Numeral

/-! # Reading numbers in JSON text

A number without fraction and exponent stays a whole number while it fits a word of
64 bits. Every other number becomes a floating point number in two steps: its
digits, as far as they fit an unsigned word, are rounded once, and the result is
multiplied or divided once by a power of ten. The last bit can therefore differ from
that of the nearest number.
-/

namespace OperationChain.Json

/-- A number as written: the digits before the point, those after it if there is
one, and the exponent if there is one. -/
structure NumberText where
  negative : Bool
  whole : List Char
  fraction : Option (List Char)
  exponent : Option Int

/-- Digits gathered into a word of 64 bits, and the power of ten that they count. -/
structure Significand where
  word : Nat
  exponent : Int

/-- The word with one more digit, if it still fits. -/
def Significand.push? (word : Nat) (c : Char) : Option Nat :=
  let next := word * 10 + (c.toNat - '0'.toNat)
  if next < UInt64.size then some next else none

/-- Takes digits before the point while they fit. From the first that does not, each
counts as a power of ten. -/
def Significand.whole (word : Nat) : List Char → Significand
  | [] => ⟨word, 0⟩
  | c :: rest =>
    match push? word c with
    | some next => whole next rest
    | none => ⟨word, (c :: rest).length⟩

/-- Takes digits after the point while they fit, and drops the others. -/
def Significand.fraction (s : Significand) : List Char → Significand
  | [] => s
  | c :: rest =>
    match push? s.word c with
    | some next => fraction ⟨next, s.exponent - 1⟩ rest
    | none => s

/-- A power of ten up to `10 ^ 308` as a floating point number. -/
def powerOfTen (n : Nat) : Binary64 := Binary64.ofDecimal false 1 n

/-- A finite number times a power of ten, in at most two roundings; `none` beyond
the finite numbers. -/
def scale? (x : Binary64) (exponent : Int) : Option Binary64 :=
  if x.magnitude = 0 then some x
  else if 308 < exponent then none
  else if 0 ≤ exponent then
    let y := x.mul (powerOfTen exponent.toNat)
    if y.isFinite then some y else none
  else if -308 ≤ exponent then some (x.div (powerOfTen (-exponent).toNat))
  else if -616 ≤ exponent then
    some ((x.div (powerOfTen 308)).div (powerOfTen (-(exponent + 308)).toNat))
  else some (.ofMagnitude x.isNegative 0)

/-- The floating point number that a number text denotes; `none` beyond the finite
numbers. -/
def NumberText.float? (t : NumberText) : Option Binary64 :=
  let s := (Significand.whole 0 t.whole).fraction (t.fraction.getD [])
  (scale? (.ofInt s.word) (s.exponent + t.exponent.getD 0)).map fun x =>
    if t.negative then x.neg else x

/-- The document that a number text denotes. A zero with a minus sign is a floating
point number. -/
def NumberText.value? (t : NumberText) : Option Json :=
  match t.fraction, t.exponent, Numeral.nat? t.whole with
  | none, none, some n =>
    if t.negative then
      if 0 < n ∧ n ≤ 0x8000000000000000 then some (.integer (-(n : Int))) else t.float?.map .float
    else if n < UInt64.size then some (.integer n)
    else t.float?.map .float
  | _, _, _ => t.float?.map .float

end OperationChain.Json
