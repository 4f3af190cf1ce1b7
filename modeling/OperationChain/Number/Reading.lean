import OperationChain.Number.Binary64
import OperationChain.Text.Numeral

/-! # Reading floating point numbers

The reading of a whole text as a floating point number: digits with at most one
point among or around them, an exponent, and at most one sign in front. Infinities
and the number that is none have names. The result is the number nearest to the
decimal that was written.
-/

namespace OperationChain.Binary64

/-- Digits with at most one point, which may come first or last, and how many of
them follow it. -/
def digitsWithPoint? (cs : List Char) : Option (Nat × Nat) :=
  let isDigit (c : Char) : Bool := (Numeral.digit? c).isSome
  let whole := cs.takeWhile isDigit
  match cs.dropWhile isDigit with
  | [] => (Numeral.nat? whole).map fun n => (n, 0)
  | '.' :: places => (Numeral.nat? (whole ++ places)).map fun n => (n, places.length)
  | _ => none

/-- The number that characters without a sign denote, with a sign that was read
before. -/
def unsigned? (negative : Bool) (cs : List Char) : Option Binary64 :=
  let isMark (c : Char) : Bool := c == 'e' || c == 'E'
  match String.ofList (cs.map Char.toLower) with
  | "inf" => some (ofMagnitude negative infinite)
  | "infinity" => some (ofMagnitude negative infinite)
  | "nan" => some (ofMagnitude negative (infinite + 0x8000000000000))
  | _ => do
    let (digits, places) ← digitsWithPoint? (cs.takeWhile fun c => !isMark c)
    let exponent ← match cs.dropWhile fun c => !isMark c with
      | [] => some 0
      | _ :: rest => Numeral.int? rest
    some (ofDecimal negative digits (exponent - places))

/-- The floating point number that a text denotes. -/
def ofText? (s : String) : Option Binary64 :=
  match s.toList with
  | '-' :: rest => unsigned? true rest
  | '+' :: rest => unsigned? false rest
  | cs => unsigned? false cs

/-- The nearest whole number to a finite number; of two that are equally near the
one further from zero. -/
def roundAway (x : Binary64) : Int :=
  let n : Int := ((2 * x.ratio.1 + x.ratio.2) / (2 * x.ratio.2) : Nat)
  if x.isNegative then -n else n

end OperationChain.Binary64
