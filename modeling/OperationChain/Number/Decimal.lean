import OperationChain.Number.Binary64
import OperationChain.Text.Numeral

/-! # Decimal numbers of any size

A decimal is a whole number and the number of its digits that stand after the point;
a negative scale adds zeros. Reading accepts an exponent, a point anywhere among the
digits and underscores between them. Writing keeps the scale, so `1.50` stays
`1.50`, except that very small and very large numbers are written with a power of
ten and that zero is always `0`.
-/

namespace OperationChain

/-- The number `unscaled / 10 ^ scale`. -/
structure Decimal where
  unscaled : Int
  scale : Int
  deriving DecidableEq, Repr

namespace Decimal

/-- A whole number as a decimal. -/
def ofInt (n : Int) : Decimal := ⟨n, 0⟩

/-- Digits, where an underscore after the first of them is passed over. -/
def digits? : List Char → Option Nat
  | [] => none
  | '_' :: _ => none
  | cs => Numeral.natAfter? 0 (cs.filter (· != '_'))

/-- Digits after at most one sign. -/
def unscaled? : List Char → Option Int
  | '-' :: rest => (digits? rest).map fun n => -(n : Int)
  | '+' :: rest => (digits? rest).map fun n => (n : Int)
  | cs => (digits? cs).map fun n => (n : Int)

/-- The exponent part of a numeral: a plain whole number of 128 bits. -/
def exponent? (cs : List Char) : Option Int :=
  (Numeral.int? cs).filter fun n =>
    -0x80000000000000000000000000000000 ≤ n && n < 0x80000000000000000000000000000000

/-- Digits around the first point, and how many stand after it. A point at the end
counts for nothing. -/
def splitPoint (base : List Char) : List Char × Int :=
  match base.dropWhile (· != '.') with
  | '.' :: after =>
    (base.takeWhile (· != '.') ++ after, (after.filter (· != '_')).length)
  | _ => (base, 0)

/-- The decimal that characters denote. The scale has to be a word of 64 bits. -/
def ofChars? (cs : List Char) : Option Decimal :=
  let isMark (c : Char) : Bool := c == 'e' || c == 'E'
  let base := cs.takeWhile fun c => !isMark c
  let exponent := match cs.dropWhile fun c => !isMark c with
    | [] => some 0
    | _ :: rest => exponent? rest
  let (digits, places) := splitPoint base
  do
    let scale := places - (← exponent)
    let unscaled ← unscaled? digits
    if (Numeral.toInt64? scale).isSome then some ⟨unscaled, scale⟩ else none

/-- The decimal that a text denotes. -/
def parse? (s : String) : Option Decimal := ofChars? s.toList

/-- A decimal without its sign: `digits` with `scale` of them after the point. -/
def magnitudeChars (digits : List Char) (scale : Int) : List Char :=
  let length : Int := digits.length
  if 5 < scale - length then
    let power := scale - length + 1
    let mantissa := match digits with
      | first :: second :: rest => first :: '.' :: second :: rest
      | short => short
    mantissa ++ 'E' :: '-' :: Numeral.ofNat power.toNat
  else if 15 < -scale then digits ++ 'e' :: '+' :: Numeral.ofNat (-scale).toNat
  else if scale ≤ 0 then digits ++ List.replicate (-scale).toNat '0'
  else if length ≤ scale then '0' :: '.' :: (List.replicate (scale - length).toNat '0' ++ digits)
  else
    let whole := (length - scale).toNat
    digits.take whole ++ '.' :: digits.drop whole

/-- The text of a decimal. -/
def text (d : Decimal) : String :=
  let scale := if d.unscaled = 0 then 0 else d.scale
  let cs := magnitudeChars (Numeral.ofNat d.unscaled.natAbs) scale
  String.ofList (if d.unscaled < 0 then '-' :: cs else cs)

/-- The floating point number nearest to a decimal. -/
def toBinary64 (d : Decimal) : Binary64 :=
  Binary64.ofDecimal (d.unscaled < 0) d.unscaled.natAbs (-d.scale)

/-- Takes up to `count` zeros from the end of the digits. -/
def strip (d : Decimal) : (count : Nat) → Decimal
  | 0 => d
  | count + 1 =>
    if d.unscaled % 10 = 0 then strip ⟨d.unscaled / 10, d.scale - 1⟩ count else d

/-- The one form of a number that all decimals of that value share: no zero at the
end of the digits. -/
def normal (d : Decimal) : Decimal :=
  if d.unscaled = 0 then ⟨0, 0⟩ else d.strip (Numeral.ofNat d.unscaled.natAbs).length

/-- Whether two decimals are one number, whatever their scales. -/
def equal (a b : Decimal) : Bool := a.normal == b.normal

end Decimal

end OperationChain
