/-! # Numerals

Whole numbers in decimal: how they are written, and the reading that takes ASCII
digits after at most one sign and nothing else.
-/

namespace OperationChain.Numeral

/-- The digit that a character stands for in ASCII. -/
def digit? (c : Char) : Option Nat :=
  if '0' ≤ c && c ≤ '9' then some (c.toNat - '0'.toNat) else none

/-- The number that digits denote after those that gave `value`; any other character
spoils it. -/
def natAfter? (value : Nat) : List Char → Option Nat
  | [] => some value
  | c :: rest => (digit? c).bind fun d => natAfter? (value * 10 + d) rest

/-- The number denoted by one or more digits. -/
def nat? : List Char → Option Nat
  | [] => none
  | cs => natAfter? 0 cs

/-- The number denoted by one or more digits after at most one sign. -/
def int? : List Char → Option Int
  | '-' :: rest => (nat? rest).map fun n => -(n : Int)
  | '+' :: rest => (nat? rest).map fun n => (n : Int)
  | cs => (nat? cs).map fun n => (n : Int)

/-- A number that digits denote after at most a plus sign. -/
def unsigned? : List Char → Option Nat
  | '+' :: rest => nat? rest
  | cs => nat? cs

/-- The word of 64 bits with this value, if the value is in its range. -/
def toInt64? (n : Int) : Option Int64 :=
  if -0x8000000000000000 ≤ n ∧ n < 0x8000000000000000 then some (Int64.ofInt n) else none

/-- The unsigned word of 64 bits with this value, if the value is in its range. -/
def toUInt64? (n : Int) : Option UInt64 :=
  if 0 ≤ n ∧ n < 0x10000000000000000 then some (UInt64.ofNat n.toNat) else none

/-- The unsigned word of 32 bits with this value, if the value is in its range. -/
def toUInt32? (n : Int) : Option UInt32 :=
  if 0 ≤ n ∧ n < 0x100000000 then some (UInt32.ofNat n.toNat) else none

/-- The word of 64 bits that a text denotes, without blanks. -/
def int64? (s : String) : Option Int64 := (int? s.toList).bind toInt64?

/-- The digits of a natural number. -/
def ofNat (n : Nat) : List Char := Nat.toDigits 10 n

/-- A whole number in decimal, with a sign if it is negative. -/
def ofInt (n : Int) : String :=
  String.ofList (if n < 0 then '-' :: ofNat n.natAbs else ofNat n.natAbs)

end OperationChain.Numeral
