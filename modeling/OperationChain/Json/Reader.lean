import OperationChain.Json.Number

/-! # Reading JSON text

The grammar of JSON without extensions: one document between blanks, no repeated or
missing separators, no raw controls in strings, surrogates only in pairs. Arrays and
objects nest at most 127 deep, and a number beyond the finite floating point numbers
is refused. A document that is passed over only has to follow the grammar: its
depth, the size of its numbers and the surrogates in its strings do not matter.

Readers go through a text once and stop at the first fault, which is either one
against the grammar or a document that is not of the wanted kind.
-/

namespace OperationChain.Json

/-- Drops the blanks that JSON allows between its parts. -/
def skipBlanks (cs : List Char) : List Char :=
  cs.dropWhile fun c => c == ' ' || c == '\t' || c == '\n' || c == '\r'

/-- The value of a hexadecimal digit. -/
def hexDigit? (c : Char) : Option Nat :=
  if '0' ≤ c && c ≤ '9' then some (c.toNat - 48)
  else if 'a' ≤ c && c ≤ 'f' then some (c.toNat - 87)
  else if 'A' ≤ c && c ≤ 'F' then some (c.toNat - 55)
  else none

/-- The value of four hexadecimal digits. -/
def hexWord? (a b c d : Char) : Option Nat := do
  some ((((← hexDigit? a) * 16 + (← hexDigit? b)) * 16 + (← hexDigit? c)) * 16 + (← hexDigit? d))

/-- The character that a backslash and one more character stand for. -/
def escaped? : Char → Option Char
  | '"' => some '"'
  | '\\' => some '\\'
  | '/' => some '/'
  | 'b' => some (Char.ofNat 8)
  | 'f' => some (Char.ofNat 12)
  | 'n' => some '\n'
  | 'r' => some '\r'
  | 't' => some '\t'
  | _ => none

/-- The character of one `\u` escape, which must not be half of a pair. -/
def scalar? (word : Nat) : Option Char :=
  if 0xD800 ≤ word && word < 0xE000 then none else some (Char.ofNat word)

/-- The character of two `\u` escapes, the first and second half of a pair. -/
def pair? (high low : Nat) : Option Char :=
  if 0xD800 ≤ high && high < 0xDC00 && 0xDC00 ≤ low && low < 0xE000 then
    some (Char.ofNat (0x10000 + (high - 0xD800) * 0x400 + (low - 0xDC00)))
  else none

/-- The characters of a string after its opening quote, and what follows its closing
one. -/
def stringChars : List Char → Option (List Char × List Char)
  | [] => none
  | '"' :: rest => some ([], rest)
  | '\\' :: 'u' :: a :: b :: c :: d :: '\\' :: 'u' :: e :: f :: g :: h :: rest => do
    let first ← hexWord? a b c d
    match scalar? first with
    | some char =>
      let (chars, after) ← stringChars ('\\' :: 'u' :: e :: f :: g :: h :: rest)
      some (char :: chars, after)
    | none =>
      let char ← pair? first (← hexWord? e f g h)
      let (chars, after) ← stringChars rest
      some (char :: chars, after)
  | '\\' :: 'u' :: a :: b :: c :: d :: rest => do
    let char ← scalar? (← hexWord? a b c d)
    let (chars, after) ← stringChars rest
    some (char :: chars, after)
  | '\\' :: c :: rest => do
    let char ← escaped? c
    let (chars, after) ← stringChars rest
    some (char :: chars, after)
  | c :: rest =>
    if c.toNat < 0x20 then none
    else do
      let (chars, after) ← stringChars rest
      some (c :: chars, after)

/-- The text of a string after its opening quote. -/
def string (cs : List Char) : Option (String × List Char) :=
  (stringChars cs).map fun (chars, after) => (String.ofList chars, after)

private def isDigit (c : Char) : Bool := '0' ≤ c && c ≤ '9'

/-- Digits after a point. -/
def fractionPart : List Char → Option (Option (List Char) × List Char)
  | '.' :: rest =>
    match rest.takeWhile isDigit with
    | [] => none
    | digits => some (some digits, rest.dropWhile isDigit)
  | cs => some (none, cs)

/-- Digits after the mark of an exponent and at most one sign. -/
def exponentPart : List Char → Option (Option Int × List Char)
  | c :: rest =>
    if c == 'e' || c == 'E' then
      let (negative, digits) := match rest with
        | '-' :: more => (true, more)
        | '+' :: more => (false, more)
        | more => (false, more)
      (Numeral.nat? (digits.takeWhile isDigit)).map fun n =>
        (some (if negative then -(n : Int) else n), digits.dropWhile isDigit)
    else some (none, c :: rest)
  | [] => some (none, [])

/-- The text of a number. Its digits before the point do not start with a zero,
unless it is the only one. -/
def numberText (cs : List Char) : Option (NumberText × List Char) := do
  let (negative, cs) := match cs with
    | '-' :: rest => (true, rest)
    | rest => (false, rest)
  let whole := cs.takeWhile isDigit
  guard (whole ≠ [] ∧ (whole.head? ≠ some '0' ∨ whole.length = 1))
  let (fraction, cs) ← fractionPart (cs.dropWhile isDigit)
  let (exponent, cs) ← exponentPart cs
  some (⟨negative, whole, fraction, exponent⟩, cs)

/-- A number. -/
def number (cs : List Char) : Option (Json × List Char) := do
  let (found, after) ← numberText cs
  some (← found.value?, after)

/-- Why a text is not read. -/
inductive Fault where
  /-- The text does not follow the grammar. -/
  | broken
  /-- What was read so far is not what is wanted. -/
  | unfit
  deriving DecidableEq, Repr

/-- A reader of one part of a text, which gives the part and what follows it. -/
abbrev Part (α : Type) := List Char → Except Fault (α × List Char)

/-- What was found by the grammar alone. -/
def lexeme {α : Type} : Option (α × List Char) → Except Fault (α × List Char)
  | some found => .ok found
  | none => .error .broken

/-- One or more parts with commas between them, up to the bracket that closes them.
A part may depend on those `earlier`, of which the last comes first. -/
def separated {α : Type} (part : List α → Part α) (close : Char) (earlier : List α)
    (cs : List Char) : Except Fault (List α × List Char) := do
  let (found, after) ← part earlier cs
  match skipBlanks after with
  | ',' :: rest =>
    if rest.length < cs.length then separated part close (found :: earlier) (skipBlanks rest)
    else throw .broken
  | c :: rest => if c == close then return ((found :: earlier).reverse, rest) else throw .broken
  | [] => throw .broken
termination_by cs.length
decreasing_by
  exact Nat.lt_of_le_of_lt (List.dropWhile_sublist _).length_le (by assumption)

/-- No part at all, or one or more of them, up to the bracket that closes them. -/
def bracketed {α : Type} (part : List α → Part α) (close : Char) (cs : List Char) :
    Except Fault (List α × List Char) :=
  match skipBlanks cs with
  | [] => .error .broken
  | c :: rest => if c == close then .ok ([], rest) else separated part close [] (c :: rest)

/-- One member of an object. Its key says how its value is read, or that it is not. -/
def member {α : Type} (value : String → Except Fault (Part α)) : Part (String × α)
  | '"' :: cs => do
    let (key, after) ← lexeme (string cs)
    let read ← value key
    match skipBlanks after with
    | ':' :: rest =>
      let (found, after) ← read (skipBlanks rest)
      return ((key, found), after)
    | _ => throw .broken
  | _ => .error .broken

/-- A document that starts here and nests at most `depth` deep. -/
def value : (depth : Nat) → Part Json
  | _, 'n' :: 'u' :: 'l' :: 'l' :: rest => .ok (null, rest)
  | _, 't' :: 'r' :: 'u' :: 'e' :: rest => .ok (bool true, rest)
  | _, 'f' :: 'a' :: 'l' :: 's' :: 'e' :: rest => .ok (bool false, rest)
  | _, '"' :: rest => lexeme ((string rest).map fun (s, after) => (text s, after))
  | depth + 1, '[' :: rest =>
    (bracketed (fun _ => value depth) ']' rest).map fun (items, after) => (array items, after)
  | depth + 1, '\x7b' :: rest =>
    (bracketed (fun _ => member fun _ => .ok (value depth)) '\x7d' rest).map fun (members, after) =>
      (object members, after)
  | _, cs => lexeme (number cs)

/-- How deep arrays and objects may nest. -/
def nestingLimit : Nat := 127

/-- Reads a document that fits, and nests at most `depth` deep. It cannot be an
array, and an object only where one is wanted: these do not fit from their bracket
on, whatever they hold. -/
def fitting (objects : Bool) (fits : Json → Bool) (depth : Nat) : Part Json := fun cs => do
  match cs with
  | '[' :: _ => throw .unfit
  | '\x7b' :: _ => if !objects then throw .unfit
  | _ => pure ()
  let (json, after) ← value depth cs
  if fits json then return (json, after) else throw .unfit

/-- Reads what is no document of the wanted kind. A bracket tells at once, anything
else when it was read. -/
def unfitting {α : Type} (depth : Nat) : Part α := fun cs => do
  let _ ← fitting false (fun _ => false) depth cs
  throw .unfit

/-! ## Passing over -/

/-- What follows a string after its opening quote. -/
def afterString : List Char → Option (List Char)
  | [] => none
  | '"' :: rest => some rest
  | '\\' :: 'u' :: a :: b :: c :: d :: rest => do
    let _ ← hexWord? a b c d
    afterString rest
  | '\\' :: c :: rest => do
    let _ ← escaped? c
    afterString rest
  | c :: rest => if c.toNat < 0x20 then none else afterString rest

/-- Passes over the key and the colon of a member, and reads its value. -/
def passedMember (value : Part Unit) : Part Unit
  | '"' :: cs =>
    match (afterString cs).map skipBlanks with
    | some (':' :: rest) => value (skipBlanks rest)
    | _ => .error .broken
  | _ => .error .broken

/-- Passes over a document that nests at most `depth` deep. -/
def passedWithin : (depth : Nat) → Part Unit
  | _, 'n' :: 'u' :: 'l' :: 'l' :: rest => .ok ((), rest)
  | _, 't' :: 'r' :: 'u' :: 'e' :: rest => .ok ((), rest)
  | _, 'f' :: 'a' :: 'l' :: 's' :: 'e' :: rest => .ok ((), rest)
  | _, '"' :: rest => lexeme ((afterString rest).map fun after => ((), after))
  | depth + 1, '[' :: rest =>
    (bracketed (fun _ => passedWithin depth) ']' rest).map fun (_, after) => ((), after)
  | depth + 1, '\x7b' :: rest =>
    (bracketed (fun _ => passedMember (passedWithin depth)) '\x7d' rest).map
      fun (_, after) => ((), after)
  | _, cs => lexeme ((numberText cs).map fun (_, after) => ((), after))

/-- Passes over a document, which nests less deep than its text is long. -/
def passed : Part Unit := fun cs => passedWithin cs.length cs

/-! ## Whole texts -/

/-- What a text holds between blanks, if it holds nothing else. -/
def whole? {α : Type} (part : Part α) (s : String) : Option α :=
  match part (skipBlanks s.toList) with
  | .ok (found, after) => if (skipBlanks after).isEmpty then some found else none
  | .error _ => none

/-- The document that a text holds, if it holds one and nothing else. -/
def parse? (s : String) : Option Json := whole? (value nestingLimit) s

end OperationChain.Json
