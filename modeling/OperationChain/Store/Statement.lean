import OperationChain.Error
import OperationChain.Text.Blank
import OperationChain.Text.Digit

/-! # Query statements

The one statement that stores answer: `select * from` a table, perhaps of a named
keyspace, perhaps with a limit. Letters are compared without case, where the long s
counts as an s and the Kelvin sign as a k.
-/

namespace OperationChain

/-- What a statement asks for. -/
structure Select where
  keyspace : Option String
  table : String
  limit : Option Nat
  deriving DecidableEq, Repr

namespace Select

/-- Whether a character is a letter of ASCII, in its wider sense without case. -/
def isLetter (c : Char) : Bool :=
  ('a' ≤ c && c ≤ 'z') || ('A' ≤ c && c ≤ 'Z') || c.toNat == 0x17F || c.toNat == 0x212A

/-- Whether a name can start with a character. -/
def startsName (c : Char) : Bool := isLetter c || c == '_'

/-- Whether a name can go on with a character. -/
def continuesName (c : Char) : Bool := startsName c || ('0' ≤ c && c ≤ '9')

/-- Whether a character is a small letter, without case. -/
def isSameLetter (small c : Char) : Bool :=
  c.toLower == small || (small == 's' && c.toNat == 0x17F) || (small == 'k' && c.toNat == 0x212A)

/-- What follows a word that is written in small letters here. -/
def afterWord? : (word : List Char) → List Char → Option (List Char)
  | [], cs => some cs
  | _ :: _, [] => none
  | small :: word, c :: rest => if isSameLetter small c then afterWord? word rest else none

/-- What follows one or more blanks. -/
def afterBlanks? : List Char → Option (List Char)
  | [] => none
  | c :: rest => if Text.isBlank c then some (Text.trimLeft rest) else none

/-- The name that starts here, and what follows it. -/
def name? : List Char → Option (List Char × List Char)
  | [] => none
  | c :: rest =>
    if startsName c then some (c :: rest.takeWhile continuesName, rest.dropWhile continuesName)
    else none

/-- The table that is named here, perhaps after its keyspace and a point, and what
follows it. -/
def target? (cs : List Char) : Option (Option (List Char) × List Char × List Char) := do
  let (first, after) ← name? cs
  match after with
  | '.' :: rest =>
    let (second, after) ← name? rest
    some (some first, second, after)
  | _ => some (none, first, after)

/-- The digits of a limit, and what follows them. -/
def limit? (cs : List Char) : Option (List Char × List Char) := do
  let cs ← afterWord? ['l', 'i', 'm', 'i', 't'] (← afterBlanks? cs)
  let cs ← afterBlanks? cs
  match cs.takeWhile Text.isDecimalDigit with
  | [] => none
  | digits => some (digits, cs.dropWhile Text.isDecimalDigit)

/-- Whether a statement can end here: at most a semicolon between blanks. -/
def isEnd (cs : List Char) : Bool :=
  match Text.trimLeft cs with
  | [] => true
  | ';' :: rest => (Text.trimLeft rest).isEmpty
  | _ => false

/-- The parts of a statement: keyspace, table and digits of the limit. -/
def parts? (cs : List Char) : Option (Option (List Char) × List Char × Option (List Char)) := do
  let cs ← afterWord? ['s', 'e', 'l', 'e', 'c', 't'] (Text.trimLeft cs)
  let cs ← afterWord? ['*'] (← afterBlanks? cs)
  let cs ← afterWord? ['f', 'r', 'o', 'm'] (← afterBlanks? cs)
  let (keyspace, table, cs) ← target? (← afterBlanks? cs)
  match limit? cs with
  | some (digits, cs) => if isEnd cs then some (keyspace, table, some digits) else none
  | none => if isEnd cs then some (keyspace, table, none) else none

/-- What a statement asks for under a version of the protocol. A limit has to be
written in ASCII digits and to fit an unsigned word of 64 bits. -/
def parse (statement version : String) : Except Error Select :=
  if version.toList.head? = some '2' ∨ version.toList.head? = some '3' then
    match parts? statement.toList with
    | none => .error (.store (.unsupportedStatement statement))
    | some (keyspace, table, none) =>
      .ok ⟨keyspace.map String.ofList, String.ofList table, none⟩
    | some (keyspace, table, some digits) =>
      match Numeral.nat? digits with
      | some n =>
        if n < UInt64.size then .ok ⟨keyspace.map String.ofList, String.ofList table, some n⟩
        else .error (.store (.statementLimit statement))
      | none => .error (.store (.statementLimit statement))
  else .error (.store (.unsupportedVersion version))

/-- The keyspace that a statement reads: the one it names, or else the one that is
given. -/
def keyspaceOr (select : Select) (given : Option String) (statement : String) :
    Except Error String :=
  match select.keyspace, given with
  | some keyspace, _ => .ok keyspace
  | none, some keyspace => .ok keyspace
  | none, none => .error (.store (.statementKeyspace statement))

end Select

end OperationChain
