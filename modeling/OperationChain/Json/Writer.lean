import OperationChain.Json.Basic
import OperationChain.Number.Shortest

/-! # Compact JSON text

A document as text without any blank between its parts. In a string only the quote,
the backslash and the controls below U+0020 are escaped.
-/

namespace OperationChain.Json

/-- Four hexadecimal digits, in lower case. -/
def hex4 (n : Nat) : List Char :=
  let digit (i : Nat) : Char := Nat.digitChar (n / Nat.pow 16 i % 16)
  [digit 3, digit 2, digit 1, digit 0]

/-- A character as it stands in a string. -/
def escape (c : Char) : List Char :=
  if c == '"' then ['\\', '"']
  else if c == '\\' then ['\\', '\\']
  else if c.toNat == 8 then ['\\', 'b']
  else if c == '\t' then ['\\', 't']
  else if c == '\n' then ['\\', 'n']
  else if c.toNat == 12 then ['\\', 'f']
  else if c == '\r' then ['\\', 'r']
  else if c.toNat < 0x20 then '\\' :: 'u' :: hex4 c.toNat
  else [c]

/-- A text in quotes. -/
def quote (s : String) : List Char := '"' :: (s.toList.flatMap escape ++ ['"'])

mutual

/-- The characters of a document. A number that is not finite has no JSON form and
is written `null`. -/
def chars : Json → List Char
  | null => "null".toList
  | bool true => "true".toList
  | bool false => "false".toList
  | integer n => (Numeral.ofInt n).toList
  | float x => if x.isFinite then x.documentText.toList else "null".toList
  | text s => quote s
  | array items => '[' :: (itemChars items ++ [']'])
  | object members => '\x7b' :: (memberChars members ++ ['\x7d'])

def itemChars : List Json → List Char
  | [] => []
  | [item] => chars item
  | item :: rest => chars item ++ ',' :: itemChars rest

def memberChars : List (String × Json) → List Char
  | [] => []
  | [(key, value)] => quote key ++ ':' :: chars value
  | (key, value) :: rest => quote key ++ ':' :: chars value ++ ',' :: memberChars rest

end

/-- The compact text of a document. -/
def render (json : Json) : String := String.ofList json.chars

end OperationChain.Json
