import OperationChain.Json.Writer
import OperationChain.Text.Base64
import OperationChain.Value.Basic

/-! # Values as JSON and as text

Every JSON document is a value. Bytes travel as an object with the one key `$bytes`
and base 64 text; an object that only looks similar is an ordinary map. On the way
out bytes and decimals become plain texts, so reading back what was written need not
give the same value.
-/

namespace OperationChain.Value

/-- The key that marks bytes in a document. -/
def bytesKey : String := "$bytes"

/-- The bytes that the entries of an object stand for, if they are the mark of bytes. -/
def markedBytes? : List (String × Value) → Option Bytes
  | [(key, text encoded)] => if key = bytesKey then Base64.decode? encoded else none
  | _ => none

/-- The value of an object with these entries, of which the last counts under a
repeated key. -/
def ofMembers (entries : List (String × Value)) : Value :=
  let entries := Entries.ofList entries
  match markedBytes? entries with
  | some raw => bytes raw
  | none => map entries

mutual

/-- The value of a document. A whole number beyond the signed words is a floating
point number. -/
def ofJson : Json → Value
  | .null => null
  | .bool b => bool b
  | .integer n =>
    match Numeral.toInt64? n with
    | some word => int word
    | none => float (Binary64.ofInt n)
  | .float x => float x
  | .text s => text s
  | .array items => list (ofItems items)
  | .object members => ofMembers (ofEntryList members)

def ofItems : List Json → List Value
  | [] => []
  | item :: rest => ofJson item :: ofItems rest

def ofEntryList : List (String × Json) → List (String × Value)
  | [] => []
  | (key, json) :: rest => (key, ofJson json) :: ofEntryList rest

end

mutual

/-- The document of a value. A floating point value that is not finite has none and
becomes `null`. -/
def toJson : Value → Json
  | null => .null
  | bool b => .bool b
  | int n => .integer n.toInt
  | float x => if x.isFinite then .float x else .null
  | text s => .text s
  | bytes raw => .text (Base64.encode raw)
  | decimal d => .text d.text
  | list items => .array (toItems items)
  | map entries => .object (toMembers entries)

def toItems : List Value → List Json
  | [] => []
  | item :: rest => toJson item :: toItems rest

def toMembers : List (String × Value) → List (String × Json)
  | [] => []
  | (key, value) :: rest => (key, toJson value) :: toMembers rest

end

/-- A value as text for people: texts and numbers as they are, bytes in their UTF-8
reading, lists and maps as compact JSON. -/
def display : Value → String
  | null => "null"
  | bool true => "true"
  | bool false => "false"
  | int n => Numeral.ofInt n.toInt
  | float x => x.plainText
  | text s => s
  | bytes raw => Utf8.decodeLossy raw
  | decimal d => d.text
  | list items => (toJson (list items)).render
  | map entries => (toJson (map entries)).render

end OperationChain.Value
