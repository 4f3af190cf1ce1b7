import OperationChain.Error
import OperationChain.Text.Blank
import OperationChain.Text.Utf8

/-! # Encoding values

How a value becomes the bytes of a column name, a value or a row key, and how bytes
are read, under an assumed type or under none. Nothing but text and bytes has an
empty encoding, except null, which has no other.
-/

namespace OperationChain

/-- The eight bytes of a word, the most significant first. -/
def Bytes.ofUInt64 (word : UInt64) : Bytes :=
  [word >>> 56, word >>> 48, word >>> 40, word >>> 32, word >>> 24, word >>> 16, word >>> 8,
    word].map
    (·.toUInt8)

/-- The word that eight bytes hold. -/
def Bytes.toUInt64? : Bytes → Option UInt64
  | [a, b, c, d, e, f, g, h] =>
    some ([a, b, c, d, e, f, g, h].foldl (fun word byte => word <<< 8 ||| byte.toUInt64) 0)
  | _ => none

/-- The four bytes of a word, the most significant first. -/
def Bytes.ofUInt32 (word : UInt32) : Bytes :=
  [word >>> 24, word >>> 16, word >>> 8, word].map (·.toUInt8)

/-- The word that four bytes hold. -/
def Bytes.toUInt32? : Bytes → Option UInt32
  | [a, b, c, d] =>
    some ([a, b, c, d].foldl (fun word byte => word <<< 8 ||| byte.toUInt32) 0)
  | _ => none

/-- A signed word as eight bytes in two's complement. -/
def Bytes.ofInt64 (n : Int64) : Bytes := Bytes.ofUInt64 n.toUInt64

/-- The signed word that eight bytes hold in two's complement. -/
def Bytes.toInt64? (bytes : Bytes) : Option Int64 := bytes.toUInt64?.map (·.toInt64)

/-- The bytes of a value where no type is assumed. -/
def encodeNatural : Value → Except Error Bytes
  | .null => .ok []
  | .bool b => .ok [if b then 1 else 0]
  | .int n => .ok (Bytes.ofInt64 n)
  | .float x => .ok (Bytes.ofUInt64 x.bits)
  | .text s => .ok (Utf8.encode s)
  | .bytes raw => .ok raw
  | .decimal d => .ok (Utf8.encode d.text)
  | .list _ => .error (.validation (.notComponent .list))
  | .map _ => .error (.validation (.notComponent .map))

namespace DataType

/-- The data type with this name. A counter is stored as a long. -/
def parse (s : String) : Except Error DataType :=
  let wanted := Text.trim s
  if wanted = "CounterColumnType" then .ok long
  else match all.find? fun type => type.name == wanted with
    | some type => .ok type
    | none => .error (.validation (.unknownDataType wanted))

/-- Whether a type reads no bytes at all as text or bytes, and not as null. -/
def readsEmpty : DataType → Bool
  | bytes | utf8 | ascii => true
  | _ => false

private def isAscii (s : String) : Bool := s.toList.all fun c => c.toNat < 0x80

/-- The bytes of a value under a type. Bytes of the right form are taken as they are
by the types of text and of whole numbers. -/
def encode : DataType → Value → Except Error Bytes
  | bytes, v => encodeNatural v
  | type, .null => if type = bytes then encodeNatural .null else .ok []
  | utf8, .text s => .ok (Utf8.encode s)
  | utf8, .bytes raw =>
    if Utf8.isValid raw then .ok raw else .error (.validation (.cannotHold utf8 .bytes))
  | ascii, .text s =>
    if isAscii s then .ok (Utf8.encode s) else .error (.validation (.cannotHold ascii .text))
  | int32, .int n =>
    if -0x80000000 ≤ n.toInt ∧ n.toInt < 0x80000000 then .ok (Bytes.ofUInt32 n.toUInt64.toUInt32)
    else .error (.validation (.outOfInt32 n.toInt))
  | int32, .bytes raw =>
    if raw.length = 4 then .ok raw else .error (.validation (.cannotHold int32 .bytes))
  | long, .int n => .ok (Bytes.ofInt64 n)
  | long, .bytes raw =>
    if raw.length = 8 then .ok raw else .error (.validation (.cannotHold long .bytes))
  | boolean, .bool b => .ok [if b then 1 else 0]
  | double, .float x => .ok (Bytes.ofUInt64 x.bits)
  | double, .int n => .ok (Bytes.ofUInt64 (Binary64.ofInt n.toInt).bits)
  | decimal, .decimal d => .ok (Utf8.encode d.text)
  | decimal, .int n => .ok (Utf8.encode (Decimal.ofInt n.toInt).text)
  | decimal, .text s =>
    match Decimal.parse? s with
    | some d => .ok (Utf8.encode d.text)
    | none => .error (.validation (.notDecimal s))
  | type, v => .error (.validation (.cannotHold type v.shape))

/-- The value that bytes hold under a type. No bytes at all are null under the types
of numbers and truth values. -/
def decode (type : DataType) (raw : Bytes) : Except Error Value :=
  if raw.isEmpty && !type.readsEmpty then .ok .null
  else
    let width (expected : Nat) : Error := .validation (.wrongWidth type expected raw.length)
    match type with
    | bytes => .ok (.bytes raw)
    | utf8 =>
      match Utf8.decode? raw with
      | some s => .ok (.text s)
      | none => .error (.validation (.notText utf8))
    | ascii =>
      match Utf8.decode? raw with
      | some s => if isAscii s then .ok (.text s) else .error (.validation (.notText ascii))
      | none => .error (.validation (.notText ascii))
    | int32 =>
      match raw.toUInt32? with
      | some word => .ok (.int word.toInt32.toInt64)
      | none => .error (width 4)
    | long =>
      match raw.toInt64? with
      | some n => .ok (.int n)
      | none => .error (width 8)
    | boolean =>
      match raw with
      | [byte] => .ok (.bool (byte != 0))
      | _ => .error (width 1)
    | double =>
      match raw.toUInt64? with
      | some word => .ok (.float ⟨word⟩)
      | none => .error (width 8)
    | decimal =>
      let s := Utf8.decodeLossy raw
      match Decimal.parse? s with
      | some d => .ok (.decimal d)
      | none => .error (.validation (.notDecimal s))

end DataType

/-- The bytes of a value under the assumed type, if one is assumed. -/
def encode (value : Value) : (assumed : Option DataType) → Except Error Bytes
  | some type => type.encode value
  | none => encodeNatural value

/-- The value that bytes hold under the assumed type. Where none is assumed bytes
stay bytes. -/
def decode (raw : Bytes) : (assumed : Option DataType) → Except Error Value
  | some type => type.decode raw
  | none => .ok (.bytes raw)

end OperationChain
