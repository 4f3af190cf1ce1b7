/-! # UTF-8

Bytes of a text, strict reading of bytes as text, and the reading that puts U+FFFD
in place of every part that is not UTF-8. Such a part is as long as it can be: the
longest start of a character that bytes could still have completed, or one byte.
Main statement: a decoding step always consumes bytes.
-/

namespace OperationChain

/-- A sequence of bytes, as names, row keys and values are stored. -/
abbrev Bytes := List UInt8

namespace Utf8

/-- The bytes of a text. -/
def encode (s : String) : Bytes := s.toList.flatMap String.utf8EncodeChar

/-- Reads `count` continuation bytes, six bits each, after the bits `value`. The
first of them lies between `low` and `high`. What is read ends at the first byte
that does not fit. -/
def continuation : (count low high value : Nat) → Bytes → Option Nat × Bytes
  | 0, _, _, value, bytes => (some value, bytes)
  | _ + 1, _, _, _, [] => (none, [])
  | count + 1, low, high, value, byte :: rest =>
    if low ≤ byte.toNat && byte.toNat ≤ high then
      continuation count 0x80 0xBF (value * 64 + (byte.toNat - 0x80)) rest
    else
      (none, byte :: rest)

/-- The code point that starts with the byte `lead`, or nothing where the bytes do
not continue it. The bounds on the second byte leave out surrogates, overlong forms
and code points above U+10FFFF. -/
def codePoint (lead : UInt8) (rest : Bytes) : Option Nat × Bytes :=
  let n := lead.toNat
  if n < 0x80 then (some n, rest)
  else if n < 0xC2 then (none, rest)
  else if n < 0xE0 then continuation 1 0x80 0xBF (n - 0xC0) rest
  else if n == 0xE0 then continuation 2 0xA0 0xBF 0 rest
  else if n == 0xED then continuation 2 0x80 0x9F 13 rest
  else if n < 0xF0 then continuation 2 0x80 0xBF (n - 0xE0) rest
  else if n == 0xF0 then continuation 3 0x90 0xBF 0 rest
  else if n < 0xF4 then continuation 3 0x80 0xBF (n - 0xF0) rest
  else if n == 0xF4 then continuation 3 0x80 0x8F 4 rest
  else (none, rest)

theorem length_continuation (count low high value : Nat) (bytes : Bytes) :
    (continuation count low high value bytes).2.length ≤ bytes.length := by
  induction bytes generalizing count low high value with
  | nil => cases count <;> simp [continuation]
  | cons byte rest ih =>
    cases count with
    | zero => simp [continuation]
    | succ count =>
      simp only [continuation]
      split
      · exact Nat.le_succ_of_le (ih ..)
      · exact Nat.le_refl _

theorem length_codePoint (lead : UInt8) (rest : Bytes) :
    (codePoint lead rest).2.length ≤ rest.length := by
  unfold codePoint
  simp only
  repeat' split
  all_goals first | exact Nat.le_refl _ | exact length_continuation ..

/-- The characters of the bytes in order, with `none` for each part that is not
UTF-8. -/
def scan : Bytes → List (Option Char)
  | [] => []
  | lead :: rest => (codePoint lead rest).1.map Char.ofNat :: scan (codePoint lead rest).2
termination_by bytes => bytes.length
decreasing_by exact Nat.lt_succ_of_le (length_codePoint lead rest)

/-- The text that the bytes encode, if they are UTF-8. -/
def decode? (bytes : Bytes) : Option String :=
  ((scan bytes).mapM id).map String.ofList

/-- The text that the bytes encode, with U+FFFD in place of each part that is not
UTF-8. -/
def decodeLossy (bytes : Bytes) : String :=
  String.ofList ((scan bytes).map fun c => c.getD '\uFFFD')

/-- Whether the bytes are UTF-8. -/
def isValid (bytes : Bytes) : Bool := (decode? bytes).isSome

end Utf8

end OperationChain
