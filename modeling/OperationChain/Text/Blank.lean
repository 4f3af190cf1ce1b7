/-! # Blank characters

The characters of the Unicode property `White_Space`, and text without them at its
two ends, which is how names are compared.
-/

namespace OperationChain.Text

/-- Whether a character has the Unicode property `White_Space`. -/
def isBlank (c : Char) : Bool :=
  let n := c.toNat
  (9 ≤ n && n ≤ 13) || n == 0x20 || n == 0x85 || n == 0xA0 || n == 0x1680 ||
    (0x2000 ≤ n && n ≤ 0x200A) || n == 0x2028 || n == 0x2029 || n == 0x202F || n == 0x205F ||
    n == 0x3000

/-- Characters without the blanks in front of them. -/
def trimLeft (cs : List Char) : List Char := cs.dropWhile isBlank

/-- Characters without the blanks before and after them. -/
def trimChars (cs : List Char) : List Char := (trimLeft (trimLeft cs).reverse).reverse

/-- A text without the blanks before and after it. -/
def trim (s : String) : String := String.ofList (trimChars s.toList)

/-- A text without the blanks around it and with its ASCII letters in lower case. -/
def foldLower (s : String) : String := String.ofList ((trimChars s.toList).map Char.toLower)

/-- A text without the blanks around it and with its ASCII letters in upper case. -/
def foldUpper (s : String) : String := String.ofList ((trimChars s.toList).map Char.toUpper)

end OperationChain.Text
