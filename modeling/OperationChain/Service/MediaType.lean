/-! # Media types

A media type is a type and a subtype, the last part of which may stand apart as a
suffix after a plus sign, and perhaps parameters. Reading checks the parameters and
drops them; case makes no difference.
-/

namespace OperationChain

/-- A media type without its parameters, in lower case. -/
structure MediaType where
  type : String
  subtype : String
  suffix : Option String
  deriving DecidableEq, Repr

namespace MediaType

/-- Whether a character can stand in a name. -/
def isNameChar (c : Char) : Bool :=
  c.isAlphanum || "!#$%&'*+-.^_|~".contains c || c.toNat == 0x60

/-- Whether a character can stand between quotes. -/
def isQuotable (c : Char) : Bool := 0x20 ≤ c.toNat && c.toNat < 0x80 && c.toNat != 0x7F

/-- What follows a value in quotes, of which the first is read already. A quote
right after it belongs to the value. -/
def afterQuoted? : List Char → Option (List Char)
  | [] => none
  | c :: rest =>
    if isQuotable c then
      match rest.dropWhile fun c => c != '"' && isQuotable c with
      | '"' :: after =>
        match after.dropWhile (· == ' ') with
        | [] => some []
        | ';' :: more => some more
        | _ => none
      | _ => none
    else none

/-- What follows the value of a parameter and the semicolon after it. -/
def afterValue? : List Char → Option (List Char)
  | '"' :: cs => afterQuoted? cs
  | cs =>
    match cs.takeWhile isNameChar, cs.dropWhile isNameChar with
    | _, [] => some []
    | _ :: _, ';' :: more => some more
    | _, _ => none

/-- Whether characters are parameters with semicolons between them. -/
def areParameters (cs : List Char) : Bool :=
  match cs with
  | [] => true
  | ' ' :: rest => areParameters rest
  | c :: rest =>
    if isNameChar c then
      match rest.dropWhile isNameChar with
      | '=' :: value =>
        match afterValue? value with
        | some more => if more.length ≤ rest.length then areParameters more else false
        | none => false
      | _ => false
    else false
termination_by cs.length
decreasing_by
  · simp
  · exact Nat.lt_succ_of_le (by assumption)

/-- The part of a name before its last plus sign, unless the name starts with it,
and the part after. -/
def splitSuffix (name : List Char) : List Char × Option (List Char) :=
  let suffix := (name.reverse.takeWhile (· != '+')).reverse
  if suffix.length + 1 < name.length then
    (name.take (name.length - suffix.length - 1), some suffix)
  else (name, none)

/-- Characters in lower case. -/
def lower (cs : List Char) : String := String.ofList (cs.map Char.toLower)

/-- The media type that a text denotes. -/
def parse? (s : String) : Option MediaType :=
  let type := s.toList.takeWhile isNameChar
  match type, s.toList.dropWhile isNameChar with
  | _ :: _, '/' :: rest =>
    let name := rest.takeWhile isNameChar
    let (subtype, suffix) := splitSuffix name
    let found : MediaType := ⟨lower type, lower subtype, suffix.map lower⟩
    match name, rest.dropWhile isNameChar with
    | _, [] => some found
    | _ :: _, ';' :: parameters => if areParameters parameters then some found else none
    | _, _ => none
  | _, _ => none

/-- Whether a media type is JSON or builds on it. -/
def isJson (mediaType : MediaType) : Bool :=
  mediaType.type == "application" &&
    (mediaType.subtype == "json" || mediaType.suffix == some "json")

end MediaType

end OperationChain
