import OperationChain.Json.Basic
import OperationChain.Text.Numeral

/-! # Trees of settings

Settings from several sources are laid over each other in one document. A table goes
over what was there member by member, and takes the place of anything that is no
table; every other document replaces what was there. A name can be a path into the
tree, with points between the keys of nested tables and brackets around the places
in lists. A list grows until it has the place that a path asks for.
-/

namespace OperationChain.Settings

/-- The members of a table; there are none in anything else. -/
def members : Option Json → List (String × Json)
  | some (.object members) => members
  | _ => []

/-- The items of a list; there are none in anything else. -/
def items : Option Json → List Json
  | some (.array items) => items
  | _ => []

mutual

/-- Lays a document over what was there. -/
def overlay (below : Option Json) : Json → Json
  | .object above => .object (overlayMembers (members below) above)
  | other => other

def overlayMembers (below : List (String × Json)) : List (String × Json) → List (String × Json)
  | [] => below
  | (key, value) :: rest =>
    overlayMembers (Entries.insert key (overlay (Entries.find? key below) value) below) rest

end

/-- A step of a path. A negative place counts from the end of a list. -/
inductive Step where
  | key (name : String)
  | item (place : Int)
  deriving DecidableEq, Repr

/-- Whether a character can stand in a key of a path. -/
def isKeyChar (c : Char) : Bool := c.isAlphanum || c == '_' || c == '-'

/-- Whether a character can stand around a place. -/
def isPad (c : Char) : Bool := c == ' ' || c == '\t'

/-- The place between brackets, in the range of words of 64 bits. -/
def place? (cs : List Char) : Option Int :=
  let core := ((cs.dropWhile isPad).reverse.dropWhile isPad).reverse
  let place := match core with
    | '-' :: digits => (Numeral.nat? digits).map fun n => -(n : Int)
    | digits => (Numeral.nat? digits).map fun n => (n : Int)
  (place.bind Numeral.toInt64?).map Int64.toInt

/-- The steps after the first key of a path: keys after points and places in
brackets. -/
def steps? (cs : List Char) : Option (List Step) :=
  match cs with
  | [] => some []
  | '.' :: rest =>
    match rest.takeWhile isKeyChar with
    | [] => none
    | key =>
      (steps? (rest.dropWhile isKeyChar)).map fun steps => .key (String.ofList key) :: steps
  | '[' :: rest =>
    match place? (rest.takeWhile (· != ']')), rest.dropWhile (· != ']') with
    | some place, _ :: after =>
      if after.length ≤ rest.length then (steps? after).map fun steps => .item place :: steps
      else none
    | _, _ => none
  | _ => none
termination_by cs.length
decreasing_by
  · exact Nat.lt_succ_of_le (List.dropWhile_sublist _).length_le
  · exact Nat.lt_succ_of_le (by assumption)

/-- The path that a name means. A name that is no path is one key. -/
def pathOf (name : String) : List Step :=
  let first := name.toList.takeWhile isKeyChar
  match first, steps? (name.toList.dropWhile isKeyChar) with
  | _ :: _, some steps => .key (String.ofList first) :: steps
  | _, _ => [.key name]

/-- A list that has the place, filled up with nulls on the side where it was
missing, and the index of the place there. -/
def withPlace (items : List Json) (place : Int) : List Json × Nat :=
  if 0 ≤ place then (items ++ List.replicate (place.toNat + 1 - items.length) .null, place.toNat)
  else
    (List.replicate (place.natAbs - items.length) .null ++ items, items.length - place.natAbs)

/-- Lays a document over what stands at the end of a path. What is in the way of the
path is dropped. -/
def putAt (value : Json) : List Step → Option Json → Json
  | [], below => overlay below value
  | .key name :: steps, below =>
    let members := members below
    .object (Entries.insert name (putAt value steps (Entries.find? name members)) members)
  | .item place :: steps, below =>
    let (items, index) := withPlace (items below) place
    .array (items.set index (putAt value steps items[index]?))

/-- Lays a document over what a tree holds under a name. -/
def put (tree : Json) (name : String) (value : Json) : Json := putAt value (pathOf name) (some tree)

end OperationChain.Settings
