import OperationChain.Json.Basic
import OperationChain.Number.Reading

/-! # Settings from the environment

Variables whose names start with a fixed word and two underscores are settings. Two
underscores also separate the keys of a path, and case makes no difference. A value
is a truth value or a number if it can be read as one, and text otherwise.
-/

namespace OperationChain.Settings

/-- What the names of variables start with, in lower case. -/
def environmentMark : List Char := "intravert__".toList

/-- Characters with points for pairs of underscores. -/
def pointsForUnderscores : List Char → List Char
  | '_' :: '_' :: rest => '.' :: pointsForUnderscores rest
  | c :: rest => c :: pointsForUnderscores rest
  | [] => []

/-- The name of the setting that a variable holds, if it holds one. -/
def settingName? (key : String) : Option String :=
  let lower := key.toList.map Char.toLower
  let rest := lower.drop environmentMark.length
  if environmentMark.isPrefixOf lower then some (String.ofList (pointsForUnderscores rest))
  else none

/-- The value that the text of a variable means. -/
def settingValue (s : String) : Json :=
  match String.ofList (s.toList.map Char.toLower) with
  | "true" => .bool true
  | "false" => .bool false
  | _ =>
    match Numeral.int64? s, Binary64.ofText? s with
    | some n, _ => .integer n.toInt
    | none, some x => .float x
    | none, none => .text s

/-- The settings among the variables of an environment. -/
def ofEnvironment (environment : List (String × String)) : List (String × Json) :=
  environment.filterMap fun (key, s) => (settingName? key).map fun name => (name, settingValue s)

end OperationChain.Settings
