import OperationChain.Error
import OperationChain.Text.Blank

/-! # Names of consistency levels -/

namespace OperationChain

/-- The consistency level with this name, in any case and between blanks. -/
def Consistency.parse (s : String) : Except Error Consistency :=
  let wanted := Text.foldUpper s
  match levels.find? fun level => level.name == wanted with
  | some level => .ok level
  | none => .error (.validation (.unknownConsistency wanted))

end OperationChain
