import OperationChain.Expression.Basic
import OperationChain.Expression.Token

/-! # Reading expressions

Predicates and assignments from tokens. `not` binds tighter than `and`, and `and`
tighter than `or`; parentheses group predicates. A truth value alone is a predicate,
and one beside a comparison is a term.
-/

namespace OperationChain.Expression

/-- What starts a list of tokens, and the tokens after it. -/
abbrev Reading (α : Type) := Option (α × List Token)

/-- The component that a word names. -/
def componentOf? (word : String) : Option Component :=
  Component.all.find? fun component => component.key == word

/-- The function that a word names. -/
def functionOf? (word : String) : Option Function :=
  Function.all.find? fun function => function.name == word

/-- The truth value that a word names. -/
def truthOf? (word : String) : Option Bool :=
  if word == "true" then some true else if word == "false" then some false else none

/-- The term that a word alone is. -/
def wordTerm? (word : String) : Option Term :=
  match componentOf? word with
  | some component => some (.field component)
  | none => (truthOf? word).map fun b => .literal (.bool b)

/-- Reads a term. A numeral without a value reads as null; sources that hold one are
refused. -/
def readTerm : List Token → Reading Term
  | .word function :: .sign .open :: rest =>
    match functionOf? function with
    | some function =>
      match readTerm rest with
      | some (argument, .sign .close :: after) => some (.call function argument, after)
      | _ => none
    | none => (wordTerm? function).map fun term => (term, .sign .open :: rest)
  | .word word :: rest => (wordTerm? word).map fun term => (term, rest)
  | .numeral text :: rest => some (.literal ((Token.numeralValue? text).getD .null), rest)
  | .quoted text :: rest => some (.literal (.text text), rest)
  | _ => none

/-- The comparison that a token stands for. -/
def comparison? : Token → Option Comparison
  | .sign .equal => some .equal
  | .sign .notEqual => some .notEqual
  | .sign .less => some .less
  | .sign .atMost => some .atMost
  | .sign .greater => some .greater
  | .sign .atLeast => some .atLeast
  | .word "contains" => some .contains
  | .word "starts_with" => some .startsWith
  | _ => none

def isNot (token : Token) : Bool := token == .sign .not || token == .word "not"

def isAnd (token : Token) : Bool := token == .sign .and || token == .word "and"

def isOr (token : Token) : Bool := token == .sign .or || token == .word "or"

/-- Reads a comparison, or a truth value that is not compared. -/
def readComparison (tokens : List Token) : Reading Predicate :=
  match readTerm tokens with
  | none => none
  | some (left, after) =>
    match after.head?.bind comparison? with
    | some comparison =>
      (readTerm after.tail).map fun (right, rest) => (.compare left comparison right, rest)
    | none =>
      match left with
      | .literal (.bool b) => some (.constant b, after)
      | _ => none

mutual

/-- Reads predicates joined by `or`. -/
def readDisjunction (tokens : List Token) : Reading Predicate :=
  match readConjunction tokens with
  | none => none
  | some (left, []) => some (left, [])
  | some (left, token :: rest) =>
    if isOr token then
      if rest.length < tokens.length then
        (readDisjunction rest).map fun (right, after) => (.or left right, after)
      else none
    else some (left, token :: rest)
termination_by (tokens.length, 3)

/-- Reads predicates joined by `and`. -/
def readConjunction (tokens : List Token) : Reading Predicate :=
  match readNegation tokens with
  | none => none
  | some (left, []) => some (left, [])
  | some (left, token :: rest) =>
    if isAnd token then
      if rest.length < tokens.length then
        (readConjunction rest).map fun (right, after) => (.and left right, after)
      else none
    else some (left, token :: rest)
termination_by (tokens.length, 2)

/-- Reads a predicate that stands between parentheses, is negated, or compares terms. -/
def readNegation (tokens : List Token) : Reading Predicate :=
  match tokens with
  | [] => none
  | token :: rest =>
    if isNot token then
      (readNegation rest).map fun (inner, after) => (.not inner, after)
    else if token = .sign .open then
      match readDisjunction rest with
      | some (inner, .sign .close :: after) => some (inner, after)
      | _ => none
    else readComparison (token :: rest)
termination_by (tokens.length, 1)

end

/-- Reads one assignment. -/
def readAssignment : List Token → Reading Assignment
  | .word word :: .sign .assign :: rest =>
    match componentOf? word, readTerm rest with
    | some component, some (term, after) => some (⟨component, term⟩, after)
    | _, _ => none
  | _ => none

/-- Reads assignments with commas between them. -/
def readAssignments (tokens : List Token) : Reading (List Assignment) :=
  match readAssignment tokens with
  | none => none
  | some (first, .sign .comma :: rest) =>
    if rest.length < tokens.length then
      (readAssignments rest).map fun (others, after) => (first :: others, after)
    else none
  | some (first, rest) => some ([first], rest)
termination_by tokens.length

/-- What a reading finds if it reads all of a source text. Of two faults the text as
a whole comes first: it is not an expression, or it is one with a numeral that has
no value. -/
def readAll {α : Type} (read : List Token → Reading α) (source : String) : Except Error α :=
  match Token.ofChars? source.toList with
  | none => .error (.extension (.cannotCompile source))
  | some tokens =>
    match read tokens with
    | some (tree, []) =>
      match Token.unreadable? tokens with
      | some text => .error (.extension (.malformed text))
      | none => .ok tree
    | _ => .error (.extension (.cannotCompile source))

/-- The predicate that a source text spells. -/
def Predicate.parse (source : String) : Except Error Predicate := readAll readDisjunction source

/-- The assignments that a source text spells. -/
def Assignment.parse (source : String) : Except Error (List Assignment) :=
  readAll readAssignments source

end OperationChain.Expression
