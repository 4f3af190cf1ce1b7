import OperationChain.Engine.Chain
import OperationChain.Operation.Reader
import OperationChain.Service.MediaType

/-! # The service

Chains over HTTP: one path takes a request and answers with its results, whether the
chain failed or not. A message that holds no request is refused before anything is
executed. Pages of every origin may read the answers, and may ask beforehand whether
they may.
-/

namespace OperationChain.Service

/-- A message to the service. -/
structure Message where
  method : String := "POST"
  target : String := "/v1/chain"
  headers : List (String × String) := []
  body : String := ""

/-- Why a message is refused. -/
inductive Refusal where
  | malformed | notFound | methodNotAllowed | unsupportedMediaType | unprocessable
  deriving DecidableEq, Repr

/-- The status that tells a refusal. -/
def Refusal.status : Refusal → Nat
  | malformed => 400
  | notFound => 404
  | methodNotAllowed => 405
  | unsupportedMediaType => 415
  | unprocessable => 422

/-- What the service answers. -/
structure Reply where
  status : Nat
  body : Option Json := none
  /-- The origins whose pages may read the answer. -/
  allowOrigin : String := "*"

/-- The path of the service. -/
def chainPath : String := "/v1/chain"

namespace Message

/-- A scheme and what follows it in a target, if it starts with one. -/
def afterScheme? (target : List Char) : Option (List Char) :=
  match target.dropWhile fun c => c.isAlphanum || "+-.".contains c with
  | ':' :: '/' :: '/' :: rest => some rest
  | _ => none

/-- Whether a character can stand in a path. -/
def isPathChar (c : Char) : Bool := c != '?' && c != '#'

/-- The path that a message asks for, without a query. A target with a scheme names
the host before the path, which is the root there if it is left out. -/
def path (message : Message) : String :=
  match afterScheme? message.target.toList with
  | none => String.ofList (message.target.toList.takeWhile isPathChar)
  | some rest =>
    match (rest.takeWhile isPathChar).dropWhile (· != '/') with
    | [] => "/"
    | path => String.ofList path

/-- A header of a message. Case makes no difference in its name. -/
def header? (message : Message) (name : String) : Option String :=
  (message.headers.find? fun header => header.1.map Char.toLower == name).map (·.2)

/-- Whether a message says that its body is JSON. -/
def isJson (message : Message) : Bool :=
  ((message.header? "content-type").bind MediaType.parse?).any MediaType.isJson

/-- The request in the body of a message. What follows the first document there is
passed over. -/
def requestOfBody (body : String) : Except Refusal Request :=
  match Request.read Json.nestingLimit (Json.skipBlanks body.toList) with
  | .ok (request, _) => .ok request
  | .error .broken => .error .malformed
  | .error .unfit => .error .unprocessable

/-- The request that a message holds. -/
def request (message : Message) : Except Refusal Request :=
  if message.path ≠ chainPath then .error .notFound
  else if message.method ≠ "POST" then .error .methodNotAllowed
  else if !message.isJson then .error .unsupportedMediaType
  else requestOfBody message.body

end Message

variable {σ : Type} [Store σ]

/-- Answers a message with an engine whose chains nest at most `depth` deep. There
is no answer where that depth is not enough. -/
def answer (engine : Engine σ) (clock : Clock) (depth : Nat) (message : Message) :
    Option (Reply × World σ) :=
  if message.method = "OPTIONS" then some ({ status := 200 }, ⟨engine, clock⟩)
  else
    match message.request with
    | .error refusal => some ({ status := refusal.status }, ⟨engine, clock⟩)
    | .ok request =>
      (engine.execute clock depth request).map fun (response, world) =>
        ({ status := 200, body := some response.toJson }, world)

end OperationChain.Service
