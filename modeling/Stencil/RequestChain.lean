import Stencil.Dict
import Stencil.JsonPath.Extract
import Stencil.Response
import Stencil.Variable

/-!
# Request chaining

The responses captured in a run, by the names of their requests, and references to them: the name
of a request, the word `response`, one of `body` and `headers`, and a path, with points between
them. A body is taken whole or at a JSON path; a header is taken by its name.
-/

namespace Stencil

open Text

/-- The responses captured in a run, by the names of their requests. -/
structure RequestChain where
  responses : Dict Response
  deriving DecidableEq

namespace RequestChain

/-- No responses. -/
def empty : RequestChain := ⟨.empty⟩

/-- Captures a response in place of an earlier one to the same request. -/
def set (chain : RequestChain) (name : String) (response : Response) : RequestChain :=
  ⟨chain.responses.insert name response⟩

/-- Forgets all responses. -/
def clear (_ : RequestChain) : RequestChain := empty

/-- The response to a request. -/
def get? (chain : RequestChain) (name : String) : Option Response := chain.responses.get? name

/-- Whether an expression has the shape of a reference to a request. -/
def isReference (expression : String) : Bool :=
  occurs ".response.".toList expression.toList || occurs ".request.".toList expression.toList

/-! ## References -/

/-- The value at a path of a body. -/
def bodyValue (response : Response) (path : String) : Except LookupError String :=
  if path = "*" then .ok response.body
  else if startsWith ['$', '.'] path.toList || startsWith ['$', '['] path.toList then
    (JsonPath.extract response.body path).mapError .jsonPath
  else .error (.invalidSyntax (.bodyPath path))

/-- The value of a header. -/
def headerValue (response : Response) (name : String) : Except LookupError String :=
  match response.header? name with
  | some value => .ok value
  | none => .error (.noHeader name)

/-- The four parts of a reference, the last of which may hold points. -/
def parts? (expression : String) : Option (String × String × String × String) := do
  let (request, r) ← cutChar? '.' expression.toList
  let (source, r) ← cutChar? '.' r
  let (part, path) ← cutChar? '.' r
  pure (String.ofList request, String.ofList source, String.ofList part, String.ofList path)

/-- The value of a reference. -/
def resolve (chain : RequestChain) (expression : String) : Except LookupError String :=
  match parts? expression with
  | none => .error (.invalidSyntax (.shortReference expression))
  | some (request, source, part, path) =>
    if source = "request" then .error (.invalidSyntax (.requestSide expression))
    else if source ≠ "response" then .error (.invalidSyntax (.referenceSource source))
    else
      match chain.get? request with
      | none => .error (.noResponse request)
      | some response =>
        if part = "body" then bodyValue response path
        else if part = "headers" then headerValue response path
        else .error (.invalidSyntax (.referenceSection part))

/-- Whether an expression is a reference to a request whose response was captured. -/
def has (chain : RequestChain) (expression : String) : Bool :=
  isReference expression &&
    match cutChar? '.' expression.toList with
    | some (request, _) => chain.responses.contains (String.ofList request)
    | none => false

/-- The variable of a reference. -/
def get (chain : RequestChain) (expression : String) : Except LookupError Variable :=
  (chain.resolve expression).map fun value =>
    { name := expression, value, kind := .requestChain }

end RequestChain

end Stencil
