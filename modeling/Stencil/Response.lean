import Stencil.Json.Parser
import Stencil.Json.Record

/-!
# Captured responses

The status, the headers and the body of a response. Headers keep their order, and of several with
one name, compared without regard to the case of ASCII letters, the first one counts.
-/

namespace Stencil

/-- A captured response. -/
structure Response where
  /-- The status, a number below 65536. -/
  status : Nat
  headers : List (String × String)
  body : String
  status_lt : status < 65536 := by decide
  deriving DecidableEq

namespace Response

/-- The lower-case form of an ASCII letter; other characters stay. -/
def lowerAscii (c : Char) : Char := if 'A' ≤ c ∧ c ≤ 'Z' then Char.ofNat (c.toNat + 32) else c

/-- Whether two names are the same up to the case of ASCII letters. -/
def sameName (a b : String) : Bool := a.toList.map lowerAscii == b.toList.map lowerAscii

/-- The value of the first header with a name. -/
def header? (r : Response) (name : String) : Option String :=
  (r.headers.find? fun h => sameName h.1 name).map (·.2)

/-- Appends a header, behind any others with the same name. -/
def addHeader (r : Response) (name value : String) : Response :=
  { r with headers := r.headers ++ [(name, value)] }

/-- A header as an array of name and value. -/
def headerToJson (h : String × String) : Json := .array [Json.ofText h.1, Json.ofText h.2]

/-- The document of a response. -/
def toJson (r : Response) : Json :=
  .object
    [Json.member "status_code" (.number (Nat.toDigits 10 r.status)),
      Json.member "headers" (.array (r.headers.map headerToJson)),
      Json.member "body" (Json.ofText r.body)]

/-- The status of a document: a natural number below 65536, without fraction and exponent. -/
def statusOfJson? : Json → Option (Fin 65536)
  | .number literal => do
    let n ← (← Json.Number.ofLiteral? literal).toNatBelow? 65536
    if h : n < 65536 then some ⟨n, h⟩ else none
  | _ => none

/-- The header of an array of name and value. -/
def headerOfJson? : Json → Option (String × String)
  | .array [name, value] => do pure (← Json.asText? name, ← Json.asText? value)
  | _ => none

/-- The headers of an array. -/
def headersOfJson? : Json → Option (List (String × String))
  | .array items => items.mapM headerOfJson?
  | _ => none

/-- The response of a document; all three fields must be there. -/
def ofJson? (j : Json) : Option Response := do
  match ← Json.fields? ["status_code", "headers", "body"] j with
  | [some status, some headers, some body] =>
    let status ← statusOfJson? status
    let headers ← headersOfJson? headers
    let body ← Json.asText? body
    pure ⟨status, headers, body, status.isLt⟩
  | _ => none

/-- The response of a text. -/
def parse? (text : String) : Option Response := do ofJson? (← Json.parse? text)

end Response

end Stencil
