import Stencil.Json.Basic
import Stencil.Json.Token

/-!
# Reading JSON documents

A document is built from its tokens by a pushdown machine: `Builder.step` takes one token, and the
containers whose ends have not been read stand in the frames of its state. `Json.parse?` reads any
well-formed text, `Json.parseValue?` one that has a value besides.
-/

namespace Stencil.Json

/-- A container whose end has not been read; what it holds is kept in reverse. -/
inductive Frame where
  | array (items : List Json)
  /-- An object in which the value of `key` is being read. -/
  | object (members : List (List Char × Json)) (key : List Char)

/-- What a machine that builds documents has read, and what may follow. -/
inductive Builder where
  /-- A value must follow. -/
  | value (frames : List Frame)
  /-- An array has begun: a value or its end must follow. -/
  | firstItem (frames : List Frame)
  /-- An object has begun: a key or its end must follow. -/
  | firstKey (frames : List Frame)
  /-- A key must follow. -/
  | key (frames : List Frame) (members : List (List Char × Json))
  /-- A colon must follow. -/
  | colon (frames : List Frame) (members : List (List Char × Json)) (key : List Char)
  /-- A value has been read. -/
  | done (frames : List Frame) (value : Json)

namespace Builder

/-- A token where a value must follow. -/
def stepValue (frames : List Frame) : Token → Option Builder
  | .null => some (done frames .null)
  | .bool b => some (done frames (.bool b))
  | .number literal => some (done frames (.number literal))
  | .string literal => some (done frames (.string literal))
  | .openArray => some (firstItem frames)
  | .openObject => some (firstKey frames)
  | _ => none

/-- A token behind a value. -/
def stepDone : List Frame → Json → Token → Option Builder
  | .array items :: frames, v, .comma => some (value (.array (v :: items) :: frames))
  | .array items :: frames, v, .closeArray => some (done frames (.array (v :: items).reverse))
  | .object members k :: frames, v, .comma => some (key frames ((k, v) :: members))
  | .object members k :: frames, v, .closeObject =>
    some (done frames (.object ((k, v) :: members).reverse))
  | _, _, _ => none

/-- One token. -/
def step : Builder → Token → Option Builder
  | value frames, token => stepValue frames token
  | firstItem frames, .closeArray => some (done frames (.array []))
  | firstItem frames, token => stepValue (.array [] :: frames) token
  | firstKey frames, .closeObject => some (done frames (.object []))
  | firstKey frames, .string k => some (colon frames [] k)
  | key frames members, .string k => some (colon frames members k)
  | colon frames members k, .colon => some (value (.object members k :: frames))
  | done frames v, token => stepDone frames v token
  | _, _ => none

/-- The document at the end of the tokens, if it is complete. -/
def run? : Builder → List Token → Option Json
  | done [] v, [] => some v
  | _, [] => none
  | state, token :: tokens => do run? (← step state token) tokens

end Builder

/-- The document of some tokens. -/
def ofTokens? (tokens : List Token) : Option Json := Builder.run? (.value []) tokens

/-- The document that a text is. -/
def parse? (text : String) : Option Json := do ofTokens? (← Token.ofChars? text.toList)

/-- The document that a text is, if it has a value. -/
def parseValue? (text : String) : Option Json := do
  let j ← parse? text
  if j.admissible then some j else none

end Stencil.Json
