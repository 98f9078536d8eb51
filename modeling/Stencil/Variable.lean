import Stencil.FileSystem.Basic
import Stencil.JsonPath.Basic

/-!
# Variables and their errors

A variable is what a reference was resolved to: its value, the kind of its source, and a remark
when the value was found in an unexpected place. `LookupError` lists the causes for which a
reference has no value; none of them ends a run.
-/

namespace Stencil

/-- Where a value comes from. -/
inductive VariableKind where
  /-- A system function. -/
  | system
  /-- The selected environment or the shared entries. -/
  | environment
  /-- A declaration in the request file. -/
  | file
  /-- The response to an earlier request. -/
  | requestChain
  /-- The user. -/
  | prompt
  deriving Repr, DecidableEq

/-- A value that was found. -/
structure Variable where
  name : String
  value : String
  kind : VariableKind
  /-- A remark about how the value was found. -/
  warning : Option String := none
  deriving Repr, DecidableEq

/-- What is malformed in an expression. -/
inductive SyntaxFault where
  | emptyExpression
  | emptyCall
  /-- The name of a system function lacks its dollar sign. -/
  | noDollar (name : String)
  | noDateFormat
  | noRandomBounds
  | randomMin (text : String)
  | randomMax (text : String)
  /-- There is no integer from the lower bound to below the upper one. -/
  | randomEmpty (min max : Int)
  | noProcessName
  | noSettingName
  | noPromptName
  /-- A reference to a response has fewer than four parts. -/
  | shortReference (expression : String)
  /-- A reference asks for the request, not for the response. -/
  | requestSide (expression : String)
  | referenceSource (word : String)
  | referenceSection (word : String)
  | bodyPath (path : String)
  deriving Repr, DecidableEq

/-- What is wrong with an offset in time. -/
inductive OffsetFault where
  /-- The arguments are not an amount and a unit. -/
  | shape (arguments : String)
  | amount (text : String)
  | unit (text : String)
  | range (amount : Int) (unit : String)
  deriving Repr, DecidableEq

/-- Why a file of settings does not give a value. -/
inductive SettingFault where
  | noFile (directory : String)
  | unreadable (path : String) (cause : FileSystem.Error)
  | noKey (key path : String)
  deriving Repr, DecidableEq

/-- Why a reference has no value. -/
inductive LookupError where
  | undefined (name : String)
  | invalidSyntax (fault : SyntaxFault)
  | invalidOffset (fault : OffsetFault)
  | noProcessVariable (name : String)
  | setting (fault : SettingFault)
  | noResponse (request : String)
  | noHeader (name : String)
  | jsonPath (cause : JsonPath.Error)
  | prompt (text : String)
  /-- References nest too deep. -/
  | recursionLimit (text : String)
  deriving Repr, DecidableEq

/-- The wording of a fault in an expression. -/
def SyntaxFault.message : SyntaxFault → String
  | .emptyExpression => "empty expression"
  | .emptyCall => "empty system function"
  | .noDollar name => s!"system function must start with $: {name}"
  | .noDateFormat => "datetime requires a format (iso8601, rfc1123 or a token pattern)"
  | .noRandomBounds => "randomInt requires min and max arguments"
  | .randomMin text => s!"invalid min value: {text}"
  | .randomMax text => s!"invalid max value: {text}"
  | .randomEmpty min max => s!"min ({min}) must be less than max ({max})"
  | .noProcessName => "processEnv requires a variable name"
  | .noSettingName => "dotenv requires a variable name"
  | .noPromptName => "prompt requires a name"
  | .shortReference expression =>
    s!"request reference must be name.response.(headers|body).path: {expression}"
  | .requestSide expression => s!"request-side references are not supported: {expression}"
  | .referenceSource word => s!"expected 'response' after request name, got '{word}'"
  | .referenceSection word => s!"expected 'headers' or 'body', got '{word}'"
  | .bodyPath path =>
    s!"unsupported body path '{path}': use '*' or a JSON path starting with '$.'"

/-- The wording of a fault in an offset. -/
def OffsetFault.message : OffsetFault → String
  | .shape arguments =>
    s!"offset requires an amount and a unit (e.g. '-1 d'), got '{arguments}'"
  | .amount text => s!"invalid amount: {text}"
  | .unit text => s!"invalid unit '{text}': use y, M, w, d, h, m, s or ms"
  | .range n u => s!"offset {n} {u} is out of range"

/-- The wording of a fault with a file of settings. -/
def SettingFault.message : SettingFault → String
  | .noFile directory => s!".env file not found in {directory}"
  | .unreadable path cause => s!"failed to read {path}: {cause.message}"
  | .noKey key path => s!"key '{key}' not found in {path}"

/-- The wording of an error. -/
def LookupError.message : LookupError → String
  | .undefined name => s!"undefined variable: {name}"
  | .invalidSyntax fault => s!"invalid syntax: {fault.message}"
  | .invalidOffset fault => s!"invalid offset: {fault.message}"
  | .noProcessVariable name => s!"environment variable not found: {name}"
  | .setting fault => s!"dotenv error: {fault.message}"
  | .noResponse request => s!"no response registered for request '{request}'"
  | .noHeader name => s!"header '{name}' not found in response"
  | .jsonPath cause => s!"JSON path error: {cause.message}"
  | .prompt text => s!"prompt error: {text}"
  | .recursionLimit text => s!"recursion limit exceeded while resolving '{text}'"

end Stencil
