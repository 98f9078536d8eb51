import Stencil.Decimal.Integer
import Stencil.Url.Host
import Stencil.Url.Path

/-!
# URLs

The parts of a URL that has a host: `parse?` reads them from a text in the way of browsers, which
mend much of what is written wrongly. Blanks and controls around the text and line breaks and tabs
in it are left out; what stands behind `#` is dropped, and so is what stands before `@` in front
of the host.
-/

namespace Stencil

open Text

/-- The parts of a URL that has a host. -/
structure Url where
  host : Url.Host
  /-- The port, unless it is the usual one of the scheme. -/
  port? : Option Nat
  path : List Char
  /-- What stands behind the question mark, if there is one. -/
  query? : Option (List Char)
  deriving Repr, DecidableEq

namespace Url

/-! ## Schemes -/

/-- How URLs of a scheme are read. -/
inductive Scheme where
  /-- A scheme of the web with its usual port. -/
  | web (port : Nat)
  | file
  | other
  deriving Repr, DecidableEq

/-- The scheme with a name. -/
def Scheme.ofName (name : List Char) : Scheme :=
  match String.ofList (name.map Char.toLower) with
  | "http" | "ws" => .web 80
  | "https" | "wss" => .web 443
  | "ftp" => .web 21
  | "file" => .file
  | _ => .other

/-- Whether a text may be the name of a scheme. -/
def isSchemeName : List Char → Bool
  | [] => false
  | c :: r => c.isAlpha && r.all fun d => d.isAlphanum || d == '+' || d == '-' || d == '.'

/-- The scheme that begins a text, and the text behind its colon. -/
def scheme? (cs : List Char) : Option (Scheme × List Char) := do
  let (name, rest) ← cutChar? ':' cs
  if isSchemeName name then some (Scheme.ofName name, rest) else none

/-! ## Cleaning and cutting -/

/-- Whether a character is a blank or a control. -/
def isEdge (c : Char) : Bool := c ≤ ' '

/-- Whether a character is left out inside a URL. -/
def isSkipped (c : Char) : Bool := c == '\t' || c == '\n' || c == '\r'

/-- A text without blanks and controls around it and without line breaks and tabs. -/
def clean (cs : List Char) : List Char :=
  ((cs.dropWhile isEdge).reverse.dropWhile isEdge).reverse.filter fun c => !isSkipped c

/-- A text up to the mark of a fragment. -/
def dropFragment (cs : List Char) : List Char := cs.takeWhile (· ≠ '#')

/-- A text up to the question mark, and the query behind it. -/
def cutQuery (cs : List Char) : List Char × Option (List Char) :=
  match cutChar? '?' cs with
  | some (front, query) => (front, some query)
  | none => (cs, none)

/-- Whether a character is a slash or a backslash. -/
def isSlash (c : Char) : Bool := c == '/' || c == '\\'

/-- The characters that stand for themselves in a query. -/
def isQueryChar (c : Char) : Bool :=
  '!' ≤ c && c ≤ '~' && !(c ∈ ['"', '#', '<', '>'])

/-- A query as it is written; in the schemes of the web it holds no apostrophe. -/
def encodeQuery (web : Bool) (cs : List Char) : List Char :=
  Percent.encodeKeeping (fun c => isQueryChar c && !(web && c == '\'')) cs

/-! ## Host and port -/

/-- An authority without the user in front. -/
def dropUser (authority : List Char) : List Char :=
  ((cutLastChar? '@' authority).map (·.2)).getD authority

/-- A host and what stands behind it, from the colon that is not in brackets on. -/
def cutHost (inside : Bool) : List Char → List Char × List Char
  | [] => ([], [])
  | c :: rest =>
    if c = ':' ∧ !inside then ([], c :: rest)
    else
      let inside := if c = '[' then true else if c = ']' then false else inside
      let (host, behind) := cutHost inside rest
      (c :: host, behind)

/-- The number that digits are, without digits none. -/
def portNumber? (digits : List Char) : Option Nat :=
  if digits = [] then none else FourBytes.valueIn? 10 digits

/-- The port behind a host and what stands behind the port, which is nothing or begins with a
backslash. -/
def readPort? : List Char → Option (Option Nat × List Char)
  | ':' :: r =>
    let number := portNumber? (r.takeWhile Char.isDigit)
    let behind := r.dropWhile Char.isDigit
    if number.any (65535 < ·) then none
    else if behind = [] ∨ behind.head? = some '\\' then some (number, behind)
    else none
  | behind => some (none, behind)

/-- A port unless it is the usual one. -/
def unusual (usual : Nat) (port : Option Nat) : Option Nat :=
  if port = some usual then none else port

/-! ## Reading -/

variable (toAscii? : DomainReading)

/-- The URL of a text behind the scheme of the web; `query?` is encoded. -/
def web? (usual : Nat) (text : List Char) (query? : Option (List Char)) : Option Url := do
  let text := text.dropWhile isSlash
  let (host, behind) := cutHost false (dropUser (text.takeWhile fun c => !isSlash c))
  let (port, _) ← readPort? behind
  pure ⟨← Host.web? toAscii? host, unusual usual port,
    ← webPath? (text.dropWhile fun c => !isSlash c), query?⟩

/-- The URL of a text behind the scheme `file`, which needs two slashes before a host. -/
def file? (text : List Char) (query? : Option (List Char)) : Option Url :=
  match text with
  | a :: b :: text => do
    let host := text.takeWhile fun c => !isSlash c
    if !isSlash a || !isSlash b || host = [] || Segment.isDrive host then none
    let host ← Host.web? toAscii? host
    if host = .domain "localhost".toList then none
    else pure ⟨host, none, ← filePath? (text.dropWhile fun c => !isSlash c), query?⟩
  | _ => none

/-- The URL of a text behind another scheme, which needs two slashes before a host. -/
def other? (text : List Char) (query? : Option (List Char)) : Option Url :=
  match text with
  | '/' :: '/' :: text => do
    let (host, behind) := cutHost false (dropUser (text.takeWhile (· ≠ '/')))
    let (port, behind) ← readPort? behind
    pure ⟨← Host.other? host, port, ← otherPath? (behind ++ text.dropWhile (· ≠ '/')), query?⟩
  | _ => none

/-- The URL of a text, if it is one that has a host. -/
def parse? (cs : List Char) : Option Url := do
  let (scheme, text) ← scheme? (clean cs)
  let (text, query) := cutQuery (dropFragment text)
  match scheme with
  | .web usual => web? toAscii? usual text (query.map (encodeQuery true))
  | .file => file? toAscii? text (query.map (encodeQuery true))
  | .other => other? text (query.map (encodeQuery false))

end Url

end Stencil
