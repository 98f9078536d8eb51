import Stencil.Json.Number
import Stencil.Json.Quoted
import Stencil.Text.Blank

/-!
# JSON tokens

A text is cut into tokens by a machine that takes one character at a time: `Lexer.step` gives the
next state and the tokens that end at the character. A text that the machine refuses, or at whose
end a token is unfinished, has no tokens.
-/

namespace Stencil.Json

/-- A token of a JSON text; numbers and strings are kept by their literals. -/
inductive Token where
  | openObject
  | closeObject
  | openArray
  | closeArray
  | colon
  | comma
  | null
  | bool (b : Bool)
  | number (literal : List Char)
  | string (literal : List Char)
  deriving Repr, DecidableEq

/-- The states of the machine that cuts a text into tokens. The characters seen of an unfinished
token are kept in reverse. -/
inductive Lexer where
  /-- Between two tokens. -/
  | between
  /-- In a word of letters. -/
  | word (seen : List Char)
  /-- In a number. -/
  | number (seen : List Char)
  /-- In a string. -/
  | string (seen : List Char)
  /-- In a string, behind a backslash. -/
  | escape (seen : List Char)
  /-- In a string, where `missing` hexadecimal digits of an escape must follow. -/
  | hex (missing : Nat) (seen : List Char)
  deriving Repr, DecidableEq

namespace Lexer

/-- Space, tab, line feed and carriage return. -/
def isSpace (c : Char) : Bool := c == ' ' || c == '\t' || c == '\n' || c == '\r'

/-- The token that is one character. -/
def mark? (c : Char) : Option Token :=
  match c with
  | '{' => some .openObject
  | '}' => some .closeObject
  | '[' => some .openArray
  | ']' => some .closeArray
  | ':' => some .colon
  | ',' => some .comma
  | _ => none

/-- The token of a word. -/
def word? (word : List Char) : Option Token :=
  if word = ['n', 'u', 'l', 'l'] then some .null
  else if word = ['t', 'r', 'u', 'e'] then some (.bool true)
  else if word = ['f', 'a', 'l', 's', 'e'] then some (.bool false)
  else none

/-- The token of a number, if it is well formed. -/
def number? (literal : List Char) : Option Token :=
  (Number.ofLiteral? literal).map fun _ => .number literal

/-- A character between two tokens. -/
def start (c : Char) : Option (Lexer × List Token) :=
  if isSpace c then some (between, [])
  else match mark? c with
    | some token => some (between, [token])
    | none =>
      if c = '"' then some (string [], [])
      else if c.isDigit || c = '-' then some (number [c], [])
      else if c.isLower then some (word [c], [])
      else none

/-- A character that ends a token, which stands in front of what the character begins. -/
def startAfter (token : Option Token) (c : Char) : Option (Lexer × List Token) := do
  let token ← token
  let (state, tokens) ← start c
  pure (state, token :: tokens)

/-- One character: the next state and the tokens that end here. -/
def step : Lexer → Char → Option (Lexer × List Token)
  | between, c => start c
  | word seen, c =>
    if c.isLower then some (word (c :: seen), []) else startAfter (word? seen.reverse) c
  | number seen, c =>
    if Number.isLiteralChar c then some (number (c :: seen), [])
    else startAfter (number? seen.reverse) c
  | string seen, c =>
    if c = '"' then some (between, [.string seen.reverse])
    else if c = '\\' then some (escape (c :: seen), [])
    else if c.toNat < 0x20 then none
    else some (string (c :: seen), [])
  | escape seen, c =>
    if c = 'u' then some (hex 4 (c :: seen), [])
    else if (Quoted.escaped? c).isSome then some (string (c :: seen), [])
    else none
  | hex missing seen, c =>
    if (Percent.hexValue? c).isSome then
      some (if missing ≤ 1 then string (c :: seen) else hex (missing - 1) (c :: seen), [])
    else none

/-- The tokens that end with the text. -/
def finish? : Lexer → Option (List Token)
  | between => some []
  | word seen => (word? seen.reverse).map ([·])
  | number seen => (number? seen.reverse).map ([·])
  | _ => none

/-- The tokens of the rest of a text. -/
def run? : Lexer → List Char → Option (List Token)
  | state, [] => finish? state
  | state, c :: cs => do
    let (state, tokens) ← step state c
    let rest ← run? state cs
    pure (tokens ++ rest)

end Lexer

/-- The tokens of a text. -/
def Token.ofChars? (cs : List Char) : Option (List Token) := Lexer.run? .between cs

end Stencil.Json
