import Stencil.Text.Percent

/-!
# String literals

The text between the quotes of a JSON string. `quote` writes a text, `unquote?` reads one. Quotes,
backslashes and control characters are escaped; a character beyond the basic plane may be written
as a pair of surrogate escapes, and an escape of a lone surrogate stands for nothing.
-/

namespace Stencil.Json.Quoted

/-! ## Reading -/

/-- A part of a string literal: a character, or the number of a hexadecimal escape. -/
inductive Part where
  | char (c : Char)
  | code (n : Nat)
  deriving Repr, DecidableEq

/-- The character that a backslash and `c` stand for. -/
def escaped? (c : Char) : Option Char :=
  match c with
  | '"' => some '"'
  | '\\' => some '\\'
  | '/' => some '/'
  | 'b' => some '\x08'
  | 'f' => some '\x0c'
  | 'n' => some '\n'
  | 'r' => some '\r'
  | 't' => some '\t'
  | _ => none

/-- The number of four hexadecimal digits. -/
def code? (a b c d : Char) : Option Nat := do
  let a ← Percent.hexValue? a
  let b ← Percent.hexValue? b
  let c ← Percent.hexValue? c
  let d ← Percent.hexValue? d
  pure (4096 * a + 256 * b + 16 * c + d)

/-- The parts of a literal; none if an escape is malformed. -/
def parts? : List Char → Option (List Part)
  | [] => some []
  | '\\' :: 'u' :: a :: b :: c :: d :: r => do
    let n ← code? a b c d
    let rest ← parts? r
    pure (.code n :: rest)
  | '\\' :: e :: r => do
    let c ← escaped? e
    let rest ← parts? r
    pure (.char c :: rest)
  | c :: r => if c = '\\' then none else (parts? r).map (.char c :: ·)

/-- The characters of the parts; none if a surrogate stands alone. -/
def join? : List Part → Option (List Char)
  | [] => some []
  | .char c :: r => (join? r).map (c :: ·)
  | .code n :: r =>
    if 0xD800 ≤ n ∧ n < 0xDC00 then
      match r with
      | .code m :: r =>
        if 0xDC00 ≤ m ∧ m < 0xE000 then
          (join? r).map (Char.ofNat (0x10000 + 0x400 * (n - 0xD800) + (m - 0xDC00)) :: ·)
        else none
      | _ => none
    else if 0xDC00 ≤ n ∧ n < 0xE000 then none
    else (join? r).map (Char.ofNat n :: ·)

/-- The text of a literal. -/
def unquote? (literal : List Char) : Option (List Char) := do join? (← parts? literal)

/-! ## Writing -/

/-- The lower-case hexadecimal digit of a number below sixteen. -/
def hexDigit (n : Nat) : Char :=
  if n < 10 then Char.ofNat ('0'.toNat + n) else Char.ofNat ('a'.toNat + (n - 10))

/-- The written form of a character. -/
def quoteChar (c : Char) : List Char :=
  if c = '"' then ['\\', '"']
  else if c = '\\' then ['\\', '\\']
  else if c = '\x08' then ['\\', 'b']
  else if c = '\x0c' then ['\\', 'f']
  else if c = '\n' then ['\\', 'n']
  else if c = '\r' then ['\\', 'r']
  else if c = '\t' then ['\\', 't']
  else if c.toNat < 0x20 then
    ['\\', 'u', '0', '0', hexDigit (c.toNat / 16), hexDigit (c.toNat % 16)]
  else [c]

/-- The literal of a text. -/
def quote (cs : List Char) : List Char := cs.flatMap quoteChar

end Stencil.Json.Quoted
