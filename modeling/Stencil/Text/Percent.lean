/-!
# Percent-encoding

A text is encoded byte by byte of its UTF-8 form: a character of the kept class stands for itself,
every other byte is written as a percent sign and two upper-case hexadecimal digits. `encode`
keeps the unreserved characters, `encodePath` also the sub-delimiters and the characters of paths.
The main statements say that both go character by character (`encodeKeeping_append`) and that
`decode` reads one written byte back (`decode_escapeByte`).
-/

namespace Stencil.Percent

/-! ## Writing -/

/-- Letters, digits, `-`, `.`, `_` and `~`. -/
def isUnreserved (c : Char) : Bool :=
  c.isAlphanum || c == '-' || c == '.' || c == '_' || c == '~'

/-- The characters that may stand in a path or a query besides the unreserved ones. -/
def isPathMark (c : Char) : Bool :=
  c ∈ ['!', '$', '&', '\'', '(', ')', '*', '+', ',', ';', '=', ':', '@', '/']

/-- The upper-case hexadecimal digit of a number below sixteen. -/
def hexDigit (n : Nat) : Char :=
  if n < 10 then Char.ofNat ('0'.toNat + n) else Char.ofNat ('A'.toNat + (n - 10))

/-- A byte as a percent sign and two hexadecimal digits. -/
def escapeByte (b : UInt8) : List Char :=
  ['%', hexDigit (b.toNat / 16), hexDigit (b.toNat % 16)]

/-- A character as its UTF-8 bytes, each percent-encoded. -/
def escapeChar (c : Char) : List Char := (String.utf8EncodeChar c).flatMap escapeByte

/-- Percent-encodes every character that `keep` does not keep. -/
def encodeKeeping (keep : Char → Bool) (cs : List Char) : List Char :=
  cs.flatMap fun c => if keep c then [c] else escapeChar c

/-- Only unreserved characters stand for themselves. -/
def encode (cs : List Char) : List Char := encodeKeeping isUnreserved cs

/-- Unreserved characters, sub-delimiters and path characters stand for themselves. -/
def encodePath (cs : List Char) : List Char :=
  encodeKeeping (fun c => isUnreserved c || isPathMark c) cs

/-- Encoding goes character by character. -/
theorem encodeKeeping_append (keep : Char → Bool) (a b : List Char) :
    encodeKeeping keep (a ++ b) = encodeKeeping keep a ++ encodeKeeping keep b := by
  simp [encodeKeeping]

/-! ## Reading -/

/-- The value of a hexadecimal digit of either case. -/
def hexValue? (c : Char) : Option Nat :=
  if '0' ≤ c ∧ c ≤ '9' then some (c.toNat - '0'.toNat)
  else if 'A' ≤ c ∧ c ≤ 'F' then some (c.toNat - 'A'.toNat + 10)
  else if 'a' ≤ c ∧ c ≤ 'f' then some (c.toNat - 'a'.toNat + 10)
  else none

/-- The bytes that a text stands for; a percent sign without two hexadecimal digits behind it
stands for itself. -/
def decode : List Char → List UInt8
  | [] => []
  | c :: h :: l :: r =>
    if c = '%' then
      match hexValue? h, hexValue? l with
      | some high, some low => UInt8.ofNat (16 * high + low) :: decode r
      | _, _ => String.utf8EncodeChar c ++ decode (h :: l :: r)
    else String.utf8EncodeChar c ++ decode (h :: l :: r)
  | c :: r => String.utf8EncodeChar c ++ decode r

/-- The value of a digit is the number it was written for. -/
theorem hexValue?_hexDigit : ∀ n < 16, hexValue? (hexDigit n) = some n := by decide

/-- One written byte is read back in front of any text. -/
theorem decode_escapeByte (b : UInt8) (r : List Char) :
    decode (escapeByte b ++ r) = b :: decode r := by
  have hb := b.toNat_lt
  have high := hexValue?_hexDigit (b.toNat / 16) (by omega)
  have low := hexValue?_hexDigit (b.toNat % 16) (by omega)
  simp only [escapeByte, List.cons_append, List.nil_append, decode, if_true, high, low]
  congr 1
  rw [show 16 * (b.toNat / 16) + b.toNat % 16 = b.toNat from by omega]
  exact UInt8.ofNat_toNat

/-- The written bytes are read back in front of any text. -/
theorem decode_flatMap_escapeByte (bs : List UInt8) (r : List Char) :
    decode (bs.flatMap escapeByte ++ r) = bs ++ decode r := by
  induction bs with
  | nil => rfl
  | cons b bs ih =>
    rw [List.flatMap_cons, List.append_assoc, decode_escapeByte, ih]; rfl

end Stencil.Percent
