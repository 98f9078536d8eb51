/-!
# Backslash escapes

The escapes of declared values: a backslash before `n`, `r`, `t`, a backslash or a quote stands
for one character; before any other character, and at the end, it stands for itself. A text without
backslashes is taken as it is. The main statement is that reading undoes writing
(`readEscapes_escape`).
-/

namespace Stencil.Text

/-- The character that a backslash and `c` stand for. -/
def escaped? (c : Char) : Option Char :=
  match c with
  | 'n' => some '\n'
  | 'r' => some '\r'
  | 't' => some '\t'
  | '\\' => some '\\'
  | '"' => some '"'
  | '\'' => some '\''
  | _ => none

/-- Reads escapes one after the other; unknown ones, and a backslash at the end, are kept as they
are. -/
def readEscapes : List Char → List Char
  | [] => []
  | [c] => [c]
  | c :: d :: r =>
    if c = '\\' then
      match escaped? d with
      | some e => e :: readEscapes r
      | none => c :: d :: readEscapes r
    else c :: readEscapes (d :: r)

/-- Decodes backslash escapes; a text without backslashes has none. -/
def unescape (cs : List Char) : List Char := if cs.contains '\\' then readEscapes cs else cs

/-- The written form of one character. -/
def escapeChar (c : Char) : List Char :=
  match c with
  | '\n' => ['\\', 'n']
  | '\r' => ['\\', 'r']
  | '\t' => ['\\', 't']
  | '\\' => ['\\', '\\']
  | '"' => ['\\', '"']
  | '\'' => ['\\', '\'']
  | c => [c]

/-- Writes line ends, tabs, backslashes and quotes as escapes. -/
def escape (cs : List Char) : List Char := cs.flatMap escapeChar

/-- A character that is no backslash stands for itself. -/
theorem readEscapes_cons {c : Char} (r : List Char) (h : c ≠ '\\') :
    readEscapes (c :: r) = c :: readEscapes r := by
  cases r with
  | nil => simp [readEscapes]
  | cons d r => simp [readEscapes, h]

/-- One written character is read back in front of any text. -/
theorem readEscapes_escapeChar_append (c : Char) (r : List Char) :
    readEscapes (escapeChar c ++ r) = c :: readEscapes r := by
  unfold escapeChar
  split
  case h_7 c _ _ _ h _ _ => exact readEscapes_cons r h
  all_goals simp [readEscapes, escaped?]

/-- Reading undoes writing. -/
theorem readEscapes_escape (cs : List Char) : readEscapes (escape cs) = cs := by
  induction cs with
  | nil => rfl
  | cons c r ih =>
    have : escape (c :: r) = escapeChar c ++ escape r := by simp [escape]
    rw [this, readEscapes_escapeChar_append, ih]

end Stencil.Text
