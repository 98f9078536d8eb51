import Stencil.Dict
import Stencil.Text.Blank
import Stencil.Text.Lines
import Stencil.Text.Search

/-!
# Files of settings

A file of settings has one `KEY=value` on a line; blank lines and lines that begin with a number
sign say nothing, and a word `export` may stand in front of a key. Blanks around keys and values
do not count, and one pair of quotes around a value is dropped. A line without an equals sign is
invalid: it is reported with its number and otherwise passed over.
-/

namespace Stencil.Dotenv

open Stencil.Text

/-- What one line says. -/
inductive Line where
  /-- A blank line or a comment. -/
  | nothing
  /-- A key and its value. -/
  | entry (key value : List Char)
  /-- A line without an equals sign. -/
  | invalid (text : List Char)
  deriving Repr, DecidableEq

/-- Drops one pair of equal quotes around a value. -/
def unquote (value : List Char) : List Char :=
  match value with
  | q :: r =>
    if (q = '"' ∨ q = '\'') ∧ r.getLast? = some q then r.dropLast else value
  | [] => value

/-- Reads one line. -/
def readLine (line : List Char) : Line :=
  match trim line with
  | [] => .nothing
  | '#' :: _ => .nothing
  | text =>
    let text := (stripPrefix? ['e', 'x', 'p', 'o', 'r', 't', ' '] text).getD text
    match cutChar? '=' text with
    | none => .invalid text
    | some (key, value) => .entry (trim key) (unquote (trim value))

/-- What a file says. -/
structure Settings where
  /-- The last value of each key. -/
  values : Dict String
  /-- The invalid lines in order, each with its number from one. -/
  invalid : List (Nat × String)

/-- Reads the lines of a file, the first of which has the number `number`. -/
def readLines (number : Nat) (values : Dict String) : List (List Char) → Settings
  | [] => ⟨values, []⟩
  | line :: rest =>
    match readLine line with
    | .nothing => readLines (number + 1) values rest
    | .entry key value =>
      readLines (number + 1) (values.insert (String.ofList key) (String.ofList value)) rest
    | .invalid text =>
      let settings := readLines (number + 1) values rest
      { settings with invalid := (number, String.ofList text) :: settings.invalid }

/-- Reads a file. -/
def read (content : String) : Settings := readLines 1 .empty (lines content.toList)

end Stencil.Dotenv
