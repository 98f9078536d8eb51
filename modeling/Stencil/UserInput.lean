import Stencil.Dict
import Stencil.Text.Blank
import Stencil.Text.Lines
import Stencil.Text.Percent
import Stencil.Text.Search
import Stencil.Text.Spans

/-!
# User inputs

Places in a request where the user has to fill something in: two braces and a colon, a name, an
optional mark of secrecy, and two braces. `detect` lists their names, each once; `fill` puts the
values of known names in their places, escaped for URLs or as they are; `fillRequest` escapes them
in the request line only. The main statement is that a request without known names is left alone
(`fillWith_of_unknown`).
-/

namespace Stencil.UserInput

open Text

/-! ## Marks -/

/-- A place to fill in. -/
structure Mark where
  name : List Char
  secret : Bool
  deriving Repr, DecidableEq

/-- The text behind the name of a mark. -/
def Mark.ending (secret : Bool) : List Char :=
  if secret then ['!', 's', 'e', 'c', 'r', 'e', 't', '}', '}'] else ['}', '}']

/-- The text of a mark. -/
def Mark.write (m : Mark) : List Char := '{' :: '{' :: ':' :: m.name ++ Mark.ending m.secret

/-- The characters that may begin a name. -/
def isNameStart (c : Char) : Bool := c.isAlpha || c == '_'

/-- The characters of a name. -/
def isNameChar (c : Char) : Bool := c.isAlphanum || c == '_'

/-- The mark that begins a text. -/
def mark? : List Char → Option Mark
  | '{' :: '{' :: ':' :: c :: r =>
    if isNameStart c then
      let name := c :: r.takeWhile isNameChar
      let rest := r.dropWhile isNameChar
      if startsWith (Mark.ending false) rest then some ⟨name, false⟩
      else if startsWith (Mark.ending true) rest then some ⟨name, true⟩
      else none
    else none
  | _ => none

/-- A mark that is recognised stands in the text. -/
theorem eq_append_of_mark? {cs : List Char} {m : Mark} (h : mark? cs = some m) :
    ∃ rest, cs = m.write ++ rest := by
  unfold mark? at h
  split at h
  next c r =>
    have split : c :: r = (c :: r.takeWhile isNameChar) ++ r.dropWhile isNameChar := by
      rw [List.cons_append, List.takeWhile_append_dropWhile]
    have key : ∀ secret, startsWith (Mark.ending secret) (r.dropWhile isNameChar) = true →
        ∃ rest, '{' :: '{' :: ':' :: c :: r =
          Mark.write ⟨c :: r.takeWhile isNameChar, secret⟩ ++ rest := by
      intro secret hs
      obtain ⟨rest, hrest⟩ := Option.isSome_iff_exists.1 hs
      refine ⟨rest, ?_⟩
      rw [split, eq_append_of_stripPrefix? hrest]
      simp [Mark.write]
    split at h
    · simp only at h
      split at h
      next hs => cases h; exact key false hs
      next =>
        split at h
        next hs => cases h; exact key true hs
        next => cases h
    · cases h
  next => cases h

/-- Marks in a text. -/
def marker : Marker Mark where
  find := mark?
  write := Mark.write
  find_sound := eq_append_of_mark?
  write_ne_nil := by simp [Mark.write]

/-! ## Detection -/

/-- A name to fill in, with its first occurrence. -/
structure Pattern where
  name : String
  /-- The text of the first occurrence. -/
  written : String
  /-- The place of the first occurrence in bytes. -/
  position : Nat
  /-- Whether any occurrence is secret. -/
  secret : Bool
  deriving Repr, DecidableEq

/-- The number of bytes of a text. -/
def byteLength (cs : List Char) : Nat := cs.foldr (fun c n => c.utf8Size + n) 0

/-- Adds an occurrence of a mark to the patterns found so far. -/
def note (patterns : List Pattern) (position : Nat) (m : Mark) : List Pattern :=
  let name := String.ofList m.name
  if patterns.any fun p => p.name = name then
    patterns.map fun p => if p.name = name then { p with secret := p.secret || m.secret } else p
  else patterns ++ [⟨name, String.ofList m.write, position, m.secret⟩]

/-- The patterns of some pieces that begin at a place. -/
def detectFrom (position : Nat) (patterns : List Pattern) : List (Piece Mark) → List Pattern
  | [] => patterns
  | .char c :: rest => detectFrom (position + c.utf8Size) patterns rest
  | .span m :: rest =>
    detectFrom (position + byteLength m.write) (note patterns position m) rest

/-- The names to fill in, in the order of their first occurrences. -/
def detect (content : String) : List Pattern :=
  detectFrom 0 [] (marker.pieces content.toList)

/-- Whether there is anything to fill in. -/
def has (content : String) : Bool := !(marker.spans content.toList).isEmpty

/-! ## Filling in -/

/-- How a value is put into a text. -/
inductive Style where
  /-- Escaped for paths and queries. -/
  | escaped
  /-- As it is. -/
  | raw
  deriving Repr, DecidableEq

/-- A value as it is put into a text. -/
def Style.render : Style → List Char → List Char
  | .escaped, value => Percent.encodePath value
  | .raw, value => value

/-- What stands for a piece: for a mark with a known name its value, else its text. -/
def fillPiece (style : Style) (values : Dict String) : Piece Mark → List Char
  | .char c => [c]
  | .span m =>
    match values.get? (String.ofList m.name) with
    | some value => style.render value.toList
    | none => m.write

/-- Puts the values of known names in their places. -/
def fillWith (style : Style) (values : Dict String) (cs : List Char) : List Char :=
  (marker.pieces cs).flatMap (fillPiece style values)

/-- Puts the values of known names in their places. -/
def fill (style : Style) (content : String) (values : Dict String) : String :=
  String.ofList (fillWith style values content.toList)

/-- Whether a line is blank or a comment. -/
def isPreamble (line : List Char) : Bool :=
  let text := trim line
  text.isEmpty || startsWith ['#'] text || startsWith ['/', '/'] text

/-- Fills in the lines of a request up to its request line, which is escaped, and the lines behind
it, which are not. -/
def fillLines (values : Dict String) : List (List Char) → List Char
  | [] => []
  | line :: rest =>
    if isPreamble line then fillWith .raw values line ++ fillLines values rest
    else fillWith .escaped values line ++ rest.flatMap (fillWith .raw values)

/-- Fills in a request: values are escaped in the request line, the first line that is neither
blank nor a comment, and nowhere else. -/
def fillRequest (content : String) (values : Dict String) : String :=
  String.ofList (fillLines values (splitLines content.toList))

/-- Filling depends on what is put in the places of marks only. -/
theorem fillWith_congr {style style' : Style} {values values' : Dict String} {cs : List Char}
    (h : ∀ m, .span m ∈ marker.pieces cs →
      fillPiece style values (.span m) = fillPiece style' values' (.span m)) :
    fillWith style values cs = fillWith style' values' cs := by
  have hpiece : ∀ p ∈ marker.pieces cs, fillPiece style values p = fillPiece style' values' p := by
    intro p hp
    cases p with
    | char c => rfl
    | span m => exact h m hp
  rw [fillWith, fillWith, List.flatMap_def, List.flatMap_def, List.map_congr_left hpiece]

/-- A text is left alone where none of its names is known. -/
theorem fillWith_of_unknown (style : Style) (values : Dict String) (cs : List Char)
    (h : ∀ m ∈ marker.spans cs, values.get? (String.ofList m.name) = none) :
    fillWith style values cs = cs := by
  have key : ∀ p ∈ marker.pieces cs, fillPiece style values p = marker.writePiece p := by
    intro p hp
    cases p with
    | char c => rfl
    | span m =>
      have hm : m ∈ marker.spans cs := List.mem_filterMap.2 ⟨.span m, hp, rfl⟩
      simp [fillPiece, h m hm, Marker.writePiece, marker]
  calc fillWith style values cs = (marker.pieces cs).flatMap marker.writePiece := by
        unfold fillWith
        rw [List.flatMap_def, List.flatMap_def, List.map_congr_left key]
    _ = cs := marker.write_pieces cs

end Stencil.UserInput
