import Stencil.Text.Percent
import Stencil.Text.Search

/-!
# Paths of URLs

The path of a URL, taken apart at its slashes and without the steps that a point or two points
mean. A step up never leaves the root, nor a drive, which is a letter and a colon or a bar.
-/

namespace Stencil.Url

open Text

/-- The characters that stand for themselves in a path. -/
def isPathChar (c : Char) : Bool :=
  '!' ≤ c && c ≤ '~' && !(c ∈ ['"', '#', '<', '>', '?', '\x60', '\x7b', '\x7d'])

/-- A segment as it stands in a path. -/
def encodeSegment (cs : List Char) : List Char := Percent.encodeKeeping isPathChar cs

namespace Segment

/-- The points of a segment that consists of nothing else; a point may be percent-encoded. -/
def points? : List Char → Option Nat
  | [] => some 0
  | '.' :: r => (points? r).map (· + 1)
  | '%' :: '2' :: 'e' :: r | '%' :: '2' :: 'E' :: r => (points? r).map (· + 1)
  | _ => none

/-- Whether a segment means a step in place. -/
def isHere (cs : List Char) : Bool := points? cs == some 1

/-- Whether a segment means a step up. -/
def isUp (cs : List Char) : Bool := points? cs == some 2

/-- Whether a segment is a drive. -/
def isDrive : List Char → Bool
  | [c, d] => c.isAlpha && (d == ':' || d == '|')
  | _ => false

end Segment

/-! ## Steps -/

/-- The segments above the last one, which come in reverse. -/
def up : List (List Char) → List (List Char)
  | [] => []
  | s :: rest => if Segment.isDrive s then s :: rest else rest

/-- Walks along segments and gives the segments of the place reached; those passed before come
in reverse, and `push` puts a segment that is no step in front of them. -/
def walk (push : List (List Char) → List Char → Option (List (List Char)))
    (passed : List (List Char)) : List (List Char) → Option (List (List Char))
  | [] => some passed.reverse
  | s :: rest =>
    if Segment.isUp s then
      if rest = [] then some ([] :: up passed).reverse else walk push (up passed) rest
    else if Segment.isHere s then
      if rest = [] then some ([] :: passed).reverse else walk push passed rest
    else do walk push (← push passed s) rest

/-- Puts a segment in front of those passed. -/
def push (passed : List (List Char)) (s : List Char) : Option (List (List Char)) :=
  some (encodeSegment s :: passed)

/-- Puts a segment of a file's path in front of those passed. The path may not begin with a drive;
a letter and a colon that begin its first segment are a segment of their own. -/
def pushFile (passed : List (List Char)) (s : List Char) : Option (List (List Char)) :=
  match passed, s with
  | [], c :: ':' :: r =>
    if !c.isAlpha then push [] s else if r = [] then none else push [[c, ':']] r
  | passed, s => if passed = [] ∧ Segment.isDrive s then none else push passed s

/-! ## Paths -/

/-- The segments of a text behind the slash that begins it. -/
def segments (cs : List Char) : List (List Char) :=
  splitAtChar '/' (if cs.head? = some '/' then cs.tail else cs)

/-- The path of segments. -/
def writeSegments (segments : List (List Char)) : List Char := '/' :: ['/'].intercalate segments

/-- The same text with slashes for backslashes. -/
def forward (cs : List Char) : List Char := cs.map fun c => if c = '\\' then '/' else c

/-- The path of a text in a scheme of the web; it begins with a slash. -/
def webPath? (cs : List Char) : Option (List Char) :=
  (walk push [] (segments (forward cs))).map writeSegments

/-- The path of a file, unless it begins with a drive. -/
def filePath? (cs : List Char) : Option (List Char) :=
  (walk pushFile [] (segments (forward cs))).map fun segments =>
    '/' :: (writeSegments segments).dropWhile (· = '/')

/-- The path of a text in another scheme; it may be empty. -/
def otherPath? (cs : List Char) : Option (List Char) :=
  if cs = [] then some [] else (walk push [] (segments cs)).map writeSegments

end Stencil.Url
