import Stencil.Url.FoldingTable

/-!
# Folding of domain names

Domain names that mean the same are folded to one form: capital letters become small, plain forms
stand for characters that only look special, and a letter and a mark behind it become one
character where there is one. `fold?` folds a text and fails where a character may not stand in a
domain name; a text that folds to itself is settled. The tables do not cover all of Unicode, a mark
is joined with the letter right before it only, and the direction of writing does not matter.
-/

namespace Stencil.Url.Folding

/-- Whether a code point lies in one of some ranges. -/
def within (ranges : List (Nat × Nat)) (n : Nat) : Bool :=
  ranges.any fun r => r.1 ≤ n && n ≤ r.2

/-- The image of a code point in a run. -/
def Run.image? (r : Run) (n : Nat) : Option Nat :=
  if n < r.first then none
  else
    let k := (n - r.first) / r.stride
    if (n - r.first) % r.stride = 0 ∧ k < r.count then some (r.target + k * r.step) else none

/-- What a character is folded to, unless it may not stand in a domain name. -/
def image? (c : Char) : Option (List Char) :=
  let n := c.toNat
  if n < 128 then some [c.toLower]
  else if within ignored n then some []
  else if within disallowed n then none
  else
    match runs.findSome? fun r => r.image? n with
    | some m => some [Char.ofNat m]
    | none =>
      match pairs.lookup n with
      | some m => some [Char.ofNat m]
      | none =>
        match expansions.lookup n with
        | some ms => some (ms.map Char.ofNat)
        | none => some [c]

/-- The character that a letter and a mark behind it make up. -/
def compose? (letter mark : Char) : Option Char := do
  let row ← compositions.lookup mark.toNat
  pure (Char.ofNat (← row.lookup letter.toNat))

/-- Joins letters with the marks behind them; `last` is the character before the text. -/
def composeFrom (last : Char) : List Char → List Char
  | [] => [last]
  | c :: rest =>
    match compose? last c with
    | some joined => composeFrom joined rest
    | none => last :: composeFrom c rest

/-- Joins letters with the marks behind them. -/
def compose : List Char → List Char
  | [] => []
  | c :: rest => composeFrom c rest

/-- Folds a text. -/
def fold? (cs : List Char) : Option (List Char) :=
  (cs.mapM image?).map fun images => compose images.flatten

/-- Whether a character combines with the one before it. -/
def isMark (c : Char) : Bool := within marks c.toNat

/-- Characters that join or part the letters around them without being seen. -/
def isJoiner (c : Char) : Bool := c == '\u200c' || c == '\u200d'

/-- Signs that take the vowel from a letter, behind which a joiner may stand. -/
def isVirama (c : Char) : Bool :=
  [0x094d, 0x09cd, 0x0a4d, 0x0acd, 0x0b4d, 0x0bcd, 0x0c4d, 0x0ccd, 0x0d4d, 0x0dca, 0x0e3a, 0x0f84,
    0x1039, 0x103a, 0x17d2, 0xa8c4, 0xa9c0].contains c.toNat

/-- Whether every joiner stands behind a virama; `last` is the character before the text. -/
def joinersSettled (last : Char) : List Char → Bool
  | [] => true
  | c :: rest => (!isJoiner c || isVirama last) && joinersSettled c rest

/-- Whether a text can stand in a domain name as it is. -/
def isSettled (cs : List Char) : Bool :=
  fold? cs == some cs && !(cs.head?.any isMark) && joinersSettled ' ' cs

end Stencil.Url.Folding
