import Stencil.Url.Folding
import Stencil.Url.Punycode

/-!
# Domain names

A domain name in the ASCII form in which it is looked up: labels between points, each of ASCII
characters, where a label with other characters is written in Punycode behind the mark `xn--`.
`toAscii?` is the reading of domain names that the program runs with. It goes no further than
`Folding` does, so whatever reads hosts takes the reading as a parameter.
-/

namespace Stencil.Url.Domain

open Text

/-- The mark of labels in Punycode. -/
def mark : List Char := ['x', 'n', '-', '-']

/-- The ASCII characters that no domain name holds. -/
def isForbidden (c : Char) : Bool :=
  c.toNat ≤ 0x20 || c == '\x7f' ||
    c ∈ ['%', '#', '/', ':', '<', '>', '?', '@', '[', '\\', ']', '^', '|']

/-- The ASCII form of a folded label. A label that is written in Punycode already must be what
its text is written as in a folded name. -/
def label? (label : List Char) : Option (List Char) :=
  match stripPrefix? mark label with
  | some code => do
    let text ← Punycode.decode? code
    if text.all Punycode.isBasic || !Folding.isSettled text then none else some label
  | none =>
    if label.all Punycode.isBasic then some label
    else if Folding.isSettled label then some (mark ++ Punycode.encode label)
    else none

/-- Labels with points between them. -/
def write (labels : List (List Char)) : List Char := ['.'].intercalate labels

/-- The ASCII form of a domain name; it is not empty. -/
def toAscii? (cs : List Char) : Option (List Char) := do
  let folded ← Folding.fold? cs
  if folded = [] || folded.any isForbidden then none
  else do pure (write (← (splitAtChar '.' folded).mapM label?))

end Stencil.Url.Domain
