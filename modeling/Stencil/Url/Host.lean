import Stencil.Text.Percent
import Stencil.Url.Address

/-!
# Hosts

The host of a URL. In brackets it is an address of eight groups. Otherwise the schemes of the web
read a domain name, which may be percent-encoded and is an address of four bytes when it ends in a
number; all other schemes take the text as it is. How domain names are read is a parameter, as it
depends on the tables of Unicode.
-/

namespace Stencil.Url

open Text

/-- A reading of domain names: the ASCII form in which a name is looked up, if the text is one. -/
abbrev DomainReading := List Char → Option (List Char)

/-- A host. -/
inductive Host where
  | fourBytes (address : Nat)
  | eightGroups (groups : List Nat)
  | domain (name : List Char)
  /-- A name that only its scheme understands. -/
  | named (name : List Char)
  deriving Repr, DecidableEq

namespace Host

/-- The characters that no name in a URL holds. -/
def isForbidden (c : Char) : Bool :=
  c ∈ ['\x00', '\t', '\n', '\r', ' ', '#', '/', ':', '<', '>', '?', '@', '[', '\\', ']', '^', '|']

/-- The host in brackets, if the text begins with one. -/
def bracketed? (cs : List Char) : Option (Option Host) :=
  match cs with
  | '[' :: r =>
    if r.getLast? = some ']' then some ((EightGroups.parse? r.dropLast).map eightGroups)
    else some none
  | _ => none

/-- The domain or address of a name. -/
def ofDomain? (toAscii? : DomainReading) (cs : List Char) : Option Host := do
  let text ← String.fromUTF8? ⟨(Percent.decode cs).toArray⟩
  let name ← toAscii? text.toList
  if FourBytes.isMeant name then (FourBytes.parse? name).map fourBytes else some (domain name)

/-- The host of a text in a scheme of the web. -/
def web? (toAscii? : DomainReading) (cs : List Char) : Option Host :=
  (bracketed? cs).getD (ofDomain? toAscii? cs)

/-- The host of a text in another scheme. -/
def other? (cs : List Char) : Option Host :=
  (bracketed? cs).getD <|
    if cs = [] ∨ cs.any isForbidden then none
    else some (named (Percent.encodeKeeping (fun c => ' ' ≤ c && c ≤ '~') cs))

/-- The text of a host. -/
def write : Host → List Char
  | fourBytes address => FourBytes.write address
  | eightGroups groups => '[' :: EightGroups.write groups ++ [']']
  | domain name => name
  | named name => name

end Host

end Stencil.Url
