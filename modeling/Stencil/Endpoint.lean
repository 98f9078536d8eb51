import Stencil.Text.Blank
import Stencil.Url.Basic
import Stencil.Url.Domain

/-!
# Endpoints

The text under which what the user entered for a URL is remembered. It keeps the host, the port,
the path and the query and drops the scheme, the user and the fragment. A URL with a host is
written in its normal form; any other text, such as one with placeholders in it, is cut at the
marks of these parts. Which texts are URLs depends on the reading of domain names.
-/

namespace Stencil.Endpoint

open Text

/-- The endpoint of a URL with a host. -/
def ofUrl (url : Url) : List Char :=
  url.host.write ++ url.port?.elim [] (fun port => ':' :: Nat.toDigits 10 port) ++ url.path ++
    url.query?.elim [] fun query => '?' :: query

/-- A text behind its first colon with two slashes, if there is one. -/
def dropScheme (cs : List Char) : List Char :=
  ((cut? [':', '/', '/'] cs).map (·.2)).getD cs

/-- A text without the user in front of its first slash. -/
def dropUser (cs : List Char) : List Char :=
  Url.dropUser (cs.takeWhile (· ≠ '/')) ++ cs.dropWhile (· ≠ '/')

/-- The endpoint of a text that is no URL with a host. -/
def ofText (cs : List Char) : List Char := dropUser (dropScheme (Url.dropFragment cs))

/-- The endpoint of a URL or another text; a reading of domain names may be given. -/
def of (url : String) (toAscii? : Url.DomainReading := Url.Domain.toAscii?) : String :=
  let cs := trim url.toList
  String.ofList ((Url.parse? toAscii? cs).elim (ofText cs) ofUrl)

end Stencil.Endpoint
