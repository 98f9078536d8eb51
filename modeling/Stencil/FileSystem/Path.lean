import Stencil.Text.Search

/-!
# Paths

Paths as texts. They are taken apart without looking at any file: blank parts and points say
nothing, except that a point may begin a path.
-/

namespace Stencil.Path

open Stencil.Text

/-- A path below a directory. A path from the root stays as it is. -/
def join (directory path : String) : String :=
  if path.toList.head? = some '/' ∨ directory = "" then path
  else if directory.toList.getLast? = some '/' then directory ++ path
  else directory ++ "/" ++ path

/-- Whether a path begins at the root. -/
def isAbsolute (path : String) : Bool := path.toList.head? == some '/'

/-- The parts of a path, blank ones included. -/
def parts (path : String) : List String := (splitAtChar '/' path.toList).map String.ofList

/-- The parts of a path that say something. -/
def components (path : String) : List String :=
  match parts path with
  | "." :: rest => "." :: rest.filter fun c => c ≠ "" ∧ c ≠ "."
  | all => all.filter fun c => c ≠ "" ∧ c ≠ "."

/-- The path without its last component; a path without components has none. -/
def parent? (path : String) : Option String :=
  match components path with
  | [] => none
  | all =>
    let rest := "/".intercalate all.dropLast
    some (if isAbsolute path then "/" ++ rest else rest)

end Stencil.Path
