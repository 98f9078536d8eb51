import Stencil.Dict
import Stencil.FileSystem.Path

/-!
# File systems

All files and directories by their places, which are the names on the way from the root, and the
current directory. Every directory above a file or a directory is there too. Paths are followed
part by part, from the root or from the current directory. Reading and writing fail for the causes
in `FileSystem.Error`.
-/

namespace Stencil

/-- A file or a directory. -/
inductive FileSystem.Node where
  | file (content : ByteArray)
  | directory

/-- The files and directories, and a current directory. -/
structure FileSystem where
  /-- The nodes by their places, with slashes between the names. -/
  nodes : Dict FileSystem.Node
  /-- The place of the current directory. -/
  current : List String

namespace FileSystem

/-- Why a file cannot be read or written. -/
inductive Error where
  | notFound
  /-- A part of the path that is followed by others is a file. -/
  | notDirectory
  | isDirectory
  | nameTooLong
  /-- The path holds the character zero. -/
  | zeroInPath
  /-- The content is no UTF-8. -/
  | notText
  deriving Repr, DecidableEq

/-- The wording of an error. -/
def Error.message : Error → String
  | .notFound => "No such file or directory (os error 2)"
  | .notDirectory => "Not a directory (os error 20)"
  | .isDirectory => "Is a directory (os error 21)"
  | .nameTooLong => "File name too long (os error 36)"
  | .zeroInPath => "file name contained an unexpected NUL byte"
  | .notText => "stream did not contain valid UTF-8"

/-- The node at a place; the root is always there. -/
def node? (fs : FileSystem) (place : List String) : Option Node :=
  if place = [] then some .directory else fs.nodes.get? ("/".intercalate place)

/-- Sets the node at a place. -/
def set (fs : FileSystem) (place : List String) (node : Node) : FileSystem :=
  { fs with nodes := fs.nodes.insert ("/".intercalate place) node }

theorem node?_set (fs : FileSystem) (place : List String) (node : Node) {p : List String}
    (hp : p ≠ []) :
    (fs.set place node).node? p =
      if "/".intercalate p = "/".intercalate place then some node else fs.node? p := by
  simp [node?, set, hp]

/-- The places on the way to a place and the place itself, without the root. -/
def way (place : List String) : List (List String) :=
  (List.range place.length).map fun n => place.take (n + 1)

/-- The file system without files, in which only the current directory is there. -/
def empty (current : List String) : FileSystem :=
  (way current).foldl (fun fs p => fs.set p .directory) ⟨.empty, current⟩

/-- The place from which a part of a path goes on, which must be a directory. -/
def enter (fs : FileSystem) (place : List String) : Except Error Unit :=
  match fs.node? place with
  | none => .error .notFound
  | some (.file _) => .error .notDirectory
  | some .directory => .ok ()

/-- The place that one part of a path leads to from a directory. -/
def follow (place : List String) (part : String) : Except Error (List String) :=
  if part = "" ∨ part = "." then .ok place
  else if part = ".." then .ok place.dropLast
  else if 255 < part.utf8ByteSize then .error .nameTooLong
  else .ok (place ++ [part])

/-- The place that the parts of a path lead to. -/
def walk (fs : FileSystem) (place : List String) : List String → Except Error (List String)
  | [] => .ok place
  | part :: rest => do
    fs.enter place
    fs.walk (← follow place part) rest

/-- Where following a path begins. -/
def start (fs : FileSystem) (path : String) : List String :=
  if Path.isAbsolute path then [] else fs.current

/-- The parts of a path, if it can be followed at all. -/
def route (path : String) : Except Error (List String) :=
  if path.toList.contains '\x00' then .error .zeroInPath
  else if 4096 ≤ path.utf8ByteSize then .error .nameTooLong
  else if path = "" then .error .notFound
  else .ok (Path.parts path)

/-- The place of a path. -/
def locate (fs : FileSystem) (path : String) : Except Error (List String) := do
  fs.walk (fs.start path) (← route path)

/-- Whether a path leads to a file. -/
def isFile (fs : FileSystem) (path : String) : Bool :=
  match fs.locate path with
  | .error _ => false
  | .ok place =>
    match fs.node? place with
    | some (.file _) => true
    | _ => false

/-- The bytes of a file. -/
def readBytes (fs : FileSystem) (path : String) : Except Error ByteArray := do
  match fs.node? (← fs.locate path) with
  | none => .error .notFound
  | some .directory => .error .isDirectory
  | some (.file content) => .ok content

/-- The text of a file. -/
def readText (fs : FileSystem) (path : String) : Except Error String := do
  match String.fromUTF8? (← fs.readBytes path) with
  | none => .error .notText
  | some text => .ok text

/-- Follows the parts of a path and makes the directories that are not there. -/
def makeAlong (fs : FileSystem) (place : List String) : List String → Except Error FileSystem
  | [] =>
    match fs.node? place with
    | none => .ok (fs.set place .directory)
    | some (.file _) => .error .notDirectory
    | some .directory => .ok fs
  | part :: rest =>
    match fs.node? place with
    | some (.file _) => .error .notDirectory
    | some .directory => do makeAlong fs (← follow place part) rest
    | none => do makeAlong (fs.set place .directory) (← follow place part) rest

/-- Makes a directory and all directories above it. -/
def makeDirectories (fs : FileSystem) (path : String) : Except Error FileSystem := do
  fs.makeAlong (fs.start path) (← route path)

/-- Writes a file into a directory that is there. -/
def writeBytes (fs : FileSystem) (path : String) (content : ByteArray) :
    Except Error FileSystem := do
  let parts ← route path
  let place ← fs.walk (fs.start path) parts.dropLast
  fs.enter place
  let name := parts.getLastD ""
  if name = "" ∨ name = "." ∨ name = ".." then .error .isDirectory
  else
    let place ← follow place name
    match fs.node? place with
    | some .directory => .error .isDirectory
    | _ => .ok (fs.set place (.file content))

/-- Makes the directories above a file. -/
def makeParents (fs : FileSystem) (path : String) : Except Error FileSystem :=
  match Path.parent? path with
  | none => .ok fs
  | some directory => if directory = "" then .ok fs else fs.makeDirectories directory

/-- Writes a file and makes the directories above it. -/
def provide (fs : FileSystem) (path : String) (content : ByteArray) :
    Except Error FileSystem := do
  (← fs.makeParents path).writeBytes path content

/-- Takes a file away. -/
def remove (fs : FileSystem) (path : String) : Except Error FileSystem := do
  let place ← fs.locate path
  match fs.node? place with
  | none => .error .notFound
  | some .directory => .error .isDirectory
  | some (.file _) =>
    .ok { fs with
      nodes := Dict.ofList (fs.nodes.toList.filter fun e => e.1 ≠ "/".intercalate place) }

end FileSystem

end Stencil
