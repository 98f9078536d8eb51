import Std.Time.Format
import Stencil.CommandLine.Run
import Stencil.RandomStream

/-!
# The command line

Reads the files that a run may look at, the clock and the process variables, runs, and writes what
the run leaves behind. A run is done again from the start for each answer of the user; what was
shown before is not shown twice.
-/

namespace Stencil.CommandLine

/-- The bytes of a file of the machine, if it can be read. -/
def readMachineFile (path : String) : IO (Option ByteArray) :=
  try return some (← IO.FS.readBinFile path) catch _ => return none

/-- Takes files of the machine over. -/
def takeOver (fs : FileSystem) (paths : List String) : IO FileSystem :=
  paths.foldlM (fun fs path => do
    match ← readMachineFile path with
    | some content => return (fs.provide path content).toOption.getD fs
    | none => return fs) fs

/-- The variables of the process. -/
def processVariables : IO (Dict String) := do
  match ← readMachineFile "/proc/self/environ" with
  | none => return .empty
  | some content =>
    let entries := Text.splitAtChar '\x00' ((String.fromUTF8? content).getD "").toList
    return Dict.ofList <| (entries.filterMap (Text.cutChar? '=')).map fun (name, value) =>
      (String.ofList name, String.ofList value)

/-- The place of the current directory. -/
def currentPlace : IO (List String) := do
  return (Path.parts ((← IO.getEnv "PWD").getD "")).filter (· ≠ "")

/-- A number to begin random streams with. -/
def randomSeed : IO Nat := do
  return (← IO.getRandomBytes 8).foldl (fun n b => 256 * n + b.toNat) 0

/-- The time zone of the machine at a time, in seconds east of Greenwich. -/
def localZone (t : Std.Time.Timestamp) : IO Int :=
  try
    let rules ← Std.Time.Database.defaultGetLocalZoneRules
    return (rules.timezoneAt t).offset.second.val
  catch _ => return 0

/-- What surrounds a run on this machine. -/
def machine (o : Options) : IO Surroundings := do
  let time ← Std.Time.Timestamp.now
  let nanos := time.toNanosecondsSinceUnixEpoch.val
  let place ← currentPlace
  let process ← processVariables
  let seed ← randomSeed
  let files ← takeOver (FileSystem.empty place) (firstFiles o)
  let files ← takeOver files (settingFiles o files)
  return {
    now := ⟨nanos / 1000000000, (nanos % 1000000000).toNat⟩
    zone := ← localZone time
    process := process.get?
    files
    directory := "/" ++ "/".intercalate place
    prompter := none
    random := RandomStream.number seed
    toAscii? := Url.Domain.toAscii? }

/-- Runs with the lines that the user has typed, and reads the next one where it is asked for;
`shown` characters of the remarks have been shown. -/
partial def converse (o : Options) (s : Surroundings) (lines : List (List Char)) (shown : Nat)
    (ended : Bool) : IO Outcome := do
  let outcome := run o { s with prompter := some (terminal lines) }
  if ended || outcome.journal.asked ≤ lines.length then
    IO.eprint (String.ofList (outcome.remarks.toList.drop shown))
    return outcome
  else
    let remarks := (outcome.remarksBefore lines.length).toList
    IO.eprint (String.ofList (remarks.drop shown))
    let line ← (← IO.getStdin).getLine
    let lines := if line = "" then lines else lines ++ [line.toList]
    converse o s lines remarks.length (line = "")

/-- The file of the session and its content, if a run has changed it. -/
def changedSession? (o : Options) (before after : FileSystem) : Option (String × ByteArray) := do
  let path ← o.session?
  let content ← (after.readBytes path).toOption
  if (before.readBytes path).toOption == some content then none else some (path, content)

/-- Writes a file of the machine and makes the directories above it. -/
def writeMachineFile (path : String) (content : ByteArray) : IO Unit := do
  match Path.parent? path with
  | none | some "" => IO.FS.writeBinFile path content
  | some directory =>
    IO.FS.createDirAll directory
    IO.FS.writeBinFile path content

/-- Does what options ask for on this machine and gives the exit code. -/
def execute (o : Options) : IO UInt32 := do
  let s ← machine o
  let outcome ← converse o s [] 0 false
  if let some (path, content) := changedSession? o s.files outcome.files then
    writeMachineFile path content
  IO.print outcome.printed
  return UInt32.ofNat outcome.code

end Stencil.CommandLine

/-- The program: its arguments name a request file, whose placeholders it resolves. -/
def main (arguments : List String) : IO UInt32 := do
  match Stencil.CommandLine.parse? arguments with
  | some .version =>
    IO.print Stencil.CommandLine.versionLine
    return 0
  | some (.resolve options) => Stencil.CommandLine.execute options
  | none =>
    IO.eprintln "error: the arguments are a request file and options"
    return 2
