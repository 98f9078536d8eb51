import Stencil.Text.Blank
import Stencil.Text.Search

/-!
# Options of the command line

The arguments of a run: the request file, given as it is or by `-f` and `--file`, and options. The
value of an option stands behind its long name and an equals sign, behind its letter, or in the
next argument, which then may not begin with a hyphen. Every option may stand once, `--var` as
often as one likes. Two hyphens end the options. Arguments are read in order; the first fault ends
the reading, and so does the question for the version.
-/

namespace Stencil.CommandLine

open Text

/-- What a run is asked to do. -/
structure Options where
  file : String
  environment? : Option String
  /-- The variables to declare, with their names. -/
  assignments : List (String × String)
  /-- The file of the session. -/
  session? : Option String
  url? : Option String
  /-- Whether placeholders that are left are an error. -/
  strict : Bool
  deriving Repr, DecidableEq

/-- What the arguments ask for. -/
inductive Command where
  | version
  | resolve (options : Options)
  deriving Repr, DecidableEq

/-- The options that take a value. -/
inductive Key where
  | file
  | environment
  | assignment
  | session
  | url
  deriving Repr, DecidableEq

/-- The options read so far. -/
structure Draft where
  argument? : Option String := none
  file? : Option String := none
  environment? : Option String := none
  assignments : List (String × String) := []
  session? : Option String := none
  url? : Option String := none
  strict : Bool := false
  deriving Repr, DecidableEq

/-! ## Single options -/

/-- The option with a long name. -/
def Key.ofName? : String → Option Key
  | "file" => some .file
  | "env" => some .environment
  | "var" => some .assignment
  | "session" => some .session
  | "url" => some .url
  | _ => none

/-- The option with a letter. -/
def Key.ofLetter? : Char → Option Key
  | 'f' => some .file
  | 'e' => some .environment
  | _ => none

/-- A value that may be set once. -/
def once {α : Type} (before : Option α) (value : α) : Option (Option α) :=
  match before with
  | none => some (some value)
  | some _ => none

/-- The path that a value is; it may not be empty. -/
def path? (value : String) : Option String := if value = "" then none else some value

/-- The name and the value of an assignment; the name may not be blank. -/
def assignment? (value : String) : Option (String × String) := do
  let (name, value) ← cutChar? '=' value.toList
  let name := trim name
  if name = [] then none else some (String.ofList name, String.ofList value)

namespace Draft

/-- Sets the value of an option. -/
def set (d : Draft) (key : Key) (value : String) : Option Draft :=
  match key with
  | .file => do pure { d with file? := ← once d.file? (← path? value) }
  | .environment => do pure { d with environment? := ← once d.environment? value }
  | .assignment => do pure { d with assignments := d.assignments ++ [← assignment? value] }
  | .session => do pure { d with session? := ← once d.session? (← path? value) }
  | .url => do pure { d with url? := ← once d.url? value }

/-- Sets the argument that is no option. -/
def setArgument (d : Draft) (value : String) : Option Draft := do
  pure { d with argument? := ← once d.argument? (← path? value) }

/-- Asks for strictness. -/
def setStrict (d : Draft) : Option Draft := if d.strict then none else some { d with strict := true }

/-- The options, if there is exactly one request file. -/
def finish (d : Draft) : Option Options :=
  match d.argument?, d.file? with
  | some file, none | none, some file =>
    some ⟨file, d.environment?, d.assignments, d.session?, d.url?, d.strict⟩
  | _, _ => none

end Draft

/-! ## Arguments -/

/-- The form of an argument. -/
inductive Form where
  /-- The two hyphens that end the options. -/
  | ending
  /-- A long name, and the value behind an equals sign. -/
  | long (name : String) (value? : Option String)
  /-- A letter, and what stands behind it. -/
  | short (letter : Char) (rest : List Char)
  | plain
  deriving Repr, DecidableEq

/-- The form of an argument. -/
def form (argument : String) : Form :=
  match argument.toList with
  | ['-', '-'] => .ending
  | '-' :: '-' :: r =>
    match cutChar? '=' r with
    | some (name, value) => .long (String.ofList name) (some (String.ofList value))
    | none => .long (String.ofList r) none
  | '-' :: c :: r => .short c r
  | _ => .plain

/-- The value that stands behind a letter in the same argument. -/
def attached? : List Char → Option String
  | [] => none
  | '=' :: r => some (String.ofList r)
  | r => some (String.ofList r)

/-- Reads arguments behind the two hyphens that end the options. -/
def readPlain (d : Draft) : List String → Option Command
  | [] => d.finish.map .resolve
  | argument :: rest => do readPlain (← d.setArgument argument) rest

/-- Reads arguments. -/
def read (d : Draft) : List String → Option Command
  | [] => d.finish.map .resolve
  | argument :: rest =>
    let withKey (key : Key) (value? : Option String) : Option Command :=
      match value? with
      | some value => do read (← d.set key value) rest
      | none =>
        match rest with
        | [] => none
        | value :: rest =>
          if form value = .plain then do read (← d.set key value) rest else none
    match form argument with
    | .ending => readPlain d rest
    | .long name value? =>
      if name = "strict" then
        if value?.isSome then none else do read (← d.setStrict) rest
      else if name = "version" then
        if value?.isSome then none else some .version
      else do withKey (← Key.ofName? name) value?
    | .short letter behind =>
      if letter = 'V' then some .version
      else do withKey (← Key.ofLetter? letter) (attached? behind)
    | .plain => do read (← d.setArgument argument) rest

/-- What arguments ask for, if they are well formed. -/
def parse? (arguments : List String) : Option Command := read {} arguments

end Stencil.CommandLine
