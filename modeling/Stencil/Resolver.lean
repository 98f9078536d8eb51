import Stencil.FileVariables
import Stencil.RequestChain
import Stencil.SystemFunction
import Stencil.Template
import Stencil.Text.Percent

/-!
# Resolving templates

A resolver replaces the placeholders of a text by the values of their expressions. An expression is
looked up in this order: a dollar sign calls a system function; the shape of a reference to a
request leads to the captured responses; then come the variables of the file and those of the
environments, whose values are templates themselves. A percent sign in front percent-encodes the
value. A value that was found is kept under its exact expression and never looked up again. An
expression without a value is left in the text as it stands.

Values nest at most `depthLimit` deep: a value that lies deeper and holds placeholders is an error
that ends the whole expression at the top, whatever else it is made of.
-/

namespace Stencil

open Text

namespace Resolver

/-- What the names in expressions stand for. -/
structure Bindings where
  scope : EnvironmentScope
  /-- The directory of the settings files, if it is not the current one. -/
  baseDirectory : Option String
  declared : FileVariables
  responses : RequestChain

/-- What changes while expressions are resolved: the values found so far and the journal. -/
structure State where
  cache : Dict String
  journal : Journal

/-- A step of resolving: a value or an error, and the state after it. -/
abbrev Step (α : Type) := State → Except LookupError α × State

/-- How deep values nest that hold placeholders. -/
def depthLimit : Nat := 32

namespace Bindings

/-- What system functions know. -/
def context (b : Bindings) : SystemContext := ⟨b.scope, b.baseDirectory⟩

end Bindings

/-! ## Expressions -/

/-- Calls a system function. -/
def callSystem (b : Bindings) (s : Surroundings) (expression : String) : Step String :=
  fun st =>
    let (result, journal) := SystemFunction.call b.context s expression st.journal
    (result.map Variable.value, { st with journal })

/-- The warnings of a variable that was found under an expression. -/
def warnings (expression : String) (v : Variable) : List String :=
  match v.warning with
  | some remark => [s!"{expression}: {remark}"]
  | none => []

/-- Looks up an expression without its percent sign; `nested` evaluates the template that a name
stands for. -/
def lookup (b : Bindings) (s : Surroundings) (nested : String → Step String)
    (expression : String) : Step String :=
  fun st =>
    if expression = "" then (.error (.invalidSyntax .emptyExpression), st)
    else if expression.toList.head? = some '$' then callSystem b s expression st
    else if RequestChain.isReference expression then (b.responses.resolve expression, st)
    else
      match b.declared.get? expression with
      | some value => nested value st
      | none =>
        match b.scope.get expression with
        | .error e => (.error e, st)
        | .ok v =>
          nested v.value { st with journal := st.journal.warn (warnings expression v) }

/-- An expression without its percent sign, and whether it has one. -/
def stripPercent (expression : String) : String × Bool :=
  match expression.toList with
  | '%' :: r => (String.ofList (trimStart r), true)
  | _ => (expression, false)

/-- A value as it is put into the text. -/
def encodeIf (encoded : Bool) (value : String) : String :=
  if encoded then String.ofList (Percent.encode value.toList) else value

/-- The value of an expression: the one that is kept, or the one that is looked up, which is kept
from then on. -/
def resolveWith (b : Bindings) (s : Surroundings) (nested : String → Step String)
    (expression : String) : Step String :=
  fun st =>
    match st.cache.get? expression with
    | some value => (.ok value, st)
    | none =>
      let (name, encoded) := stripPercent expression
      match lookup b s nested name st with
      | (.error e, st) => (.error e, st)
      | (.ok value, st) =>
        let value := encodeIf encoded value
        (.ok value, { st with cache := st.cache.insert expression value })

/-! ## Templates -/

/-- Puts a text in front of a result. -/
def prepend (front : List Char) : Except LookupError (List Char) × State →
    Except LookupError (List Char) × State
  | (.ok rest, st) => (.ok (front ++ rest), st)
  | (.error e, st) => (.error e, st)

/-- Replaces the placeholders among the pieces of a nested value. Too deep a nesting ends the
value; other errors leave their placeholder as it stands. -/
def expandNested (resolve : String → Step String) : List (Piece (List Char)) → Step (List Char)
  | [], st => (.ok [], st)
  | .char c :: rest, st => prepend [c] (expandNested resolve rest st)
  | .span inner :: rest, st =>
    match resolve (Template.expression inner) st with
    | (.ok value, st) => prepend value.toList (expandNested resolve rest st)
    | (.error (.recursionLimit text), st) => (.error (.recursionLimit text), st)
    | (.error _, st) => prepend (Template.write inner) (expandNested resolve rest st)

/-- Evaluates the value of a name where values may nest `room` deep. -/
def nested (b : Bindings) (s : Surroundings) : (room : Nat) → String → Step String
  | 0, text, st =>
    if occurs ['{', '{'] text.toList then (.error (.recursionLimit text), st) else (.ok text, st)
  | room + 1, text, st =>
    match expandNested (resolveWith b s (nested b s room)) (Template.pieces text) st with
    | (.ok cs, st) => (.ok (String.ofList cs), st)
    | (.error e, st) => (.error e, st)

/-- The value of an expression at the top of a text. -/
def resolveTop (b : Bindings) (s : Surroundings) (expression : String) : Step String :=
  resolveWith b s (nested b s depthLimit) expression

/-- Replaces the placeholders among the pieces of a text; all errors leave their placeholder as it
stands. -/
def expand (resolve : String → Step String) :
    List (Piece (List Char)) → State → List Char × State
  | [], st => ([], st)
  | .char c :: rest, st =>
    let (cs, st) := expand resolve rest st
    (c :: cs, st)
  | .span inner :: rest, st =>
    match resolve (Template.expression inner) st with
    | (.ok value, st) =>
      let (cs, st) := expand resolve rest st
      (value.toList ++ cs, st)
    | (.error _, st) =>
      let (cs, st) := expand resolve rest st
      (Template.write inner ++ cs, st)

end Resolver

/-! ## Resolvers -/

/-- A resolver: what names stand for, and the values found so far. -/
structure Resolver where
  bindings : Resolver.Bindings
  cache : Dict String

namespace Resolver

/-- A resolver of a table, in which an environment is selected. -/
def new (table : EnvironmentTable) (current : String) : Resolver :=
  ⟨⟨⟨table, current⟩, none, .empty, .empty⟩, .empty⟩

/-- Sets the directory of the settings files. -/
def withBaseDirectory (r : Resolver) (directory : String) : Resolver :=
  { r with bindings := { r.bindings with baseDirectory := some directory } }

/-- Declares a variable of the file; backslash escapes in its value are decoded. -/
def declare (r : Resolver) (name value : String) : Resolver :=
  { r with bindings := { r.bindings with declared := r.bindings.declared.declare name value } }

/-- Sets a variable of the file to a value as it is. -/
def setVariable (r : Resolver) (name value : String) : Resolver :=
  { r with bindings := { r.bindings with declared := r.bindings.declared.insert name value } }

/-- Captures the response to a request. -/
def setResponse (r : Resolver) (name : String) (response : Response) : Resolver :=
  { r with bindings := { r.bindings with responses := r.bindings.responses.set name response } }

/-- Forgets all values found so far. -/
def clearCache (r : Resolver) : Resolver := { r with cache := .empty }

/-- Replaces the placeholders of a text that have values. -/
def process (r : Resolver) (s : Surroundings) (text : String) (journal : Journal) :
    String × Resolver × Journal :=
  let (cs, st) := expand (resolveTop r.bindings s) (Template.pieces text) ⟨r.cache, journal⟩
  (String.ofList cs, { r with cache := st.cache }, st.journal)

/-- The value of an expression, or the reason why it has none. -/
def resolveExpression (r : Resolver) (s : Surroundings) (expression : String)
    (journal : Journal) : Except LookupError String × Resolver × Journal :=
  let (result, st) := resolveTop r.bindings s (trimText expression) ⟨r.cache, journal⟩
  (result, { r with cache := st.cache }, st.journal)

end Resolver

end Stencil
