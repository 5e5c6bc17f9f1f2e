import Stencil.Analysis.Findings
import Stencil.Cli.Command
import Stencil.Error.Report
import Stencil.Files.Access
import Stencil.Json.Reader
import Stencil.Parse
import Stencil.Print.Source
import Stencil.Render.Renderer
import Stencil.Syntax.Encoding
import Stencil.Value.Basic
/-!
# Running commands

A command reads files and standard input through a `Shell`, and its result is an `Outcome`: what
it writes and the code it exits with. The shell may be one of a computer or one of a file tree.
-/

set_option autoImplicit false

namespace Stencil.Cli

open Stencil.Error (ParseError)
open Stencil.Files (Access Trouble)

/-! ## Durations -/

/-- A number of parts, `10 ^ places` of which make a whole, with a decimal point. -/
def withPoint (places parts : Nat) : String :=
  let fraction := Nat.toDigits 10 (parts % Nat.pow 10 places)
  String.ofList
    (Nat.toDigits 10 (parts / Nat.pow 10 places) ++ '.' ::
      (List.replicate (places - fraction.length) '0' ++ fraction))

/-- A quotient rounded to the nearest number. -/
def rounded (value unit : Nat) : Nat := (value + unit / 2) / unit

/-- A duration, given in microseconds. -/
def durationText (micros : Nat) : String :=
  if micros < 1000 then String.ofList (Nat.toDigits 10 micros) ++ "μs"
  else if micros < 1000000 then withPoint 1 (rounded micros 100) ++ "ms"
  else withPoint 2 (rounded micros 10000) ++ "s"

/-! ## Shells and outcomes -/

/-- What commands run in. -/
structure Shell (m : Type → Type) extends Access m where
  /-- All that stands in standard input. -/
  input : m ByteArray
  /-- The time since the command was started, as text. -/
  elapsed : m String

/-- The result of a command. -/
structure Outcome where
  code : Nat
  /-- What is written to standard output. -/
  output : String := ""
  /-- What is written to standard error. -/
  errors : String := ""
deriving DecidableEq

namespace Outcome

/-- The result of a command that wrote a text. -/
def success (output : String) : Outcome := { code := 0, output }

/-- The result of a command that failed with a text behind what it had reported. -/
def failure (errors : String) : Outcome := { code := 1, errors }

/-- The result of a command that failed with a message. -/
def error (message : String) : Outcome := failure ("Error: " ++ message ++ "\n")

/-- The result of a command that was not understood. -/
def misuse : Outcome :=
  { code := 2
    errors := "usage: stencil (render | parse | fmt | check | deps) ARGUMENT [OPTIONS]\n" }

end Outcome

/-- The options with which sources are parsed. -/
def strictness (positions : Bool) : Grammar.Options := ⟨positions, false⟩

/-- A number in decimal digits. -/
def digits (n : Nat) : String := String.ofList (Nat.toDigits 10 n)

section

variable {m : Type → Type} [Monad m] (shell : Shell m)

/-! ## Reading -/

/-- The text of a file, or of standard input where the path is a dash. -/
def readSource (path : String) : m (Except String String) := do
  if path = "-" then
    return (Files.textOf (← shell.input)).mapError fun trouble =>
      "failed to read stdin: " ++ trouble.message
  else
    return (← shell.readText path).mapError fun trouble =>
      "failed to read " ++ path ++ ": " ++ trouble.message

/-- The value of a JSON text, and a number above those of its arrays and objects. -/
def valueOf (text : String) : Except String (Value × Nat) :=
  match Json.read text with
  | .ok json => .ok ((Value.ofJson json).run 0)
  | .error e => .error ("invalid JSON data: " ++ e.message)

/-- The data to render with; without any it is an empty object. -/
def readData : Data → m (Except String (Value × Nat))
  | .none => return .ok (.object 0 [], 1)
  | .inline text => return valueOf text
  | .file path => do
    match ← readSource shell path with
    | .ok text => return valueOf text
    | .error message => return .error message

/-! ## Rendering -/

/-- The result of a rendering that gave no text. -/
def ofFailure : Render.Failure → Outcome
  | .failed error => .failure (error.text ++ "\n")
  | .exhausted => .error "the templates are nested too deep"

/-- Renders a template. -/
def renderTemplate (name root : String) (data : Data) : m Outcome := do
  match ← readData shell data with
  | .error message => return .error message
  | .ok (value, fresh) =>
    let (result, _) ← shell.run root (Render.render { root } name value fresh)
    match result with
    | .ok text => return .success text
    | .error failure => return ofFailure failure

/-- Lists the templates that can be reached from a template, each with those it refers to. -/
def listReferences (name root : String) : m Outcome := do
  let (result, cache) ← shell.run root (Render.preload { root } name)
  match result with
  | .error failure => return ofFailure failure
  | .ok _ =>
    let lines := (cache.listing name).flatMap fun (name, references) =>
      (name ++ "\n") :: references.map fun reference => "  -> " ++ reference ++ "\n"
    return .success (String.join lines)

/-! ## Trees -/

/-- Reads a template or a script and writes something about its tree. -/
def withTree (file : String) (script : Bool) (positions : Bool)
    (ofTemplate : Syntax.Template → String) (ofScript : Syntax.Program → String) :
    m Outcome := do
  match ← readSource shell file with
  | .error message => return .error message
  | .ok source =>
    let text :=
      if script then (parseScript (strictness positions) source).map ofScript
      else (parseTemplate (strictness positions) source).map ofTemplate
    match text with
    | .ok text => return .success text
    | .error e => return .failure (e.report source file)

/-- Writes the tree of a template or a script. -/
def writeTree (file : String) (positions script : Bool) : m Outcome :=
  withTree shell file script positions
    (fun t => (Syntax.Encoding.ofTemplate .plain t).pretty 0 ++ "\n")
    (fun p => (Syntax.Encoding.ofProgram .plain p).pretty 0 ++ "\n")

/-- Writes a template or a script in canonical form. -/
def writeFormatted (file : String) (script : Bool) : m Outcome :=
  withTree shell file script false
    (fun t => (Print.ofTemplate Print.defaultStyle t).code)
    (fun p => (Print.ofProgram Print.defaultStyle p).code)

/-! ## Checking -/

/-- What was found so far in a check. -/
structure Tally where
  report : String := ""
  problems : Nat := 0

/-- Adds problems. -/
def Tally.add (tally : Tally) (texts : List String) : Tally :=
  ⟨tally.report ++ String.join texts, tally.problems + texts.length⟩

/-- A violation in one line. -/
def violationLine (file : String) (violation : Violation) : String :=
  let (line, column) := (violation.span.map Render.placeOf).getD (0, 0)
  file ++ ":" ++ digits line ++ ":" ++ digits column ++ ": " ++ violation.restriction.message ++ "\n"

/-- The problems of a source. -/
def problemsOf (lint : Bool) (file source : String) : List String :=
  match parseTemplate (strictness true) source with
  | .error e => [e.report source file]
  | .ok t => if lint then t.violations.map (violationLine file) else []

/-- Checks files of a directory one after the other. A file that cannot be read ends it. -/
def checkFiles (directory : String) (lint : Bool) : List String → Tally → m (Except Outcome Tally)
  | [], tally => return .ok tally
  | name :: rest, tally => do
    let file := Files.Path.join directory name
    match ← readSource shell file with
    | .error message => return .error (.failure (tally.report ++ "Error: " ++ message ++ "\n"))
    | .ok source => checkFiles directory lint rest (tally.add (problemsOf lint file source))

/-- A number of things. -/
def counted (count : Nat) (thing : String) : String :=
  digits count ++ " " ++ thing ++ if count = 1 then "" else "s"

/-- The last line of a check. -/
def summary (files problems : Nat) (elapsed : String) : String :=
  "\n" ++ (if problems = 0 then "✓" else "✗") ++ " Checked " ++ counted files "template" ++ " in "
    ++ elapsed ++ ", " ++ counted problems "problem" ++ "\n"

/-- Checks the templates of a directory. -/
def checkDirectory (directory extension : String) (lint : Bool) : m Outcome := do
  if !(← shell.isDirectory directory) then
    return .error (directory ++ " is not a directory")
  let names ← shell.names directory extension
  if names.isEmpty then
    return .error ("no ." ++ extension ++ " files found in " ++ directory)
  match ← checkFiles shell directory lint names {} with
  | .error outcome => return outcome
  | .ok tally =>
    return {
      code := if tally.problems = 0 then 0 else 1
      errors := tally.report ++ summary names.length tally.problems (← shell.elapsed) }

/-- Runs a command. -/
def Command.run : Command → m Outcome
  | .render name root data => renderTemplate shell name root data
  | .parse file positions script => writeTree shell file positions script
  | .format file script => writeFormatted shell file script
  | .check directory extension lint => checkDirectory shell directory extension lint
  | .references name root => listReferences shell name root

/-- Runs the program with arguments. -/
def run (arguments : List String) : m Outcome :=
  match Command.ofArguments? arguments with
  | some command => command.run shell
  | none => return .misuse

end

/-- The shell of a file tree. The time is given as a text. -/
def treeShell (tree : Files.Tree) (input : ByteArray) (elapsed : String) : Shell Id where
  toAccess := tree.access
  input := input
  elapsed := elapsed

end Stencil.Cli
