import Stencil.Files.Path
/-!
# Commands

What the program can be told to do, and how that is read from its arguments. Options may stand
before, between and behind the other arguments, and take their value from behind an equals sign
or from the next argument.
-/

set_option autoImplicit false

namespace Stencil.Cli

/-- Where data comes from. -/
inductive Data where
  | none
  /-- A JSON file. -/
  | file (path : String)
  /-- A JSON text. -/
  | inline (text : String)
deriving DecidableEq

/-- What the program can be told to do. -/
inductive Command where
  /-- Render a template of a root directory. -/
  | render (name root : String) (data : Data)
  /-- Write the tree of a template or a script as JSON. -/
  | parse (file : String) (positions script : Bool)
  /-- Write a template or a script in canonical form. -/
  | format (file : String) (script : Bool)
  /-- Look for problems in the templates of a directory. -/
  | check (directory extension : String) (lint : Bool)
  /-- List the templates that a template refers to. -/
  | references (name root : String)
deriving DecidableEq

/-- The arguments of a command, taken apart. -/
structure Arguments where
  /-- The arguments that are not options. -/
  plain : List String := []
  /-- Options with a value. -/
  values : List (String × String) := []
  /-- Options without a value. -/
  flags : List String := []

namespace Arguments

/-- Adds an argument that is not an option, before the others. -/
def addPlain (arguments : Arguments) (argument : String) : Arguments :=
  { arguments with plain := argument :: arguments.plain }

/-- Adds an option with a value. No option may be given twice. -/
def addValue (arguments : Arguments) (name value : String) : Option Arguments :=
  if arguments.values.any (·.1 = name) then none
  else some { arguments with values := (name, value) :: arguments.values }

/-- Adds an option without a value. No option may be given twice. -/
def addFlag (arguments : Arguments) (name : String) : Option Arguments :=
  if arguments.flags.contains name then none
  else some { arguments with flags := name :: arguments.flags }

/-- The name of an option, and the value behind its equals sign. -/
def option? (argument : String) : Option (String × Option String) :=
  match argument.toList with
  | '-' :: '-' :: text =>
    let name := text.takeWhile (· ≠ '=')
    let value :=
      match text.dropWhile (· ≠ '=') with
      | [] => none
      | _ :: value => some (String.ofList value)
    some (String.ofList name, value)
  | _ => none

/-- Whether an argument looks like an option. A single dash does not. -/
def looksLikeOption (argument : String) : Bool :=
  argument.toList.head? = some '-' && argument.length ≠ 1

/-- Takes arguments apart; `valued` and `flags` are the options that are known. -/
def parse? (valued flags : List String) : List String → Option Arguments
  | [] => some {}
  | "--" :: rest => some { plain := rest }
  | argument :: rest =>
    if looksLikeOption argument then
      match option? argument, rest with
      | some (name, some value), rest =>
        if valued.contains name then (parse? valued flags rest).bind (·.addValue name value) else none
      | some (name, none), rest =>
        if flags.contains name then (parse? valued flags rest).bind (·.addFlag name)
        else if valued.contains name then
          match rest with
          | [] => none
          | value :: rest =>
            if looksLikeOption value then none
            else (parse? valued flags rest).bind (·.addValue name value)
        else none
      | none, _ => none
    else (parse? valued flags rest).map (·.addPlain argument)

/-- The value of an option. -/
def value? (arguments : Arguments) (name : String) : Option String :=
  (arguments.values.find? fun entry => entry.1 = name).map (·.2)

/-- Whether an option without a value is given. -/
def has (arguments : Arguments) (name : String) : Bool := arguments.flags.contains name

/-- The only argument that is not an option. -/
def only? (arguments : Arguments) : Option String :=
  match arguments.plain with
  | [argument] => some argument
  | _ => none

/-- A path, which may not be empty. -/
def path? (path : String) : Option String := if path.isEmpty then none else some path

/-- The root directory: the present directory, if no other is given. -/
def root? (arguments : Arguments) : Option String :=
  path? ((arguments.value? "root").getD ".")

/-- The data; it is given in one way at most. -/
def data? (arguments : Arguments) : Option Data :=
  match arguments.value? "data", arguments.value? "json" with
  | none, none => some .none
  | some path, none => (path? path).map .file
  | none, some text => some (.inline text)
  | some _, some _ => none

end Arguments

/-- Reads a command from the arguments of the program. -/
def Command.ofArguments? : List String → Option Command
  | "render" :: rest => do
    let arguments ← Arguments.parse? ["root", "data", "json"] [] rest
    return .render (← arguments.only?) (← arguments.root?) (← arguments.data?)
  | "parse" :: rest => do
    let arguments ← Arguments.parse? [] ["positions", "script"] rest
    let file ← Arguments.path? (← arguments.only?)
    return .parse file (arguments.has "positions") (arguments.has "script")
  | "fmt" :: rest => do
    let arguments ← Arguments.parse? [] ["script"] rest
    return .format (← Arguments.path? (← arguments.only?)) (arguments.has "script")
  | "check" :: rest => do
    let arguments ← Arguments.parse? ["ext"] ["lint"] rest
    let directory ← Arguments.path? (← arguments.only?)
    return .check directory ((arguments.value? "ext").getD "tmpl") (arguments.has "lint")
  | "deps" :: rest => do
    let arguments ← Arguments.parse? ["root"] [] rest
    return .references (← arguments.only?) (← arguments.root?)
  | _ => none

end Stencil.Cli
