import Stencil.Cli.Run
/-!
# The program

The outer layer of the command line: it reads files and standard input, and writes what the
command gives.
-/

set_option autoImplicit false

namespace Stencil.Program

open Stencil.Files (Trouble)

/-- The trouble that an error of the system stands for. -/
def troubleOf : IO.Error → Trouble
  | .noFileOrDirectory .. => .missing
  | .inappropriateType _ code _ =>
    if code = 21 || code = -21 then .isADirectory else .notADirectory
  | .invalidArgument _ code details =>
    if code = 36 || code = -36 then .nameTooLong else .other details
  | error => .other error.toString

/-- Reads a file. -/
def readBytes (path : String) : IO (Except Trouble ByteArray) := do
  match ← (IO.FS.readBinFile path).toBaseIO with
  | .ok content => return .ok content
  | .error error => return .error (troubleOf error)

/-- Whether a path is that of a directory. -/
def isDirectoryPath (path : String) : IO Bool := do
  if path.isEmpty then return false
  return (← ((← IO.currentDir) / path).isDir)

/-- The files below a directory, each as the names on the way to it. -/
partial def filesBelow (path : String) (above : List (List Char)) : IO (List (List (List Char))) := do
  let entries ← (((← IO.currentDir) / path).readDir).toBaseIO
  match entries with
  | .error _ => return []
  | .ok entries =>
    let mut found := []
    for entry in entries do
      let here := Files.Path.join path entry.fileName
      let names := above ++ [entry.fileName.toList]
      if ← isDirectoryPath here then found := found ++ (← filesBelow here names)
      else found := found ++ [names]
    return found

/-- All that stands in a stream. -/
partial def readAll (stream : IO.FS.Stream) (before : ByteArray) : IO ByteArray := do
  let chunk ← stream.read 65536
  if chunk.isEmpty then return before else readAll stream (before ++ chunk)

/-- The shell of this computer. The time is counted in nanoseconds from the given one. -/
def computer (start : Nat) : Cli.Shell IO where
  read := readBytes
  isDirectory := isDirectoryPath
  names directory extension := do
    let files ← filesBelow directory []
    let tree : Files.Tree := ⟨files.map fun names => (names, ByteArray.empty)⟩
    return tree.names "." extension
  input := do readAll (← IO.getStdin) ByteArray.empty
  elapsed := do return Cli.durationText (((← IO.monoNanosNow) - start) / 1000)

end Stencil.Program

/-- Runs a command and exits with its code. -/
def main (arguments : List String) : IO UInt32 := do
  let start ← IO.monoNanosNow
  let outcome ← Stencil.Cli.run (Stencil.Program.computer start) arguments
  (← IO.getStdout).putStr outcome.output
  (← IO.getStderr).putStr outcome.errors
  return outcome.code.toUInt32
