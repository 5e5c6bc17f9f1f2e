import Stencil.Files.Tree
import Stencil.Render.Schedule
/-!
# Access to files

`Access` is what has to be known of a file system: how a file is read, what is a directory, and
which files are in it. A tree of files is one, and so is the file system of a computer.
-/

set_option autoImplicit false

namespace Stencil.Files

open Stencil.Render (Cache Cause Process)

/-- How files are reached. -/
structure Access (m : Type → Type) where
  read : (path : String) → m (Except Trouble ByteArray)
  isDirectory : (path : String) → m Bool
  /-- The files below a directory that have an extension: their paths from there, sorted. -/
  names : (directory extension : String) → m (List String)

/-- The access to the files of a tree. -/
def Tree.access (tree : Tree) : Access Id where
  read path := tree.read path
  isDirectory path := tree.isDirectory path
  names directory extension := tree.names directory extension

/-- The text of a content. -/
def textOf (content : ByteArray) : Except Trouble String :=
  match String.fromUTF8? content with
  | some text => .ok text
  | none => .error .notText

namespace Access

variable {m : Type → Type} [Monad m]

/-- The text of a file. -/
def readText (access : Access m) (path : String) : m (Except Trouble String) := do
  return (← access.read path).bind textOf

/-- The source of a template below a root. -/
def load (access : Access m) (root name : String) : m (Except Trouble String) :=
  match resolve root name with
  | .ok path => access.readText path
  | .error trouble => return .error trouble

/-- The source of a template below a root, for a rendering. -/
def source (access : Access m) (root name : String) : m (Except Cause String) := do
  return (← access.load root name).mapError fun trouble => { text := trouble.message }

/-- Runs a process whose templates are files, starting with an empty cache. -/
def run {α : Type} (access : Access m) (root : String) (process : Process α) : m (α × Cache) :=
  process.runAlone (access.source root) .empty

end Access

end Stencil.Files
