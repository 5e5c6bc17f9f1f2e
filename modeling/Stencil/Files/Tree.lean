import Stencil.Files.Path
/-!
# File trees

A tree holds files by the segments of their paths; a directory is there if a file is in it. A
path is walked segment by segment, starting at the root of the tree (`walk`).
-/

set_option autoImplicit false

namespace Stencil.Files

/-- Files, each under the segments of its path. -/
structure Tree where
  files : List (List (List Char) × ByteArray)

/-- What a path leads to. -/
inductive Entry where
  | file (content : ByteArray)
  | directory (path : List (List Char))

/-- The greatest number of bytes of a segment. -/
def longestSegment : Nat := 255

/-- The greatest number of bytes of a path. -/
def longestPath : Nat := 4095

namespace Tree

/-- The tree of files that are given by their paths. -/
def ofList (files : List (String × ByteArray)) : Tree :=
  ⟨files.map fun (path, content) =>
    ((Path.segments path.toList).filter fun segment => !Path.staysThere segment, content)⟩

/-- What stands at the segments of a path. -/
def entry? (tree : Tree) (path : List (List Char)) : Option Entry :=
  match tree.files.find? fun file => file.1 = path with
  | some file => some (.file file.2)
  | none =>
    if tree.files.any fun file => path.isPrefixOf file.1 then some (.directory path) else none

/-- The number of bytes of a segment. -/
def byteSize (segment : List Char) : Nat := segment.foldr (fun c size => c.utf8Size + size) 0

/-- Walks along segments. The directory above the root of the tree is that root. -/
def walk (tree : Tree) : Entry → List (List Char) → Except Trouble Entry
  | entry, [] => .ok entry
  | .file _, _ :: _ => .error .notADirectory
  | .directory path, segment :: rest =>
    if Path.staysThere segment then tree.walk (.directory path) rest
    else if segment = Path.parentSegment then tree.walk (.directory path.dropLast) rest
    else if longestSegment < byteSize segment then .error .nameTooLong
    else
      match tree.entry? (path ++ [segment]) with
      | none => .error .missing
      | some entry => tree.walk entry rest

/-- What a path leads to. Absolute paths lead out of the tree and find nothing. -/
def find (tree : Tree) (path : String) : Except Trouble Entry :=
  if path.toList.contains '\u0000' then .error .containsNul
  else if longestPath < path.utf8ByteSize then .error .nameTooLong
  else if path.isEmpty || Path.isAbsolute path.toList then .error .missing
  else tree.walk (.directory []) (Path.segments path.toList)

/-- The content of a file. -/
def read (tree : Tree) (path : String) : Except Trouble ByteArray := do
  match ← tree.find path with
  | .file content => return content
  | .directory _ => throw .isADirectory

/-- Whether a path leads to a directory. -/
def isDirectory (tree : Tree) (path : String) : Bool :=
  match tree.find path with
  | .ok (.directory _) => true
  | _ => false

/-- Names in the order of their characters. -/
def sorted (names : List String) : List String :=
  names.mergeSort fun a b => !(b < a : Bool)

/-- Segments with slashes between them. -/
def joined (segments : List (List Char)) : String :=
  String.intercalate "/" (segments.map String.ofList)

/-- The files below a directory that have an extension: their paths from there, sorted. -/
def names (tree : Tree) (directory extension : String) : List String :=
  match tree.find directory with
  | .ok (.directory path) =>
    sorted <|
      (tree.files.filter fun file =>
          path.isPrefixOf file.1
            && (file.1.getLast?.bind Path.extension?) = some extension.toList).map
        fun file => joined (file.1.drop path.length)
  | _ => []

end Tree

end Stencil.Files
