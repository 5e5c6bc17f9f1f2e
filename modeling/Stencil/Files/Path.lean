/-!
# Paths

A path is a text whose segments stand between slashes. A template has a name that is a path
below a root; a name that could lead out of it is refused.
-/

set_option autoImplicit false

namespace Stencil.Files

/-- Why a file gives no text. -/
inductive Trouble where
  /-- The name of a template that could lead out of the root. -/
  | invalidName (name : String)
  | missing
  | notADirectory
  | isADirectory
  | nameTooLong
  /-- A path with a character that no file name can have. -/
  | containsNul
  /-- A content that is no text. -/
  | notText
  /-- Any other trouble, as the system words it. -/
  | other (text : String)
deriving DecidableEq

/-- The wording of the trouble. -/
def Trouble.message : Trouble → String
  | invalidName name => "invalid template name '" ++ name ++ "'"
  | missing => "No such file or directory (os error 2)"
  | notADirectory => "Not a directory (os error 20)"
  | isADirectory => "Is a directory (os error 21)"
  | nameTooLong => "File name too long (os error 36)"
  | containsNul => "file name contained an unexpected NUL byte"
  | notText => "stream did not contain valid UTF-8"
  | other text => text

namespace Path

/-- The segments of a path. There is one more than there are slashes. -/
def segments : List Char → List (List Char)
  | [] => [[]]
  | c :: rest =>
    if c = '/' then [] :: segments rest
    else
      match segments rest with
      | [] => [[c]]
      | first :: others => (c :: first) :: others

/-- A path always has a segment. -/
theorem segments_ne_nil (path : List Char) : segments path ≠ [] := by
  cases path with
  | nil => simp [segments]
  | cons c rest =>
    by_cases h : c = '/'
    · simp [segments, h]
    · cases hr : segments rest <;> simp [segments, h, hr]

/-- The segment that leads to the directory above. -/
def parentSegment : List Char := ['.', '.']

/-- Whether a segment stays in its directory. -/
def staysThere (segment : List Char) : Bool := segment = [] || segment = ['.']

/-- Whether a path starts at the top of all directories. -/
def isAbsolute (path : List Char) : Bool := path.head? = some '/'

/-- What a path is made of. -/
inductive Component where
  /-- The top of all directories. -/
  | top
  /-- The directory that the path starts from. -/
  | here
  /-- The directory above. -/
  | above
  /-- A file or directory. -/
  | entry (name : List Char)
deriving DecidableEq

/-- What a segment stands for. A segment that stays in its directory stands for nothing. -/
def component? (segment : List Char) : Option Component :=
  if staysThere segment then none
  else if segment = parentSegment then some .above
  else some (.entry segment)

/-- The components of a path. The top of all directories is one, and so is a single dot at the
very beginning; repeated slashes and further dots are none. -/
def components (path : List Char) : List Component :=
  let start : List Component :=
    if isAbsolute path then [.top] else if (segments path).head? = some ['.'] then [.here] else []
  start ++ (segments path).filterMap component?

/-- Whether a component stays where it is or leads further down. -/
def Component.leadsDown : Component → Bool
  | here | entry _ => true
  | top | above => false

/-- Whether the name of a template is a path that cannot lead out of a root. -/
def isInside (name : List Char) : Bool :=
  !name.isEmpty && (components name).all Component.leadsDown

/-- A path behind the path of a directory. -/
def join (directory path : String) : String :=
  if isAbsolute path.toList then path
  else if directory.isEmpty || directory.toList.getLast? = some '/' then directory ++ path
  else directory ++ "/" ++ path

/-- What stands behind the last dot of a file name. A dot at the start does not count. -/
def extension? (name : List Char) : Option (List Char) :=
  let reversed := name.reverse
  match reversed.dropWhile (· ≠ '.') with
  | [] | ['.'] => none
  | _ :: _ => some (reversed.takeWhile (· ≠ '.')).reverse

end Path

/-- The path of a template below a root. -/
def resolve (root name : String) : Except Trouble String :=
  if Path.isInside name.toList then .ok (Path.join root name) else .error (.invalidName name)

end Stencil.Files
