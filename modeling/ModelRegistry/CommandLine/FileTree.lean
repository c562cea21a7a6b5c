/-!
# File trees

The files and directories around a working directory, and what comes of opening a path for reading
or for writing. A path is walked from left to right, from the root or from the working directory;
every component but the last has to name a directory. A file has one place, however it is reached:
there are no links. The directories above the working directory are there in any case.
-/

namespace ModelRegistry.CommandLine

inductive SystemError
  | noSuchFile
  | notDirectory
  | isDirectory
  | nameTooLong
  | other (text : String)
  deriving DecidableEq

def SystemError.message : SystemError → String
  | .noSuchFile => "No such file or directory (os error 2)"
  | .notDirectory => "Not a directory (os error 20)"
  | .isDirectory => "Is a directory (os error 21)"
  | .nameTooLong => "File name too long (os error 36)"
  | .other text => text

/-- What comes of reading a path: it cannot be opened, it can be opened but not read, or it has
content. -/
inductive InputFile
  | unopened (e : SystemError)
  | unreadable (e : SystemError)
  | content (bytes : ByteArray)

inductive FileNode
  | file (bytes : ByteArray)
  | directory

/-- The names that lead from the root to a file or directory. -/
abbrev Place := List String

/-- The files and directories that there are beside the working directory and those above it. -/
structure FileTree where
  nodes : List (Place × FileNode)
  /-- The working directory. -/
  home : Place := []

/-- The directories that a path leads through, its last name, and whether a slash follows it. A path
without a last name leads to a directory. -/
structure Route where
  isAbsolute : Bool
  directories : List String
  target : Option String
  slashed : Bool

namespace Route

def isName (component : String) : Bool :=
  component ≠ "." && component ≠ ".."

def ofPath (path : String) : Route :=
  let components := ((path.toList.splitOn '/').map String.ofList).filter (· ≠ "")
  let target := components.getLast?.filter isName
  { isAbsolute := path.startsWith "/"
    directories := if target.isSome then components.dropLast else components
    target
    slashed := path.endsWith "/" }

end Route

namespace FileTree

def empty : FileTree := { nodes := [] }

def node? (t : FileTree) (place : Place) : Option FileNode :=
  if place.isPrefixOf t.home then some .directory else t.nodes.lookup place

def put (t : FileTree) (place : Place) (node : FileNode) : FileTree :=
  { t with nodes := (place, node) :: t.nodes.filter (·.1 ≠ place) }

/-- A path of this many bytes is too long. -/
def maxPathLength : Nat := 4096

/-- A single name of this many bytes is too long. -/
def maxNameLength : Nat := 256

/-- The place of a name in a directory. -/
def child (directory : Place) (name : String) : Except SystemError Place :=
  if maxNameLength ≤ name.utf8ByteSize then .error .nameTooLong else .ok (directory ++ [name])

def enter (t : FileTree) (directory : Place) (name : String) : Except SystemError Place :=
  match name with
  | "." => .ok directory
  | ".." => .ok directory.dropLast
  | name => do
    let place ← child directory name
    match t.node? place with
    | some .directory => return place
    | some (.file _) => throw .notDirectory
    | none => throw .noSuchFile

/-- The directory that holds the last name of a path. -/
def parent (t : FileTree) (path : String) : Except SystemError Place :=
  if path.isEmpty then .error .noSuchFile
  else if maxPathLength ≤ path.utf8ByteSize then .error .nameTooLong
  else
    let route := Route.ofPath path
    route.directories.foldlM t.enter (if route.isAbsolute then [] else t.home)

def read (t : FileTree) (path : String) : InputFile :=
  let route := Route.ofPath path
  let found : Except SystemError (Option FileNode) := do
    let directory ← t.parent path
    match route.target with
    | none => return some .directory
    | some name => return t.node? (← child directory name)
  match found with
  | .error e => .unopened e
  | .ok none => .unopened .noSuchFile
  | .ok (some .directory) => .unreadable .isDirectory
  | .ok (some (.file bytes)) =>
    if route.slashed then .unopened .notDirectory else .content bytes

/-- Creates or replaces a file. -/
def write (t : FileTree) (path : String) (bytes : ByteArray) : Except SystemError FileTree := do
  let directory ← t.parent path
  let route := Route.ofPath path
  match route.target, route.slashed with
  | some name, false =>
    let place ← child directory name
    match t.node? place with
    | some .directory => throw .isDirectory
    | _ => return t.put place (.file bytes)
  | _, _ => throw .isDirectory

end FileTree

end ModelRegistry.CommandLine
