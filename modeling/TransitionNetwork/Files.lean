/-!
Files by their path, as far as a command reads them.

A directory is a list of entries with paths relative to it. Reading follows the path name by name, so
a path below a file and a path that names a directory fail in their own ways.
-/

namespace TransitionNetwork

/-- Why a file cannot be read. -/
inductive FileError
  | notFound
  | isDirectory
  | notDirectory
  | notText
  /-- Any other reason, in the words of the system. -/
  | system (reason : String)
  deriving DecidableEq, Repr

def FileError.message : FileError → String
  | notFound => "No such file or directory (os error 2)"
  | isDirectory => "Is a directory (os error 21)"
  | notDirectory => "Not a directory (os error 20)"
  | notText => "stream did not contain valid UTF-8"
  | system reason => reason

/-- The content of a path. -/
inductive FileEntry
  | text (content : String)
  /-- A file that is not text. -/
  | binary
  | directory
  deriving DecidableEq, Repr, Inhabited

/-- How the content of paths is found. -/
abbrev FileReader := String → Except FileError String

structure Directory where
  entries : List (String × FileEntry) := []
  deriving Repr, Inhabited

namespace Directory

/-- The names of a path between its slashes. -/
def names (path : String) : List String := path.splitOn "/"

/-- The entry at a list of names from the directory: a listed one, or a directory that a listed entry
lies in. -/
def entry? (directory : Directory) (steps : List String) : Option FileEntry :=
  if steps = [] then some .directory
  else
    match directory.entries.find? fun (path, _) => names path = steps with
    | some (_, entry) => some entry
    | none =>
      if directory.entries.any fun (path, _) => steps.isPrefixOf (names path) then some .directory
      else none

/-- Follows names from the place that has been reached. -/
def follow (directory : Directory) (reached : List String) : List String → Except FileError FileEntry
  | [] =>
    match directory.entry? reached with
    | some entry => .ok entry
    | none => .error .notFound
  | name :: rest =>
    match directory.entry? reached with
    | none => .error .notFound
    | some .directory =>
      if name = "" || name = "." then follow directory reached rest
      else if name = ".." then
        if reached = [] then .error .notFound else follow directory reached.dropLast rest
      else follow directory (reached ++ [name]) rest
    | some _ => .error .notDirectory

/-- The text of the file at a path. The empty path names nothing, and nothing is known outside the
directory. -/
def read (directory : Directory) : FileReader := fun path =>
  if path = "" then .error .notFound
  else if path.startsWith "/" then
    if path.toList.all (· = '/') then .error .isDirectory else .error .notFound
  else
    match directory.follow [] (names path) with
    | .error error => .error error
    | .ok (.text content) => .ok content
    | .ok .binary => .error .notText
    | .ok .directory => .error .isDirectory

end Directory

/-- The part of a path's last name behind its last point. A name that begins with its only point has
none. -/
def extension? (path : String) : Option String :=
  let steps := (path.splitOn "/").filter fun name => name ≠ "" && name ≠ "."
  match steps.getLast? with
  | none => none
  | some name =>
    if name = ".." then none
    else
      match (name.splitOn ".").reverse with
      | behind :: before => if before = [] || before = [""] then none else some behind
      | [] => none

end TransitionNetwork
