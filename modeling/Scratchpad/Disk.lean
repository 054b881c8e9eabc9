/-! Files and directories, as far as a run looks at them. -/
namespace Scratchpad

/-- The names from the root down, as they are written; `..` is a name too. -/
abbrev Path := List String

inductive DiskError where
  | missing | notDirectory | isDirectory
deriving Repr, DecidableEq

def DiskError.message : DiskError → String
  | .missing => "No such file or directory (os error 2)"
  | .notDirectory => "Not a directory (os error 20)"
  | .isDirectory => "Is a directory (os error 21)"

/-- Where a path leads: under the root, or out of it. -/
inductive Place where
  | inside (path : Path)
  | outside
deriving Repr, DecidableEq

/-- The files with their texts, and the directories that hold none. A root without a name is that
of all files. One with a name stands among directories of which nothing else is known. -/
structure Disk where
  rootName : String := ""
  files : List (Path × String) := []
  directories : List Path := []

namespace Disk

/-- The names of a path written with slashes. -/
def names (path : String) : Path := path.splitOn "/"

def display (d : Disk) (path : Path) : String := "/".intercalate (d.rootName :: path)

def isDirectory (d : Disk) (path : Path) : Bool :=
  path.isEmpty || d.directories.any (path.isPrefixOf ·) ||
    d.files.any fun (file, _) => path.isPrefixOf file && path ≠ file

/-- An empty name and `.` stay in a directory. -/
def stays (name : String) : Bool := name = "" || name = "."

/-- The top of all directories, which is its own parent. -/
def top (d : Disk) : Place := if d.rootName = "" then .inside [] else .outside

def parent (d : Disk) (path : Path) : Place :=
  if path.isEmpty then d.top else .inside path.dropLast

/-- Follows names from a place that exists. -/
def follow (d : Disk) : Place → Path → Except DiskError Place
  | place, [] => .ok place
  | .outside, name :: rest =>
    if stays name || name = ".." then d.follow .outside rest else .error .missing
  | .inside path, name :: rest =>
    if !d.isDirectory path then .error .notDirectory
    else if stays name then d.follow (.inside path) rest
    else if name = ".." then d.follow (d.parent path) rest
    else
      let inner := path ++ [name]
      if d.isDirectory inner || (d.files.lookup inner).isSome then d.follow (.inside inner) rest
      else .error .missing

/-- The text of the file at a place, if there is one. -/
def text? (d : Disk) : Place → Option String
  | .inside path => d.files.lookup path
  | .outside => none

/-- The text of the file that a path from the root leads to. -/
def textAt? (d : Disk) (path : Path) : Option String :=
  match d.follow (.inside []) path with
  | .ok place => d.text? place
  | .error _ => none

/-- The text of a file, its path written from a directory on or, with a slash in front, from the
top on. -/
def read (d : Disk) (directory : Path) (path : String) : Except DiskError String := do
  if path = "" then .error .missing
  else
    let names := names path
    let place ← d.follow (if names.head? = some "" then d.top else .inside directory) names
    match d.text? place with
    | some text => return text
    | none => .error .isDirectory

end Disk

end Scratchpad
