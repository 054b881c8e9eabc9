import Scratchpad.Config
import Scratchpad.Disk

/-! Finding the settings of a directory: those of the home directory, under those of the nearest
settings file from the directory upwards. -/
namespace Scratchpad

/-- What is wrong with the settings file that counts. -/
structure LoadError where
  path : String
  cause : ConfigError
deriving Repr, DecidableEq

def LoadError.message (e : LoadError) : String :=
  match e.cause with
  | .unreadable => "Failed to parse " ++ e.path
  | .unknown _ => "Invalid setting in " ++ e.path

/-- The message and, if there is more to say, the cause behind it. -/
def LoadError.chain (e : LoadError) : String :=
  match e.cause with
  | .unreadable => e.message
  | .unknown cause => e.message ++ ": " ++ cause.message

namespace Config

def fileName : String := ".coderunrc"

/-- The settings files of a directory and of those above it, given its names latest first. A name
that stays in a directory does not count as one of its own. -/
def candidates : List String → List Path
  | [] => [[fileName]]
  | name :: above =>
    if Disk.stays name then candidates above
    else ((name :: above).reverse ++ [fileName]) :: candidates above

/-- The nearest settings file and its text. A directory that exists is looked up from where it is,
any other from how it is written. Outside of the root there are no settings files. -/
def nearest? (d : Disk) (start : Path) : Option (Path × String) :=
  let from? := match d.follow (.inside []) start with
    | .ok (.inside path) => some path
    | .ok .outside => none
    | .error _ => some start
  from?.bind fun names =>
    (candidates names.reverse).findSome? fun path => (d.textAt? path).map (path, ·)

/-- The settings of the home directory; a file that is wrong counts for nothing. -/
def ofHome (d : Disk) (home : Path) : Config :=
  match d.textAt? (home ++ [fileName]) with
  | some text =>
    match ofText text with
    | .ok c => c
    | .error _ => {}
  | none => {}

def load (d : Disk) (home start : Path) : Except LoadError Config :=
  let base := ofHome d home
  match nearest? d start with
  | none => .ok base
  | some (path, text) =>
    match base.overlay text with
    | .ok c => .ok c
    | .error cause => .error ⟨d.display path, cause⟩

end Config

end Scratchpad
