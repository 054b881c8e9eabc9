import Scratchpad.Config.Toml
import Scratchpad.Surface

/-! The settings of a run, and the settings files that change them. -/
namespace Scratchpad

structure Config where
  /-- How many calls may be open at once. -/
  maxRecursionDepth : Nat := 200
  returnMode : ReturnMode := .lastExpr
  /-- A semicolon at the end keeps the value from being surfaced. -/
  quietTrailingSemicolon : Bool := true
deriving Repr, DecidableEq

inductive ConfigError where
  | unreadable
  | unknown (e : UnknownName)
deriving Repr, DecidableEq

namespace Config

def set (c : Config) : String × Toml.Value → Except ConfigError Config
  | ("max_recursion_depth", .int n) =>
    if 0 ≤ n then .ok { c with maxRecursionDepth := n.toInt.toNat } else .error .unreadable
  | ("return_mode", .text name) =>
    match ReturnMode.ofName name with
    | .ok mode => .ok { c with returnMode := mode }
    | .error e => .error (.unknown e)
  | ("quiet_trailing_semicolon", .bool b) => .ok { c with quietTrailingSemicolon := b }
  | _ => .error .unreadable

/-- A known setting with a value of its type. -/
def fits : String × Toml.Value → Bool
  | ("max_recursion_depth", .int n) => 0 ≤ n
  | ("return_mode", .text _) | ("quiet_trailing_semicolon", .bool _) => true
  | _ => false

/-- The settings of a file over others. A file is read as a whole before any of its settings
counts, and sets nothing twice. -/
def overlay (c : Config) (file : String) : Except ConfigError Config :=
  match Toml.read? file.toList with
  | none => .error .unreadable
  | some entries =>
    if entries.all fits && (entries.map (·.1)).Nodup then entries.foldlM set c
    else .error .unreadable

def ofText (file : String) : Except ConfigError Config := overlay {} file

end Config

end Scratchpad
