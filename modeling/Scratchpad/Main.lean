import Scratchpad.Shell

/-! The program: reads the arguments, the files that count and what is typed in, and leaves the
rest to the shell. -/
namespace Scratchpad

/-- More instructions than a machine gets through. -/
def endless : Nat := 0x4000000000000000

def readFile? (path : String) : IO (Option String) := do
  try return some (← IO.FS.readFile path) catch _ => return none

/-- The file, if it is there, under its absolute path. -/
def fileAt (path : Path) : IO (List (Path × String)) := do
  match ← readFile? (("/" : String) ++ "/".intercalate path) with
  | some text => return [(path, text)]
  | none => return []

def absolute (path : String) : Path := (Disk.names path).filter (· ≠ "")

end Scratchpad

open Scratchpad in
def main (args : List String) : IO UInt32 := do
  match Shell.Options.ofArgs args with
  | .error e =>
    IO.eprintln ("error: " ++ e.message)
    return 2
  | .ok options =>
    let directory := absolute (toString (← IO.currentDir))
    let home := absolute ((← IO.getEnv "HOME").getD "")
    let settings ← (Config.candidates directory.reverse).mapM fileAt
    let homeSettings ← fileAt (home ++ [Config.fileName])
    let source ← match options.file with
      | some path =>
        fileAt (if Text.startsWith path.toList ['/'] then absolute path else directory ++ absolute path)
      | none => pure []
    let disk : Disk :=
      { files := settings.flatten ++ homeSettings ++ source, directories := [home, directory] }
    let input ← if options.code.isNone && options.file.isNone
      then (← IO.getStdin).readToEnd
      else pure ""
    match Shell.run disk home directory options input endless with
    | some reply =>
      IO.print reply.output
      IO.eprint reply.errors
      return .ofNat reply.exitCode
    | none => return 2
