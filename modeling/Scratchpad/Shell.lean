import Scratchpad.Config.Load
import Scratchpad.Report

/-! The command line: evaluates a file, a given text, or chunks typed in one after the other. -/
namespace Scratchpad.Shell

structure Options where
  file : Option String := none
  code : Option String := none
  mode : Mode := .exec
  returnMode : Option ReturnMode := none
  noQuiet : Bool := false
  verbose : Bool := false

/-- Why the arguments are not understood. -/
inductive UsageError where
  | unknown (e : UnknownName)
  | unexpected (arg : String)
  | missingValue (option : String)
  | fileAndCode

def UsageError.message : UsageError → String
  | .unknown e => e.message
  | .unexpected arg => "unexpected argument '" ++ arg ++ "'"
  | .missingValue option => "a value is required for '" ++ option ++ "'"
  | .fileAndCode => "a file cannot be used with '-c'"

namespace Options

/-- Sets an option that takes a value. -/
def set (o : Options) (option value : String) : Except UsageError Options :=
  match option with
  | "--mode" => (Mode.ofName value).mapError .unknown |>.map fun mode => { o with mode }
  | "--return-mode" =>
    (ReturnMode.ofName value).mapError .unknown |>.map fun mode => { o with returnMode := some mode }
  | "-c" => .ok { o with code := some value }
  | option => .error (.unexpected option)

def takesValue (arg : String) : Bool := arg = "--mode" || arg = "--return-mode" || arg = "-c"

/-- An option and its value written as one argument. -/
def attached? (arg : String) : Option (String × String) :=
  let chars := arg.toList
  if Text.startsWith chars ['-', '-'] then
    match chars.dropWhile (· ≠ '=') with
    | '=' :: value => some (.ofList (chars.takeWhile (· ≠ '=')), .ofList value)
    | _ => none
  else
    match chars with
    | '-' :: 'c' :: '=' :: value => some ("-c", .ofList value)
    | '-' :: 'c' :: first :: value => some ("-c", .ofList (first :: value))
    | _ => none

def setFile (o : Options) (arg : String) : Except UsageError Options :=
  if o.file.isSome then .error (.unexpected arg) else .ok { o with file := some arg }

def parse (o : Options) : List String → Except UsageError Options
  | [] => .ok o
  | "--no-quiet" :: rest => parse { o with noQuiet := true } rest
  | "--verbose" :: rest | "-v" :: rest => parse { o with verbose := true } rest
  | "--" :: rest => rest.foldlM setFile o
  | [arg] =>
    if takesValue arg then .error (.missingValue arg)
    else match attached? arg with
      | some (option, value) => o.set option value
      | none =>
        if Text.startsWith arg.toList ['-'] && arg ≠ "-" then .error (.unexpected arg)
        else o.setFile arg
  | arg :: next :: rest => do
    if takesValue arg then parse (← o.set arg next) rest
    else match attached? arg with
      | some (option, value) => parse (← o.set option value) (next :: rest)
      | none =>
        if Text.startsWith arg.toList ['-'] && arg ≠ "-" then .error (.unexpected arg)
        else parse (← o.setFile arg) (next :: rest)

def ofArgs (args : List String) : Except UsageError Options := do
  let o ← parse {} args
  if o.file.isSome && o.code.isSome then .error .fileAndCode else return o

end Options

/-- What is known to a shell: the world, whose output is what it shows, and the errors shown. -/
structure State where
  world : World := {}
  errors : String := ""

def State.emit (s : State) (text : String) : State :=
  { s with world := { s.world with output := s.world.output ++ text } }

/-- How a shell ended. -/
structure Reply where
  output : String
  errors : String
  exitCode : Nat

def State.reply (s : State) (exitCode : Nat) : Reply := ⟨s.world.output, s.errors, exitCode⟩

/-- Evaluates a chunk and shows its value or its error; says whether it succeeded. -/
def evaluate (s : State) (mode : Mode) (config : Config) (fuel : Nat) (source label : String) :
    Option (State × Bool) := do
  let result ← Runner.run { source, mode, config } fuel s.world
  let s := { s with world := result.world }
  match result.outcome with
  | .ok (some v) => return (s.emit (s.world.store.repr v ++ "\n"), true)
  | .ok none => return (s, true)
  | .error e =>
    return ({ s with errors := s.errors ++ (Report.ofRunError e).render label source }, false)

def isBlankLine (line : List Char) : Bool := Text.allBlank line

/-- A line that opens a block, which goes on to the next blank line. -/
def opensBlock (line : List Char) : Bool := (Text.trimEnd line).getLast? = some ':'

def prompt : String := ">>> "

def morePrompt : String := "... "

/-- Evaluates the chunks of the lines, numbered from `number` on. -/
def interact (mode : Mode) (config : Config) (fuel : Nat) (number : Nat) (s : State) :
    List (List Char) → Option State
  | [] => some (s.emit (prompt ++ "\n"))
  | line :: rest =>
    let s := s.emit prompt
    if isBlankLine line then interact mode config fuel number s rest
    else
      let label := "<stdin:" ++ toString number ++ ">"
      if opensBlock line then do
        let block := rest.takeWhile (!isBlankLine ·)
        let s := s.emit (String.join (List.replicate (block.length + 1) morePrompt))
        let chunk := (line :: block).flatMap (· ++ ['\n'])
        let (s, _) ← evaluate s mode config fuel (.ofList chunk) label
        interact mode config fuel (number + 1) s ((rest.dropWhile (!isBlankLine ·)).drop 1)
      else do
        let (s, _) ← evaluate s mode config fuel (.ofList line) label
        interact mode config fuel (number + 1) s rest
termination_by lines => lines.length
decreasing_by
  · simp
  · simp only [List.length_drop, List.length_cons]
    have := (List.dropWhile_suffix (l := rest) (!isBlankLine ·)).length_le
    omega
  · simp

/-- The settings that count, and a warning if some of them could not be read. -/
def settings (d : Disk) (home directory : Path) (o : Options) : Config × String :=
  let (config, warning) := match Config.load d home directory with
    | .ok config => (config, "")
    | .error e => ({}, "⚠ Failed to load config: " ++ e.chain ++ "\n")
  ({ config with
      returnMode := o.returnMode.getD config.returnMode
      quietTrailingSemicolon := config.quietTrailingSemicolon && !o.noQuiet }, warning)

def unreadable (path : String) (e : DiskError) : String :=
  "Error: Failed to read source from " ++ path ++ "\n\nCaused by:\n    " ++ e.message ++ "\n"

/-- Runs the shell in a directory, with what is typed in. -/
def run (d : Disk) (home directory : Path) (o : Options) (input : String) (fuel : Nat) :
    Option Reply := do
  let (config, warning) := settings d home directory o
  let s : State := { errors := warning }
  let chunk (source label : String) : Option Reply := do
    let (s, succeeded) ← evaluate s o.mode config fuel source label
    return s.reply (if succeeded then 0 else 1)
  match o.code, o.file with
  | some code, _ => chunk code "<string>"
  | none, some path =>
    match d.read directory path with
    | .ok source => chunk source path
    | .error e => return { s with errors := s.errors ++ unreadable path e }.reply 1
  | none, none =>
    let s ← interact o.mode config fuel 1 s (Text.lines input.toList)
    return s.reply 0

end Scratchpad.Shell
