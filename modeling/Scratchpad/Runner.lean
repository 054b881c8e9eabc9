import Scratchpad.Code.Lower
import Scratchpad.Config
import Scratchpad.Machine
import Scratchpad.Quiet
import Scratchpad.Text.Lines
import Scratchpad.Tree.Statement

/-! Running a chunk of source: it is parsed, compiled and run, and its value surfaced. Each stage
can be taken by itself, so that the tree and the code can be looked at and changed between. -/
namespace Scratchpad

structure Runner where
  source : String
  mode : Mode := .exec
  flags : Flags := {}
  config : Config := {}
  tree : Option Tree := none
  code : Option Code := none

inductive RunError where
  | invalid (e : SyntaxError)
  | failed (f : Failure)

/-- What a run came to, the runner after it, and the world it left. -/
structure RunResult where
  outcome : Except RunError (Option Value)
  runner : Runner
  world : World

namespace Runner

/-- Parses the source without the margin of its lines. -/
def parse (r : Runner) : Except SyntaxError Runner := do
  let source := String.ofList (Text.dedent r.source.toList)
  return { r with tree := some (← Tree.ofSource r.mode r.flags source) }

/-- The tree, parsed now if it was not yet. -/
def ensureTree (r : Runner) : Except SyntaxError (Tree × Runner) :=
  match r.tree with
  | some t => .ok (t, r)
  | none => do
    let t ← Tree.ofSource r.mode r.flags (.ofList (Text.dedent r.source.toList))
    return (t, { r with tree := some t })

def isQuieted (r : Runner) : Bool :=
  r.config.quietTrailingSemicolon && Quiet.isQuiet r.source.toList

/-- The tree to compile: the value is surfaced in `exec` mode, unless the source is quiet. -/
def surfaced (r : Runner) (t : Tree) : Tree :=
  if r.mode = .exec && !r.isQuieted then (Surface.capture? r.config.returnMode t).getD t else t

def compile (r : Runner) : Except SyntaxError Runner := do
  let (t, r) ← r.ensureTree
  return { r with code := some (← Code.ofTree (r.surfaced t) r.mode) }

/-- The code, compiled now if it was not yet. -/
def ensureCode (r : Runner) : Except SyntaxError (Code × Runner) :=
  match r.code with
  | some c => .ok (c, r)
  | none => do
    let (t, r) ← r.ensureTree
    let c ← Code.ofTree (r.surfaced t) r.mode
    return (c, { r with code := some c })

def withoutResult (w : World) : World := { w with globals := w.globals.erase Surface.resultName }

/-- The value of a finished run: what the code returned in `eval` mode, what it surfaced in
`exec` mode. -/
def surfacedValue (c : Code) (v : Value) (w : World) : Option Value :=
  match c.mode with
  | .eval => some v
  | .exec => w.globals.get? Surface.resultName
  | .single => none

/-- Runs the code, for at most `fuel` instructions. The world is left alone if there is no code
to run; otherwise the name of the result is removed before and after. -/
def run (r : Runner) (fuel : Nat) (w : World) : Option RunResult :=
  match r.ensureCode with
  | .error e => some ⟨.error (.invalid e), r, w⟩
  | .ok (c, r) => do
    let ending ← c.run r.config.maxRecursionDepth fuel (withoutResult w)
    let outcome := match ending.outcome with
      | .ok v => .ok (surfacedValue c v ending.world)
      | .error f => .error (.failed f)
    return ⟨outcome, r, withoutResult ending.world⟩

end Runner

/-- Evaluates a chunk of statements. -/
def evaluate (source : String) (config : Config) (fuel : Nat) (w : World) : Option RunResult :=
  Runner.run { source, config } fuel w

end Scratchpad
