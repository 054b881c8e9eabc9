/-! The three grammars a chunk can be read with, and the compiler flags. -/
namespace Scratchpad

/-- A setting was given a name that it does not know. -/
structure UnknownName where
  option : String
  value : String
  expected : List String
deriving Repr, DecidableEq

def UnknownName.message (e : UnknownName) : String :=
  "invalid " ++ e.option ++ " '" ++ e.value ++ "', expected one of: " ++
    ", ".intercalate e.expected

/-- `exec` takes any statements, `eval` one expression, `single` one line of statements or one
compound statement. -/
inductive Mode where
  | exec | eval | single
deriving Repr, DecidableEq, Inhabited

def Mode.all : List Mode := [.exec, .eval, .single]

def Mode.name : Mode → String
  | .exec => "exec"
  | .eval => "eval"
  | .single => "single"

def Mode.ofName (name : String) : Except UnknownName Mode :=
  match all.find? (·.name = name) with
  | some mode => .ok mode
  | none => .error ⟨"mode", name, all.map Mode.name⟩

structure Flags where
  bits : UInt32 := 0
deriving Repr, DecidableEq, Inhabited

/-- Blocks left open at the end of the input are closed only after a blank line. -/
def Flags.keepsBlocksOpen (f : Flags) : Bool := f.bits &&& 0x200 == 0x200

end Scratchpad
