import Scratchpad.Code
import Scratchpad.Decimal.Layout
import Scratchpad.Text.Quoted

/-! Compiled code as text, one instruction a line. -/
namespace Scratchpad

def BinaryOp.name : BinaryOp → String
  | .add => "Add"
  | .sub => "Sub"
  | .mul => "Mul"
  | .div => "Div"
  | .floorDiv => "FloorDiv"
  | .mod => "Mod"
  | .pow => "Pow"

def UnaryOp.name : UnaryOp → String
  | .neg => "Neg"
  | .pos => "Pos"
  | .not => "Not"

def CompareOp.name : CompareOp → String
  | .eq => "Eq"
  | .notEq => "NotEq"
  | .lt => "Lt"
  | .ltE => "LtE"
  | .gt => "Gt"
  | .gtE => "GtE"
  | .isIn => "In"
  | .notIn => "NotIn"
  | .same => "Is"
  | .notSame => "IsNot"

/-- What an instruction works with besides the stack. -/
inductive Operand where
  | none
  | constant (index : Nat)
  | name (index : Nat)
  | slot (index : Nat)
  | number (n : Nat)
  | word (w : String)

def Operand.text : Operand → String
  | .none => ""
  | .constant n | .name n | .slot n | .number n => "(" ++ toString n ++ ")"
  | .word w => "(" ++ w ++ ")"

namespace Instr

def opcode : Instr → String
  | .loadConst _ => "LoadConst"
  | .loadName _ => "LoadName"
  | .storeName _ => "StoreName"
  | .loadFast _ => "LoadFast"
  | .storeFast _ => "StoreFast"
  | .loadAttr _ => "LoadAttr"
  | .storeAttr _ => "StoreAttr"
  | .loadSubscript => "LoadSubscript"
  | .storeSubscript => "StoreSubscript"
  | .binary _ => "BinaryOp"
  | .unary _ => "UnaryOp"
  | .compare _ => "Compare"
  | .buildList _ => "BuildList"
  | .buildTuple _ => "BuildTuple"
  | .buildDict _ => "BuildDict"
  | .unpack _ => "UnpackSequence"
  | .call _ => "Call"
  | .makeFunction _ => "MakeFunction"
  | .pop => "Pop"
  | .dupTop => "DupTop"
  | .dupTwo => "DupTwo"
  | .rotTwo => "RotTwo"
  | .rotThree => "RotThree"
  | .jump _ => "Jump"
  | .popJumpIfFalse _ => "PopJumpIfFalse"
  | .popJumpIfTrue _ => "PopJumpIfTrue"
  | .jumpIfFalseOrPop _ => "JumpIfFalseOrPop"
  | .jumpIfTrueOrPop _ => "JumpIfTrueOrPop"
  | .getIter => "GetIter"
  | .forIter _ => "ForIter"
  | .popIter => "PopIter"
  | .returnValue => "ReturnValue"

def operand : Instr → Operand
  | .loadConst i | .makeFunction i => .constant i
  | .loadName i | .storeName i | .loadAttr i | .storeAttr i => .name i
  | .loadFast i | .storeFast i => .slot i
  | .binary op => .word op.name
  | .unary op => .word op.name
  | .compare op => .word op.name
  | .buildList n | .buildTuple n | .buildDict n | .unpack n | .call n | .jump n
  | .popJumpIfFalse n | .popJumpIfTrue n | .jumpIfFalseOrPop n | .jumpIfTrueOrPop n
  | .forIter n => .number n
  | .loadSubscript | .storeSubscript | .pop | .dupTop | .dupTwo | .rotTwo | .rotThree | .getIter
  | .popIter | .returnValue => .none

def text (i : Instr) : String := i.opcode ++ i.operand.text

end Instr

def Literal.display : Literal → String
  | .none => "None"
  | .bool true => "True"
  | .bool false => "False"
  | .int n => toString n.toInt
  | .float d => Decimal.floatText d
  | .text s => String.ofList (Text.shown s.toList)

def Constant.text : Constant → String
  | .literal value => value.display
  | .code c => "<code " ++ c.name ++ ">"

namespace Code

/-- The table entry that an operand points to. -/
def operandText? (c : Code) : Operand → Option String
  | .constant i => c.constants[i]?.map Constant.text
  | .name i => c.names[i]?
  | .slot i => c.locals[i]?
  | _ => none

/-- A number, filled from the left to four characters. -/
def column (n : Nat) : String :=
  let digits := toString n
  String.ofList (List.replicate (4 - digits.length) ' ') ++ digits

def lineText (c : Code) (margin : String) (pc : Nat) (i : Instr) : String :=
  let line := ((c.spanAt? pc).map (·.line)).getD 0
  let detail := match c.operandText? i.operand with
    | some entry => " (" ++ entry ++ ")"
    | none => ""
  margin ++ column line ++ " " ++ column pc ++ "  " ++ i.text ++ detail ++ "\n"

/-- The lines of the code itself, then the listings of the code among its constants. -/
def listingAt (depth : Nat) (c : Code) : String :=
  let margin := String.ofList (List.replicate (2 * depth) ' ')
  let own := c.instructions.toList.mapIdx fun pc i => c.lineText margin pc i
  let inner := c.constants.attach.toList.map fun ⟨k, h⟩ =>
    match k, h with
    | .code nested, _ => listingAt (depth + 1) nested
    | .literal _, _ => ""
  margin ++ "code " ++ c.name ++ " (" ++ c.mode.name ++ ")\n" ++ String.join own ++
    String.join inner
termination_by sizeOf c
decreasing_by
  rename_i h
  have inner := Array.sizeOf_lt_of_mem h
  have outer : sizeOf c.constants < sizeOf c := by cases c; simp; omega
  simp at inner
  omega

def listing (c : Code) : String := listingAt 0 c

end Code

end Scratchpad
