import Scratchpad.Tree

/-! Compiled code: instructions for a stack machine over tables of constants and names. -/
namespace Scratchpad

/-- Numbers are positions in the tables of the code, counts, or the positions of instructions
to jump to. -/
inductive Instr where
  | loadConst (index : Nat)
  | loadName (index : Nat)
  | storeName (index : Nat)
  | loadFast (slot : Nat)
  | storeFast (slot : Nat)
  | loadAttr (index : Nat)
  | storeAttr (index : Nat)
  | loadSubscript
  | storeSubscript
  | binary (op : BinaryOp)
  | unary (op : UnaryOp)
  | compare (op : CompareOp)
  | buildList (count : Nat)
  | buildTuple (count : Nat)
  /-- Takes as many keys and values, each key before its value. -/
  | buildDict (count : Nat)
  /-- Puts the items of the top value on the stack, the first on top. -/
  | unpack (count : Nat)
  | call (count : Nat)
  | makeFunction (index : Nat)
  | pop
  | dupTop
  | dupTwo
  | rotTwo
  | rotThree
  | jump (target : Nat)
  | popJumpIfFalse (target : Nat)
  | popJumpIfTrue (target : Nat)
  | jumpIfFalseOrPop (target : Nat)
  | jumpIfTrueOrPop (target : Nat)
  | getIter
  /-- Puts the next item of the innermost iterator on the stack; at its end drops it and jumps. -/
  | forIter (target : Nat)
  | popIter
  | returnValue
deriving Repr, DecidableEq

/-- Code over a type of constants. -/
structure CodeOf (κ : Type) where
  name : String
  mode : Mode
  instructions : Array Instr := #[]
  /-- The place of each instruction in the source. -/
  spans : Array Span := #[]
  constants : Array κ := #[]
  names : Array String := #[]
  /-- The local variables; the first `argCount` are the parameters. -/
  locals : Array String := #[]
  argCount : Nat := 0

inductive Constant where
  | literal (value : Literal)
  | code (c : CodeOf Constant)

abbrev Code := CodeOf Constant

/-- Are two constants interchangeable in a pool? Numbers of different types and the two zeros
are not, and no code is, not even to itself. -/
def Constant.sameAs : Constant → Constant → Bool
  | .literal a, .literal b => a = b
  | _, _ => false

def CodeOf.spanAt? (c : CodeOf κ) (pc : Nat) : Option Span := c.spans[pc]?

end Scratchpad
