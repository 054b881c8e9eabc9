import Scratchpad.Double
import Scratchpad.Mode
import Scratchpad.Span

/-! Syntax trees. The nodes stand in one array and name each other by position, so that a tree
can be edited freely; nothing holds of an edited tree until it is compiled. -/
namespace Scratchpad

/-- The position of a node in the array of its tree. -/
abbrev NodeId := Nat

inductive Literal where
  | none
  | bool (b : Bool)
  | int (n : Int64)
  | float (d : Double)
  | text (s : String)
deriving DecidableEq

inductive BinaryOp where
  | add | sub | mul | div | floorDiv | mod | pow
deriving Repr, DecidableEq

inductive UnaryOp where
  | neg | pos | not
deriving Repr, DecidableEq

inductive BoolOp where
  | and | or
deriving Repr, DecidableEq

inductive CompareOp where
  | eq | notEq | lt | ltE | gt | gtE | isIn | notIn | same | notSame
deriving Repr, DecidableEq

def CompareOp.symbol : CompareOp → String
  | .eq => "=="
  | .notEq => "!="
  | .lt => "<"
  | .ltE => "<="
  | .gt => ">"
  | .gtE => ">="
  | .isIn => "in"
  | .notIn => "not in"
  | .same => "is"
  | .notSame => "is not"

/-- Statements come first, from `exprStmt` to `continueStmt`; the others are expressions. -/
inductive NodeKind where
  | exprStmt (value : NodeId)
  | assign (targets : List NodeId) (value : NodeId)
  | augAssign (target : NodeId) (op : BinaryOp) (value : NodeId)
  | functionDef (name : String) (params : List String) (body : List NodeId)
  | returnStmt (value : Option NodeId)
  | ifStmt (test : NodeId) (body orelse : List NodeId)
  | whileLoop (test : NodeId) (body : List NodeId)
  | forLoop (target iter : NodeId) (body : List NodeId)
  | globalStmt (names : List String)
  | passStmt
  | breakStmt
  | continueStmt
  | name (id : String)
  | literal (value : Literal)
  | binary (left : NodeId) (op : BinaryOp) (right : NodeId)
  | unary (op : UnaryOp) (operand : NodeId)
  | boolean (op : BoolOp) (values : List NodeId)
  | compare (left : NodeId) (ops : List CompareOp) (comparators : List NodeId)
  | conditional (test body orelse : NodeId)
  | named (target : String) (value : NodeId)
  | call (func : NodeId) (args : List NodeId)
  | attribute (value : NodeId) (attr : String)
  | subscript (value index : NodeId)
  | list (elts : List NodeId)
  | tuple (elts : List NodeId)
  | dict (keys values : List NodeId)
deriving DecidableEq

def NodeKind.isStatement : NodeKind → Bool
  | .exprStmt _ | .assign .. | .augAssign .. | .functionDef .. | .returnStmt _ | .ifStmt ..
  | .whileLoop .. | .forLoop .. | .globalStmt _ | .passStmt | .breakStmt | .continueStmt => true
  | _ => false

def NodeKind.isExpression (k : NodeKind) : Bool := !k.isStatement

/-- Statements that own a block. -/
def NodeKind.isCompound : NodeKind → Bool
  | .functionDef .. | .ifStmt .. | .whileLoop .. | .forLoop .. => true
  | _ => false

/-- The nodes a kind mentions, in the order of the source. Of a dict literal only whole pairs
count. -/
def NodeKind.children : NodeKind → List NodeId
  | .exprStmt value => [value]
  | .assign targets value => targets ++ [value]
  | .augAssign target _ value => [target, value]
  | .functionDef _ _ body => body
  | .returnStmt value => value.toList
  | .ifStmt test body orelse => test :: body ++ orelse
  | .whileLoop test body => test :: body
  | .forLoop target iter body => target :: iter :: body
  | .globalStmt _ | .passStmt | .breakStmt | .continueStmt | .name _ | .literal _ => []
  | .binary left _ right => [left, right]
  | .unary _ operand => [operand]
  | .boolean _ values => values
  | .compare left _ comparators => left :: comparators
  | .conditional test body orelse => [test, body, orelse]
  | .named _ value => [value]
  | .call func args => func :: args
  | .attribute value _ => [value]
  | .subscript value index => [value, index]
  | .list elts | .tuple elts => elts
  | .dict keys values => (keys.zip values).flatMap fun (key, value) => [key, value]

/-- What messages call a node. -/
def NodeKind.describe : NodeKind → String
  | .exprStmt _ => "expression statement"
  | .assign .. => "assignment"
  | .augAssign .. => "augmented assignment"
  | .functionDef .. => "function definition"
  | .returnStmt _ => "'return'"
  | .ifStmt .. => "'if' statement"
  | .whileLoop .. => "'while' loop"
  | .forLoop .. => "'for' loop"
  | .globalStmt _ => "'global' declaration"
  | .passStmt => "'pass'"
  | .breakStmt => "'break'"
  | .continueStmt => "'continue'"
  | .name _ => "name"
  | .literal _ => "literal"
  | .binary .. | .unary .. | .boolean .. => "expression"
  | .compare .. => "comparison"
  | .conditional .. => "conditional expression"
  | .named .. => "named expression"
  | .call .. => "function call"
  | .attribute .. => "attribute"
  | .subscript .. => "subscript"
  | .list _ => "list"
  | .tuple _ => "tuple"
  | .dict .. => "dict literal"

structure Node where
  kind : NodeKind
  span : Span := {}
deriving DecidableEq

/-- The top of a tree, one form for each mode. -/
inductive Root where
  | module (body : List NodeId)
  | expression (body : NodeId)
  | interactive (body : List NodeId)
deriving Repr, DecidableEq

def Root.describe : Root → String
  | .module _ => "module"
  | .expression _ => "expression"
  | .interactive _ => "interactive"

structure Tree where
  nodes : Array Node := #[]
  root : Root
deriving DecidableEq

namespace Tree

def get? (t : Tree) (id : NodeId) : Option Node := t.nodes[id]?

def kind? (t : Tree) (id : NodeId) : Option NodeKind := (t.get? id).map (·.kind)

def size (t : Tree) : Nat := t.nodes.size

/-- Adds a node and gives its position. -/
def push (t : Tree) (kind : NodeKind) (span : Span := {}) : NodeId × Tree :=
  (t.nodes.size, { t with nodes := t.nodes.push ⟨kind, span⟩ })

/-- Replaces what a node is, but not its place in the source. -/
def setKind (t : Tree) (id : NodeId) (kind : NodeKind) : Tree :=
  { t with nodes := t.nodes.modify id fun node => { node with kind } }

/-- The nodes at the top, in order. -/
def body (t : Tree) : List NodeId :=
  match t.root with
  | .module body | .interactive body => body
  | .expression body => [body]

/-- Replaces the statements at the top; an expression has none. -/
def setBody? (t : Tree) (body : List NodeId) : Option Tree :=
  match t.root with
  | .module _ => some { t with root := .module body }
  | .interactive _ => some { t with root := .interactive body }
  | .expression _ => none

end Tree

end Scratchpad
