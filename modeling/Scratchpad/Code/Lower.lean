import Scratchpad.Code
import Scratchpad.Code.Scope
import Scratchpad.SyntaxError

/-! Lowering trees to code. A node becomes a segment of instructions for the position at which
it will stand; jumps are computed from the lengths of the segments. The tree may be any tree, so
each node is looked up, and checked to be of the right sort for its position. -/
namespace Scratchpad

namespace Lower

/-- The tables that grow while code is made. -/
structure Tables where
  constants : Array Constant := #[]
  names : Array String := #[]

/-- One instruction of a segment. `leave` is the jump of a `break`, whose loop does not know its
end yet. -/
inductive Item where
  | op (instr : Instr) (span : Span)
  | leave (span : Span)

abbrev Segment := List Item

/-- The unit under way: the module or one function. -/
structure Context where
  tree : Tree
  mode : Mode
  isFunction : Bool := false
  locals : List String := []

/-- The innermost loop around a statement. -/
structure Loop where
  again : Nat
  isFor : Bool

end Lower

abbrev Lower := StateT Lower.Tables (Except SyntaxError)

namespace Lower

def fail (violation : Violation) (span : Span) : Lower α := throw (.invalid violation span)

/-- Closes a loop that ends at `stop`. -/
def close (stop : Nat) (s : Segment) : Segment :=
  s.map fun
    | .leave span => .op (.jump stop) span
    | item => item

/-! ### Tables -/

/-- The position of a constant, which is added unless one like it is there. -/
def constant (k : Constant) : Lower Nat := do
  let tables ← get
  match tables.constants.findIdx? (·.sameAs k) with
  | some i => return i
  | none =>
    set { tables with constants := tables.constants.push k }
    return tables.constants.size

def nameIndex (name : String) : Lower Nat := do
  let tables ← get
  match tables.names.findIdx? (· = name) with
  | some i => return i
  | none =>
    set { tables with names := tables.names.push name }
    return tables.names.size

def loadLiteral (span : Span) (value : Literal) : Lower Segment := do
  return [.op (.loadConst (← constant (.literal value))) span]

/-- Local variables have slots, all other names are global. -/
def loadName (c : Context) (span : Span) (name : String) : Lower Segment := do
  match c.locals.findIdx? (· = name) with
  | some slot => return [.op (.loadFast slot) span]
  | none => return [.op (.loadName (← nameIndex name)) span]

def storeName (c : Context) (span : Span) (name : String) : Lower Segment := do
  match c.locals.findIdx? (· = name) with
  | some slot => return [.op (.storeFast slot) span]
  | none => return [.op (.storeName (← nameIndex name)) span]

/-! ### Expressions -/

def node (c : Context) (span : Span) (id : NodeId) : Lower Node :=
  match c.tree.get? id with
  | some node => return node
  | none => fail (.danglingNode id) span

/-- The operand on the left, which a chain of operations is built on. -/
def leftOperand? : NodeKind → Option NodeId
  | .binary left _ _ => some left
  | .call func _ => some func
  | .attribute value _ | .subscript value _ => some value
  | _ => none

/-- Goes down the left operands of a node. Gives the innermost one and the operations on it,
innermost first. A chain longer than the tree goes round in a circle. -/
def spine (c : Context) (span : Span) (outer : List Node) : Nat → Node → Lower (Node × List Node)
  | room, n =>
    match leftOperand? n.kind with
    | none => return (n, outer)
    | some left =>
      match room with
      | 0 => fail .cyclicNode n.span
      | room + 1 => do spine c span (n :: outer) room (← node c span left)

/-- Lowers one expression for a position; `span` is the place of the node around it. -/
abbrev Expr := Span → Nat → NodeId → Lower Segment

/-- Segments one after the other. -/
def sequence (lower : Nat → α → Lower Segment) (pos : Nat) : List α → Lower Segment
  | [] => return []
  | a :: as => do
    let first ← lower pos a
    return first ++ (← sequence lower (pos + first.length) as)

/-- Operands of `and` or `or`: each but the last may decide and jump to the end. -/
def boolChain (expr : Expr) (span : Span) (jump : Nat → Instr) (pos : Nat) :
    List NodeId → Lower Segment
  | [] => return []
  | [value] => expr span pos value
  | value :: values => do
    let first ← expr span pos value
    let next := pos + first.length + 1
    let others ← boolChain expr span jump next values
    return first ++ .op (jump (next + others.length)) span :: others

/-- Links of a comparison, the left operand being on the stack. Each link but the last keeps its
right operand below the result, and a false result jumps past the links and one jump more. -/
def links (expr : Expr) (span : Span) (pos : Nat) : List (CompareOp × NodeId) → Lower Segment
  | [] => return []
  | [(op, right)] => return (← expr span pos right) ++ [.op (.compare op) span]
  | (op, right) :: more => do
    let first ← expr span pos right
    let next := pos + first.length + 4
    let others ← links expr span next more
    return first ++ [.op .dupTop span, .op .rotThree span, .op (.compare op) span,
      .op (.jumpIfFalseOrPop (next + others.length + 1)) span] ++ others

/-- A comparison that stops at a link still has to drop the operand under its result. -/
def comparison (expr : Expr) (span : Span) (pos : Nat) (left : NodeId)
    (chain : List (CompareOp × NodeId)) : Lower Segment := do
  let first ← expr span pos left
  let others ← links expr span (pos + first.length) chain
  if chain.length ≤ 1 then return first ++ others
  let stop := pos + first.length + others.length
  return first ++ others ++ [.op (.jump (stop + 3)) span, .op .rotTwo span, .op .pop span]

def branches (expr : Expr) (span : Span) (pos : Nat) (test body orelse : NodeId) :
    Lower Segment := do
  let test ← expr span pos test
  let body ← expr span (pos + test.length + 1) body
  let other := pos + test.length + 1 + body.length + 1
  let orelse ← expr span other orelse
  return test ++ .op (.popJumpIfFalse other) span :: body ++
    .op (.jump (other + orelse.length)) span :: orelse

/-- An expression with no operand on the left. -/
def operand (c : Context) (expr : Expr) (span : Span) (pos : Nat) : NodeKind → Lower Segment
  | .literal value => loadLiteral span value
  | .name name => loadName c span name
  | .unary op operand => return (← expr span pos operand) ++ [.op (.unary op) span]
  | .boolean op values => do
    if values.isEmpty then fail .emptyBoolean span
    let jump := match op with
      | .and => Instr.jumpIfFalseOrPop
      | .or => Instr.jumpIfTrueOrPop
    boolChain expr span jump pos values
  | .compare left ops comparators => do
    if ops.isEmpty || ops.length != comparators.length then fail .malformedComparison span
    comparison expr span pos left (ops.zip comparators)
  | .conditional test body orelse => branches expr span pos test body orelse
  | .named target value => do
    let value ← expr span pos value
    return value ++ .op .dupTop span :: (← storeName c span target)
  | .list elts => return (← sequence (expr span) pos elts) ++ [.op (.buildList elts.length) span]
  | .tuple elts => return (← sequence (expr span) pos elts) ++ [.op (.buildTuple elts.length) span]
  | .dict keys values => do
    if keys.length != values.length then fail .mismatchedDict span
    let pairs := (keys.zip values).flatMap fun (key, value) => [key, value]
    return (← sequence (expr span) pos pairs) ++ [.op (.buildDict keys.length) span]
  | kind => fail (.notExpression kind.describe) span

/-- What follows the operand on the left. -/
def operation (expr : Expr) (span : Span) (pos : Nat) : NodeKind → Lower Segment
  | .binary _ op right => return (← expr span pos right) ++ [.op (.binary op) span]
  | .call _ args => return (← sequence (expr span) pos args) ++ [.op (.call args.length) span]
  | .attribute _ attr => return [.op (.loadAttr (← nameIndex attr)) span]
  | .subscript _ index => return (← expr span pos index) ++ [.op .loadSubscript span]
  | kind => fail (.notExpression kind.describe) span

/-- An expression that may nest `room` levels. A chain of left operands counts as one. -/
def expression (c : Context) : Nat → Expr
  | room, span, pos, id => do
    let (head, outer) ← spine c span [] c.tree.size (← node c span id)
    match room with
    | 0 => fail (.tooNested .nodes) head.span
    | room + 1 =>
      let first ← operand c (expression c room) head.span pos head.kind
      outer.foldlM (fun done n =>
        return done ++ (← operation (expression c room) n.span (pos + done.length) n.kind)) first

/-! ### Targets -/

/-- Takes the value on the stack apart or puts it where the target says. -/
def store (c : Context) : Nat → Expr
  | room, span, pos, id => do
    let n ← node c span id
    match room with
    | 0 => fail (.tooNested .nodes) n.span
    | room + 1 =>
      let span := n.span
      match n.kind with
      | .name name => storeName c span name
      | .subscript value index =>
        return (← sequence (expression c room span) pos [value, index]) ++
          [.op .storeSubscript span]
      | .attribute value attr =>
        let value ← expression c room span pos value
        return value ++ [.op (.storeAttr (← nameIndex attr)) span]
      | .tuple elts | .list elts =>
        return .op (.unpack elts.length) span :: (← sequence (store c room span) (pos + 1) elts)
      | kind => fail (.illegalTarget kind.describe) span

/-- Stores one value to each target; all but the last take a copy. -/
def storeAll (c : Context) (room : Nat) (span : Span) (pos : Nat) : List NodeId → Lower Segment
  | [] => return []
  | [target] => store c room span pos target
  | target :: targets => do
    let first ← store c room span (pos + 1) target
    return .op .dupTop span :: first ++
      (← storeAll c room span (pos + 1 + first.length) targets)

/-- The container and the index of a target are evaluated once, for reading and writing. -/
def augmented (c : Context) (room : Nat) (span : Span) (pos : Nat) (target : NodeId)
    (op : BinaryOp) (value : NodeId) : Lower Segment := do
  let expr := expression c room span
  let n ← node c span target
  match n.kind with
  | .name name =>
    let load ← loadName c span name
    let value ← expr (pos + load.length) value
    return load ++ value ++ .op (.binary op) span :: (← storeName c span name)
  | .subscript container index =>
    let place ← sequence expr pos [container, index]
    let value ← expr (pos + place.length + 2) value
    return place ++ [.op .dupTwo span, .op .loadSubscript span] ++ value ++
      [.op (.binary op) span, .op .rotThree span, .op .storeSubscript span]
  | .attribute object attr =>
    let object ← expr pos object
    let i ← nameIndex attr
    let value ← expr (pos + object.length + 2) value
    return object ++ [.op .dupTop span, .op (.loadAttr i) span] ++ value ++
      [.op (.binary op) span, .op .rotTwo span, .op (.storeAttr i) span]
  | kind => fail (.illegalAugmentedTarget kind.describe) n.span

/-! ### Statements -/

/-- Lowers one statement, in the loop around it, if any. -/
abbrev Stmt := Context → Option Loop → Span → Nat → NodeId → Lower Segment

/-- An `if` and the `elif`s after it, of which there are no more than nodes. -/
def ifChain (c : Context) (room : Nat) (body : Span → Nat → List NodeId → Lower Segment) :
    Nat → Span → Nat → NodeId → List NodeId → List NodeId → Lower Segment
  | chain, span, pos, test, taken, orelse => do
    let test ← expression c room span pos test
    let start := pos + test.length + 1
    let taken ← body span start taken
    let stop := start + taken.length
    if orelse.isEmpty then return test ++ .op (.popJumpIfFalse stop) span :: taken
    let next ← match orelse with
      | [only] => some <$> node c span only
      | _ => pure none
    let others ← match next with
      | some ⟨.ifStmt test' taken' orelse', span'⟩ =>
        match chain with
        | 0 => fail .cyclicElif span
        | chain + 1 => ifChain c room body chain span' (stop + 1) test' taken' orelse'
      | _ => body span (stop + 1) orelse
    return test ++ .op (.popJumpIfFalse (stop + 1)) span :: taken ++
      .op (.jump (stop + 1 + others.length)) span :: others

def whileLoop (c : Context) (room : Nat) (stmt : Stmt) (span : Span) (pos : Nat) (test : NodeId)
    (body : List NodeId) : Lower Segment := do
  let test ← expression c room span pos test
  let body ← sequence (stmt c (some ⟨pos, false⟩) span) (pos + test.length + 1) body
  let stop := pos + test.length + 1 + body.length + 1
  return test ++ .op (.popJumpIfFalse stop) span :: close stop body ++ [.op (.jump pos) span]

def forLoop (c : Context) (room : Nat) (stmt : Stmt) (span : Span) (pos : Nat)
    (target iter : NodeId) (body : List NodeId) : Lower Segment := do
  let iter ← expression c room span pos iter
  let again := pos + iter.length + 1
  let target ← store c room span (again + 1) target
  let start := again + 1 + target.length
  let body ← sequence (stmt c (some ⟨again, true⟩) span) start body
  let stop := start + body.length + 1
  return iter ++ [.op .getIter span, .op (.forIter stop) span] ++ target ++ close stop body ++
    [.op (.jump again) span]

/-- A jump that no loop closed does not occur: a `break` outside a loop is refused. -/
def Item.instr : Item → Instr
  | .op i _ => i
  | .leave _ => .jump 0

def Item.span : Item → Span
  | .op _ span | .leave span => span

/-- The code of a finished segment. -/
def finish (c : Context) (name : String) (argCount : Nat) (s : Segment) (tables : Tables) :
    Code where
  name := name
  mode := c.mode
  instructions := (s.map Item.instr).toArray
  spans := (s.map Item.span).toArray
  constants := tables.constants
  names := tables.names
  locals := c.locals.toArray
  argCount := argCount

/-- The code of a function, which starts from empty tables and outside any loop. -/
def function (c : Context) (stmt : Stmt) (span : Span) (name : String) (params : List String)
    (body : List NodeId) : Except SyntaxError Code := do
  let names := Scope.ofBody c.tree body
  match params.find? names.global.contains with
  | some param => throw (.invalid (.parameterAndGlobal param) span)
  | none =>
    let inner := { c with isFunction := true, locals := Scope.locals params names }
    let lowered : Lower Segment := do
      let body ← sequence (stmt inner none span) 0 body
      return body ++ (← loadLiteral span .none) ++ [.op .returnValue span]
    let (segment, tables) ← lowered.run {}
    return finish inner name params.length segment tables

/-- A statement that may nest `room` levels. -/
def statement : Nat → Stmt
  | room, c, loop, span, pos, id => do
    let n ← node c span id
    match room with
    | 0 => fail (.tooNested .nodes) n.span
    | room + 1 =>
      let span := n.span
      match n.kind with
      | .exprStmt value => return (← expression c room span pos value) ++ [.op .pop span]
      | .assign targets value =>
        if targets.isEmpty then fail .noTarget span
        let value ← expression c room span pos value
        return value ++ (← storeAll c room span (pos + value.length) targets)
      | .augAssign target op value => augmented c room span pos target op value
      | .functionDef name params body =>
        let code ← function c (statement room) span name params body
        let i ← constant (.code code)
        return .op (.makeFunction i) span :: (← storeName c span name)
      | .returnStmt value =>
        if !c.isFunction then fail .returnOutsideFunction span
        let value ← match value with
          | some value => expression c room span pos value
          | none => loadLiteral span .none
        return value ++ [.op .returnValue span]
      | .ifStmt test body orelse =>
        let stmts := fun span => sequence (statement room c loop span)
        ifChain c room stmts c.tree.size span pos test body orelse
      | .whileLoop test body => whileLoop c room (statement room) span pos test body
      | .forLoop target iter body => forLoop c room (statement room) span pos target iter body
      | .globalStmt _ | .passStmt => return []
      | .breakStmt =>
        match loop with
        | none => fail .breakOutsideLoop span
        | some loop => return (if loop.isFor then [.op .popIter span] else []) ++ [.leave span]
      | .continueStmt =>
        match loop with
        | none => fail .continueOutsideLoop span
        | some loop => return [.op (.jump loop.again) span]
      | kind => fail (.notStatement kind.describe) span

/-- The deepest nesting of nodes. -/
def maxNesting : Nat := 150

/-! ### Whole trees -/

/-- The nodes at the top, if the tree has the form that the mode asks for. -/
def topLevel (t : Tree) (mode : Mode) : Except SyntaxError (List NodeId) := do
  let resolve (id : NodeId) : Except SyntaxError Node :=
    match t.get? id with
    | some n => .ok n
    | none => .error (.invalid (.danglingNode id) none)
  match mode, t.root with
  | .exec, .module body => return body
  | .eval, .expression body =>
    let n ← resolve body
    if n.kind.isStatement then throw (.invalid (.notExpression n.kind.describe) n.span)
    return [body]
  | .single, .interactive body =>
    match body with
    | _ :: second :: _ =>
      for id in body do
        if (← resolve id).kind.isCompound then
          throw (.multipleStatements (← resolve second).span)
      return body
    | _ => return body
  | mode, root => throw (.invalid (.wrongRoot root.describe mode) none)

end Lower

/-- The code of a tree. -/
def Code.ofTree (t : Tree) (mode : Mode) : Except SyntaxError Code := do
  let body ← Lower.topLevel t mode
  let c : Lower.Context := ⟨t, mode, false, []⟩
  let lowered : Lower Lower.Segment := do
    match mode with
    | .eval =>
      let value ← Lower.sequence (Lower.expression c Lower.maxNesting {}) 0 body
      return value ++ [.op .returnValue {}]
    | .exec | .single =>
      let body ← Lower.sequence (Lower.statement Lower.maxNesting c none {}) 0 body
      return body ++ (← Lower.loadLiteral {} .none) ++ [.op .returnValue {}]
  let (segment, tables) ← lowered.run {}
  return Lower.finish c "<module>" 0 segment tables

end Scratchpad
