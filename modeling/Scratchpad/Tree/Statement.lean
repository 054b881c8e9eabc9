import Scratchpad.Tree.Expression

/-! The grammar of statements, and the trees of whole sources. -/
namespace Scratchpad.Parse

/-- The targets of a loop. They stop before `in`, so no comparison is read. -/
def targetList (inner : Inner) : Parse NodeId := do
  let first ← sum inner
  if (← peek?) ≠ some (.symbol .comma) then return first
  let continues : Parse Bool := do
    if ← eat (.symbol .comma) then return (← peek?) ≠ some (.keyword .inKw)
    return false
  let elts ← more continues (sum inner) [first]
  pushBetween (.tuple elts) first (elts.getLastD first)

/-- Only names, subscripts, attributes and displays of them can be assigned to. A node nests no
deeper than there are nodes. -/
def checkTarget : Nat → NodeId → Parse Unit
  | 0, _ => fail .unending none
  | depth + 1, id => do
    match ← node? id with
    | some ⟨.name _, _⟩ | some ⟨.subscript .., _⟩ | some ⟨.attribute .., _⟩ => pure ()
    | some ⟨.tuple elts, _⟩ | some ⟨.list elts, _⟩ => elts.forM (checkTarget depth)
    | some node => fail (.illegalTarget node.kind.describe) node.span
    | none => pure ()

def requireTarget (id : NodeId) : Parse Unit := do
  checkTarget ((← get).nodes.size + 1) id

def augmentedOp? : Option Token → Option BinaryOp
  | some (.symbol .plusAssign) => some .add
  | some (.symbol .minusAssign) => some .sub
  | some (.symbol .starAssign) => some .mul
  | some (.symbol .slashAssign) => some .div
  | some (.symbol .doubleSlashAssign) => some .floorDiv
  | some (.symbol .percentAssign) => some .mod
  | some (.symbol .doubleStarAssign) => some .pow
  | _ => none

def canAugment : NodeKind → Bool
  | .name _ | .subscript .. | .attribute .. => true
  | _ => false

def augmented (inner : Inner) (target : NodeId) (op : BinaryOp) : Parse NodeId := do
  if let some node ← node? target then
    if !canAugment node.kind then
      fail (.illegalAugmentedTarget node.kind.describe) (← peekSpan?)
  let _ ← advance
  let value ← testList inner
  pushBetween (.augAssign target op value) target value

/-- `a = b = value`: every expression but the last is a target. -/
def assignment (inner : Inner) (first : NodeId) : Parse NodeId := do
  let chain ← more (eat (.symbol .assign)) (testList inner) [first]
  let value := chain.getLastD first
  let targets := chain.dropLast
  targets.forM requireTarget
  pushBetween (.assign targets value) first value

def expressionStatement (inner : Inner) : Parse NodeId := do
  let first ← testList inner
  match augmentedOp? (← peek?) with
  | some op => augmented inner first op
  | none =>
    if (← peek?) = some (.symbol .assign) then assignment inner first
    else push (.exprStmt first) (← spanOf first)

def returnStatement (inner : Inner) : Parse NodeId := do
  let start ← advance
  match ← peek? with
  | none | some .newline | some (.symbol .semicolon) => push (.returnStmt none) start
  | some _ =>
    let value ← testList inner
    push (.returnStmt value) (start.merge (← spanOf value))

def globalStatement : Parse NodeId := do
  let start ← advance
  let first ← expectName
  let names ← more (eat (.symbol .comma)) expectName [first]
  push (.globalStmt (names.map (·.1))) (names.foldl (fun span name => span.merge name.2) start)

def smallStatement (inner : Inner) : Parse NodeId := do
  match ← peek? with
  | none => unexpected .statement
  | some (.keyword .passKw) => leaf .passStmt
  | some (.keyword .breakKw) => leaf .breakStmt
  | some (.keyword .continueKw) => leaf .continueStmt
  | some (.keyword .returnKw) => returnStatement inner
  | some (.keyword .globalKw) => globalStatement
  | some _ => expressionStatement inner

/-- `small (';' small)* [';'] NEWLINE`; the newline may be missing at the end. -/
def simpleStatements (inner : Inner) : Parse (List NodeId) := do
  let first ← smallStatement inner
  let continues : Parse Bool := do
    if ← eat (.symbol .semicolon) then
      match ← peek? with
      | none | some .newline => return false
      | some _ => return true
    return false
  let ids ← more continues (smallStatement inner) [first]
  match ← peek? with
  | some .newline =>
    let _ ← advance
    return ids
  | none => return ids
  | some _ => fail .leftover (← peekSpan?)

/-- The place of the last statement, where a block ends. -/
def endOf (body : List NodeId) : Parse Span :=
  match body.getLast? with
  | some id => spanOf id
  | none => return {}

/-- A colon, and the statements of the block with the place where it ends. -/
def block (inner : Inner) : Parse (List NodeId × Span) := do
  let _ ← expect (.symbol .colon)
  let body ← inner.block
  return (body, ← endOf body)

def parameter (params : List String) : Parse String := do
  let (name, span) ← expectName
  if params.contains name then fail (.duplicateParameter name) span
  return name

def functionDef (inner : Inner) : Parse NodeId := do
  let start ← advance
  let (name, _) ← expectName
  let _ ← expect (.symbol .leftParen)
  let params ← itemsBefore (.symbol .rightParen) parameter
  let _ ← expect (.symbol .rightParen)
  let (body, stop) ← block inner
  push (.functionDef name params body) (start.merge stop)

/-- The keyword, the test and the block of an `if` or `elif`. -/
structure Branch where
  start : Span
  test : NodeId
  body : List NodeId
  stop : Span

def branch (inner : Inner) : Parse Branch := do
  let start ← advance
  let test ← namedTest inner
  let (body, stop) ← block inner
  return ⟨start, test, body, stop⟩

/-- The node of the first branch. Each later one is the lone statement of the `else` before it,
and all end where the last block ends. -/
def pushBranches (stop : Span) (orelse : List NodeId) : List Branch → Parse (List NodeId)
  | [] => return orelse
  | first :: others => do
    let orelse ← pushBranches stop orelse others
    return [← push (.ifStmt first.test first.body orelse) (first.start.merge stop)]

def ifStatement (inner : Inner) : Parse (List NodeId) := do
  let first ← branch inner
  let isElif : Parse Bool := return (← peek?) = some (.keyword .elifKw)
  let branches ← more isElif (branch inner) [first]
  let stop := (branches.getLastD first).stop
  if ← eat (.keyword .elseKw) then
    let (orelse, stop) ← block inner
    pushBranches stop orelse branches
  else pushBranches stop [] branches

def whileStatement (inner : Inner) : Parse NodeId := do
  let start ← advance
  let test ← namedTest inner
  let (body, stop) ← block inner
  push (.whileLoop test body) (start.merge stop)

def forStatement (inner : Inner) : Parse NodeId := do
  let start ← advance
  let target ← targetList inner
  requireTarget target
  let _ ← expect (.keyword .inKw)
  let iter ← testList inner
  let (body, stop) ← block inner
  push (.forLoop target iter body) (start.merge stop)

/-- The nodes of one compound statement or of one line. -/
def statement (inner : Inner) : Parse (List NodeId) := do
  match ← peek? with
  | some (.keyword .defKw) => return [← functionDef inner]
  | some (.keyword .ifKw) => ifStatement inner
  | some (.keyword .whileKw) => return [← whileStatement inner]
  | some (.keyword .forKw) => return [← forStatement inner]
  | _ => simpleStatements inner

/-- One more item of an indented block, or its end. -/
def blockItem (inner : Inner) (body : List NodeId × Bool) :
    Parse (Option (List NodeId × Bool)) := do
  if body.2 then return none
  match ← peek? with
  | some .dedent =>
    let _ ← advance
    return some (body.1, true)
  | some .newline =>
    let _ ← advance
    return some body
  | none => unexpected .dedent
  | some _ => return some (body.1 ++ (← statement inner), false)

/-- `simple_stmts | NEWLINE INDENT stmt+ DEDENT` -/
def blockBody (inner : Inner) : Parse (List NodeId) := do
  if ← eat .newline then
    if (← peek?) ≠ some .indent then unexpected .indentedBlock
    let _ ← advance
    let (body, _) ← iterate (blockItem inner) ([], false)
    return body
  else simpleStatements inner

/-- Parsers that call each other up to `fuel` levels down. -/
def Inner.ofFuel : Nat → Inner
  | 0 =>
    let stop {α : Type} : Parse α := fail .unending none
    ⟨stop, stop, stop, stop, stop⟩
  | fuel + 1 =>
    let inner := ofFuel fuel
    { test := nested .parentheses (conditional inner)
      negated := nested .unaryOperators (notTest inner)
      signed := nested .unaryOperators (factor inner)
      exponent := nested .exponents (factor inner)
      block := nested .blocks (blockBody inner) }

/-! ### Whole sources -/

def module (inner : Inner) : Parse Root := do
  skipNewlines
  let body ← iterate (fun body => do
    if (← peek?).isNone then return none
    let ids ← statement inner
    skipNewlines
    return some (body ++ ids)) []
  return .module body

def expression (inner : Inner) : Parse Root := do
  skipNewlines
  if (← peek?).isNone then unexpected .expression
  let body ← testList inner
  skipNewlines
  if let some span ← peekSpan? then fail .leftover span
  return .expression body

def interactive (inner : Inner) : Parse Root := do
  skipNewlines
  if (← peek?).isNone then return .interactive []
  let body ← statement inner
  skipNewlines
  if let some span ← peekSpan? then throw (.multipleStatements span)
  return .interactive body

/-- More levels than one beyond the deepest nesting are not entered. -/
def root (mode : Mode) : Parse Root :=
  let inner := Inner.ofFuel (maxNesting + 1)
  match mode with
  | .exec => module inner
  | .eval => expression inner
  | .single => interactive inner

end Parse

namespace Tree

/-- The tree of a token list. -/
def ofTokens (mode : Mode) (tokens : List Token.Placed) : Except SyntaxError Tree := do
  let (root, s) ← (Parse.root mode).run (.ofTokens tokens)
  return ⟨s.nodes, root⟩

/-- The tree of a source text. -/
def ofSource (mode : Mode) (flags : Flags) (source : String) : Except SyntaxError Tree := do
  let tokens ← (Token.tokenize flags source.toList).mapError .lexical
  ofTokens mode tokens

end Tree

end Scratchpad
