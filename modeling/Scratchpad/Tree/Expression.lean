import Scratchpad.Tree.Parse

/-! The grammar of expressions, loosest level first. What counts as one level of nesting is read
by the `Inner` parsers. -/
namespace Scratchpad.Parse

/-- The parsers that go one level deeper: a whole expression, the operand of `not`, the operand
of a sign, an exponent, and the statements of a block. -/
structure Inner where
  test : Parse NodeId
  negated : Parse NodeId
  signed : Parse NodeId
  exponent : Parse NodeId
  block : Parse (List NodeId)

/-- Can the token open an expression? -/
def startsExpression : Token → Bool
  | .name _ | .int _ | .float _ | .text _ => true
  | .keyword k => k = .trueKw || k = .falseKw || k = .noneKw || k = .notKw
  | .symbol s => s = .leftParen || s = .leftBracket || s = .leftBrace || s = .minus || s = .plus
  | _ => false

/-- `test (',' test)* [',']`; a comma makes a tuple. -/
def testList (inner : Inner) : Parse NodeId := do
  let first ← inner.test
  if (← peek?) ≠ some (.symbol .comma) then return first
  let continues : Parse Bool := do
    if ← eat (.symbol .comma) then return (← peek?).any startsExpression
    return false
  let elts ← more continues inner.test [first]
  pushBetween (.tuple elts) first (elts.getLastD first)

/-- `NAME ':=' test | test` -/
def namedTest (inner : Inner) : Parse NodeId := do
  match ← peek?, ← peekSecond? with
  | some (.name target), some (.symbol .walrus) =>
    let start ← advance
    let _ ← advance
    let value ← inner.test
    push (.named target value) (start.merge (← spanOf value))
  | _, _ => inner.test

/-! ### Atoms -/

/-- Adjacent texts are one. -/
def texts : Parse NodeId := do
  let start := (← peekSpan?).getD {}
  let (chars, stop) ← iterate (fun (chars, _) => do
    match ← peek? with
    | some (.text part) => return some (chars ++ part, ← advance)
    | _ => return none) ("", start)
  push (.literal (.text chars)) (start.merge stop)

/-- A tuple, or an expression in parentheses, which leaves no trace of them. -/
def parenthesized (inner : Inner) : Parse NodeId := do
  let start ← expect (.symbol .leftParen)
  if (← peek?) = some (.symbol .rightParen) then
    let stop ← expect (.symbol .rightParen)
    return ← push (.tuple []) (start.merge stop)
  let first ← namedTest inner
  if ← eat (.symbol .comma) then
    let others ← itemsBefore (.symbol .rightParen) fun _ => namedTest inner
    let stop ← expect (.symbol .rightParen)
    push (.tuple (first :: others)) (start.merge stop)
  else
    let _ ← expect (.symbol .rightParen)
    return first

def listDisplay (inner : Inner) : Parse NodeId := do
  let start ← expect (.symbol .leftBracket)
  let elts ← itemsBefore (.symbol .rightBracket) fun _ => namedTest inner
  let stop ← expect (.symbol .rightBracket)
  push (.list elts) (start.merge stop)

def dictPair (inner : Inner) : Parse (NodeId × NodeId) := do
  let key ← inner.test
  if (← peek?) ≠ some (.symbol .colon) then fail .setLiteral (← spanOf key)
  let _ ← advance
  return (key, ← inner.test)

def dictDisplay (inner : Inner) : Parse NodeId := do
  let start ← expect (.symbol .leftBrace)
  let pairs ← itemsBefore (.symbol .rightBrace) fun _ => dictPair inner
  let stop ← expect (.symbol .rightBrace)
  push (.dict (pairs.map (·.1)) (pairs.map (·.2))) (start.merge stop)

/-- Passes a token that is an expression of its own. -/
def leaf (kind : NodeKind) : Parse NodeId := do push kind (← advance)

def atom (inner : Inner) : Parse NodeId := do
  match ← peek? with
  | some (.name id) => leaf (.name id)
  | some (.int n) => leaf (.literal (.int n))
  | some (.float f) => leaf (.literal (.float f))
  | some (.text _) => texts
  | some (.keyword .trueKw) => leaf (.literal (.bool true))
  | some (.keyword .falseKw) => leaf (.literal (.bool false))
  | some (.keyword .noneKw) => leaf (.literal .none)
  | some (.symbol .leftParen) => parenthesized inner
  | some (.symbol .leftBracket) => listDisplay inner
  | some (.symbol .leftBrace) => dictDisplay inner
  | _ => unexpected .expression

/-! ### Operators -/

def argument (inner : Inner) : Parse NodeId := do
  match ← peek?, ← peekSecond? with
  | some (.name _), some (.symbol .assign) => fail .keywordArgument (← peekSpan?)
  | _, _ => namedTest inner

/-- A call, subscript or attribute of `expr`, if one follows. -/
def trailer (inner : Inner) (expr : NodeId) : Parse (Option NodeId) := do
  match ← peek? with
  | some (.symbol .leftParen) =>
    let _ ← advance
    let args ← itemsBefore (.symbol .rightParen) fun _ => argument inner
    let stop ← expect (.symbol .rightParen)
    return some (← push (.call expr args) ((← spanOf expr).merge stop))
  | some (.symbol .leftBracket) =>
    let _ ← advance
    let index ← testList inner
    let stop ← expect (.symbol .rightBracket)
    return some (← push (.subscript expr index) ((← spanOf expr).merge stop))
  | some (.symbol .dot) =>
    let _ ← advance
    let (attr, stop) ← expectName
    return some (← push (.attribute expr attr) ((← spanOf expr).merge stop))
  | _ => return none

def primary (inner : Inner) : Parse NodeId := do
  iterate (trailer inner) (← atom inner)

/-- `primary ['**' factor]`: to the right, and tighter than a sign on the left. -/
def power (inner : Inner) : Parse NodeId := do
  let base ← primary inner
  if ← eat (.symbol .doubleStar) then
    let exponent ← inner.exponent
    pushBetween (.binary base .pow exponent) base exponent
  else return base

def sign? : Option Token → Option UnaryOp
  | some (.symbol .minus) => some .neg
  | some (.symbol .plus) => some .pos
  | _ => none

def factor (inner : Inner) : Parse NodeId := do
  match sign? (← peek?) with
  | some op =>
    let start ← advance
    let operand ← inner.signed
    push (.unary op operand) (start.merge (← spanOf operand))
  | none => power inner

/-- Operands joined from the left by operators of one level. -/
def leftChain (op? : Option Token → Option BinaryOp) (operand : Parse NodeId) : Parse NodeId := do
  iterate (fun left => do
    match op? (← peek?) with
    | some op =>
      let _ ← advance
      let right ← operand
      return some (← pushBetween (.binary left op right) left right)
    | none => return none) (← operand)

def termOp? : Option Token → Option BinaryOp
  | some (.symbol .star) => some .mul
  | some (.symbol .slash) => some .div
  | some (.symbol .doubleSlash) => some .floorDiv
  | some (.symbol .percent) => some .mod
  | _ => none

def sumOp? : Option Token → Option BinaryOp
  | some (.symbol .plus) => some .add
  | some (.symbol .minus) => some .sub
  | _ => none

def term (inner : Inner) : Parse NodeId := leftChain termOp? (factor inner)

def sum (inner : Inner) : Parse NodeId := leftChain sumOp? (term inner)

/-- The comparison that starts with a token, given the one after it, and how many tokens it
takes. -/
def compareOp? : Option Token → Option Token → Option (CompareOp × Nat)
  | some (.symbol .eq), _ => some (.eq, 1)
  | some (.symbol .ne), _ => some (.notEq, 1)
  | some (.symbol .lt), _ => some (.lt, 1)
  | some (.symbol .le), _ => some (.ltE, 1)
  | some (.symbol .gt), _ => some (.gt, 1)
  | some (.symbol .ge), _ => some (.gtE, 1)
  | some (.keyword .inKw), _ => some (.isIn, 1)
  | some (.keyword .notKw), some (.keyword .inKw) => some (.notIn, 2)
  | some (.keyword .isKw), some (.keyword .notKw) => some (.notSame, 2)
  | some (.keyword .isKw), _ => some (.same, 1)
  | _, _ => none

/-- One link of a comparison. -/
def link (inner : Inner) (links : List (CompareOp × NodeId)) :
    Parse (Option (List (CompareOp × NodeId))) := do
  match compareOp? (← peek?) (← peekSecond?) with
  | some (op, size) =>
    let _ ← advance
    if size = 2 then let _ ← advance
    return some (links ++ [(op, ← sum inner)])
  | none => return none

def comparison (inner : Inner) : Parse NodeId := do
  let left ← sum inner
  match ← iterate (link inner) [] with
  | [] => return left
  | links =>
    let comparators := links.map (·.2)
    pushBetween (.compare left (links.map (·.1)) comparators) left (comparators.getLastD left)

def notTest (inner : Inner) : Parse NodeId := do
  if (← peek?) = some (.keyword .notKw) then
    let start ← advance
    let operand ← inner.negated
    push (.unary .not operand) (start.merge (← spanOf operand))
  else comparison inner

/-- Operands joined by one word; a lone operand stands for itself. -/
def wordChain (word : Keyword) (op : BoolOp) (operand : Parse NodeId) : Parse NodeId := do
  let first ← operand
  if (← peek?) ≠ some (.keyword word) then return first
  let values ← more (eat (.keyword word)) operand [first]
  pushBetween (.boolean op values) first (values.getLastD first)

def andTest (inner : Inner) : Parse NodeId := wordChain .andKw .and (notTest inner)

def orTest (inner : Inner) : Parse NodeId := wordChain .orKw .or (andTest inner)

/-- `or_test ['if' or_test 'else' test]` -/
def conditional (inner : Inner) : Parse NodeId := do
  let body ← orTest inner
  if (← peek?) ≠ some (.keyword .ifKw) then return body
  let _ ← advance
  let test ← orTest inner
  let _ ← expect (.keyword .elseKw)
  let orelse ← inner.test
  pushBetween (.conditional test body orelse) body orelse

end Scratchpad.Parse
