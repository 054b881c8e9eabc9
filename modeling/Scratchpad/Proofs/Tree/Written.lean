import Mathlib
import Scratchpad.Tree.Statement

/-!
# Expressions as they are written

An `Expression` stands by itself, without places and positions. `Expression.tokens` writes it with
no more parentheses than its operators need, `Expression.ofNode` gets it back from the nodes of a
tree, and `nesting` counts how many parsers stand in each other to read it.
-/

namespace Scratchpad

inductive Expression where
  | name (id : String)
  | literal (value : Literal)
  | binary (left : Expression) (op : BinaryOp) (right : Expression)
  | unary (op : UnaryOp) (operand : Expression)
  /-- Two operands at least. -/
  | boolean (op : BoolOp) (first second : Expression) (others : List Expression)
  /-- One link at least. -/
  | compare (left : Expression) (op : CompareOp) (right : Expression)
      (others : List (CompareOp × Expression))
  | conditional (test body orelse : Expression)
  | named (target : String) (value : Expression)
  | call (func : Expression) (args : List Expression)
  | attribute (value : Expression) (attr : String)
  | subscript (value index : Expression)
  | list (elts : List Expression)
  | tuple (elts : List Expression)
  | dict (pairs : List (Expression × Expression))

namespace Expression

/-- The operands, from left to right. -/
def parts : Expression → List Expression
  | .name _ | .literal _ => []
  | .binary left _ right => [left, right]
  | .unary _ operand => [operand]
  | .boolean _ first second others => first :: second :: others
  | .compare left _ right others => left :: right :: others.map (·.2)
  | .conditional test body orelse => [test, body, orelse]
  | .named _ value => [value]
  | .call func args => func :: args
  | .attribute value _ => [value]
  | .subscript value index => [value, index]
  | .list elts | .tuple elts => elts
  | .dict pairs => pairs.map (·.1) ++ pairs.map (·.2)

theorem sizeOf_part {e x : Expression} (h : x ∈ e.parts) : sizeOf x < sizeOf e := by
  have link : ∀ {others : List (CompareOp × Expression)}, x ∈ others.map (·.2) →
      sizeOf x < sizeOf others := by
    intro others mem
    obtain ⟨⟨op, _⟩, listed, rfl⟩ := List.mem_map.mp mem
    have less := List.sizeOf_lt_of_mem listed
    simp only [Prod.mk.sizeOf_spec] at less ⊢
    omega
  have pair : ∀ {pairs : List (Expression × Expression)},
      x ∈ pairs.map (·.1) ++ pairs.map (·.2) → sizeOf x < sizeOf pairs := by
    intro pairs mem
    rcases List.mem_append.mp mem with mem | mem
    all_goals
      obtain ⟨⟨key, value⟩, listed, rfl⟩ := List.mem_map.mp mem
      have less := List.sizeOf_lt_of_mem listed
      simp only [Prod.mk.sizeOf_spec] at less ⊢
      omega
  have item : ∀ {elts : List Expression}, x ∈ elts → sizeOf x < sizeOf elts :=
    List.sizeOf_lt_of_mem
  cases e <;> simp only [parts, List.mem_cons, List.not_mem_nil, or_false] at h <;> grind

/-- What holds of an expression if it holds of its operands, holds of all. -/
theorem induction {P : Expression → Prop} (step : ∀ e, (∀ x ∈ e.parts, P x) → P e)
    (e : Expression) : P e := by
  induction size : sizeOf e using Nat.strongRecOn generalizing e with
  | ind n ih => exact step e fun x mem => ih _ (size ▸ sizeOf_part mem) x rfl

/-! ### From nodes -/

/-- The expression of a node, given those of the nodes below. -/
def ofKind (part : NodeId → Option Expression) : NodeKind → Option Expression
  | .name id => some (.name id)
  | .literal value => some (.literal value)
  | .binary left op right => return .binary (← part left) op (← part right)
  | .unary op operand => return .unary op (← part operand)
  | .boolean op values => do
    match ← values.mapM part with
    | first :: second :: others => some (.boolean op first second others)
    | _ => none
  | .compare left ops comparators =>
    if ops.length = comparators.length then do
      let left ← part left
      match ops.zip (← comparators.mapM part) with
      | (op, right) :: others => some (.compare left op right others)
      | [] => none
    else none
  | .conditional test body orelse =>
    return .conditional (← part test) (← part body) (← part orelse)
  | .named target value => return .named target (← part value)
  | .call func args => return .call (← part func) (← args.mapM part)
  | .attribute value attr => return .attribute (← part value) attr
  | .subscript value index => return .subscript (← part value) (← part index)
  | .list elts => return .list (← elts.mapM part)
  | .tuple elts => return .tuple (← elts.mapM part)
  | .dict keys values =>
    if keys.length = values.length then
      return .dict ((← keys.mapM part).zip (← values.mapM part))
    else none
  | _ => none

/-- The expression that hangs on a node, if it nests at most so deep. -/
def ofNode (nodes : Array Node) : Nat → NodeId → Option Expression
  | 0, _ => none
  | depth + 1, id => do ofKind (ofNode nodes depth) (← nodes[id]?).kind

theorem mapM_mono {f g : α → Option β} (h : ∀ a b, f a = some b → g a = some b) {as : List α}
    {bs : List β} (mapped : as.mapM f = some bs) : as.mapM g = some bs := by
  induction as generalizing bs with
  | nil => exact mapped
  | cons a as ih =>
    simp only [List.mapM_cons, Option.bind_eq_bind, Option.bind_eq_some_iff] at mapped ⊢
    obtain ⟨b, first, rest, more, same⟩ := mapped
    exact ⟨b, h a b first, rest, ih more, same⟩

theorem ofKind_mono {part part' : NodeId → Option Expression}
    (h : ∀ id e, part id = some e → part' id = some e) {kind : NodeKind}
    (made : ofKind part kind = some e) : ofKind part' kind = some e := by
  have all : ∀ {ids : List NodeId} {es : List Expression}, ids.mapM part = some es →
      ids.mapM part' = some es := mapM_mono h
  cases kind with
  | compare left ops comparators =>
    simp only [ofKind] at made ⊢
    split at made
    · rename_i even
      rw [if_pos even]
      simp only [Option.bind_eq_bind, Option.bind_eq_some_iff] at made ⊢
      obtain ⟨l, first, rs, rest, same⟩ := made
      exact ⟨l, h _ _ first, rs, all rest, same⟩
    · cases made
  | dict keys values =>
    simp only [ofKind] at made ⊢
    split at made
    · rename_i even
      rw [if_pos even]
      simp only [Option.bind_eq_bind, Option.bind_eq_some_iff] at made ⊢
      obtain ⟨ks, first, vs, rest, same⟩ := made
      exact ⟨ks, all first, vs, all rest, same⟩
    · cases made
  | _ => simp only [ofKind, Option.bind_eq_bind, Option.bind_eq_some_iff] at made ⊢; grind

end Expression

/-- The nodes of `a` are the first ones of `b`. -/
def Grows (a b : Array Node) : Prop := ∀ (i : Nat) (n : Node), a[i]? = some n → b[i]? = some n

theorem Grows.refl (a : Array Node) : Grows a a := fun _ _ => id

theorem Grows.trans (h : Grows a b) (h' : Grows b c) : Grows a c := fun i n found =>
  h' i n (h i n found)

theorem grows_push (nodes : Array Node) (n : Node) : Grows nodes (nodes.push n) := by
  intro i m found
  obtain ⟨lt, rfl⟩ := Array.getElem?_eq_some_iff.mp found
  exact Array.getElem?_push_lt lt

namespace Expression

variable {nodes nodes' : Array Node} {id : NodeId}

theorem ofNode_mono (more : Grows nodes nodes') (le : d ≤ d')
    (made : ofNode nodes d id = some e) : ofNode nodes' d' id = some e := by
  induction d generalizing d' id e with
  | zero => cases made
  | succ d ih =>
    cases d' with
    | zero => omega
    | succ d' =>
      obtain ⟨n, found, made⟩ := Option.bind_eq_some_iff.mp made
      refine Option.bind_eq_some_iff.mpr ⟨n, more id n found, ?_⟩
      exact ofKind_mono (fun x e' => ih (by omega)) made

/-- The expression hangs on the node, with nothing below the node that was made after it. -/
def Hangs (nodes : Array Node) (id : NodeId) (e : Expression) : Prop :=
  ofNode nodes (id + 1) id = some e

theorem Hangs.mono (h : Hangs nodes id e) (more : Grows nodes nodes') : Hangs nodes' id e :=
  ofNode_mono more (Nat.le_refl _) h

theorem Hangs.lt_size (h : Hangs nodes id e) : id < nodes.size := by
  obtain ⟨n, found, _⟩ := Option.bind_eq_some_iff.mp h
  exact (Array.getElem?_eq_some_iff.mp found).1

/-- A new node finds what hangs on the old ones. -/
theorem Hangs.below (h : Hangs nodes id e) (n : Node) :
    ofNode (nodes.push n) nodes.size id = some e :=
  ofNode_mono (grows_push nodes n) h.lt_size h

theorem hangs_push (made : ofKind (ofNode (nodes.push ⟨kind, span⟩) nodes.size) kind = some e) :
    Hangs (nodes.push ⟨kind, span⟩) nodes.size e := by
  rw [Hangs, ofNode, Array.getElem?_push_size]
  exact made

theorem mapM_below {ids : List NodeId} {es : List Expression}
    (h : List.Forall₂ (Hangs nodes) ids es) (n : Node) :
    ids.mapM (ofNode (nodes.push n) nodes.size) = some es := by
  induction h with
  | nil => rfl
  | cons first _ ih => simp [first.below n, ih]

/-! ### Levels -/

/-- How tightly the operators bind, the loosest first. -/
inductive Level where
  | conditional | disjunction | conjunction | negation | comparison | sum | term | sign | power
  | primary | atom
deriving DecidableEq

def Level.rank : Level → Nat
  | .conditional => 0
  | .disjunction => 1
  | .conjunction => 2
  | .negation => 3
  | .comparison => 4
  | .sum => 5
  | .term => 6
  | .sign => 7
  | .power => 8
  | .primary => 9
  | .atom => 10

def opLevel : BinaryOp → Level
  | .add | .sub => .sum
  | .mul | .div | .floorDiv | .mod => .term
  | .pow => .power

/-- A tuple and a named expression are written in parentheses of their own. -/
def level : Expression → Level
  | .conditional .. => .conditional
  | .boolean .or .. => .disjunction
  | .boolean .and .. => .conjunction
  | .unary .not _ => .negation
  | .compare .. => .comparison
  | .binary _ op _ => opLevel op
  | .unary _ _ => .sign
  | .call .. | .attribute .. | .subscript .. => .primary
  | .name _ | .literal _ | .named .. | .list _ | .tuple _ | .dict _ => .atom

/-- What the operand on the left must bind as tightly as. -/
def leftLevel : BinaryOp → Level
  | .pow => .primary
  | op => opLevel op

def rightLevel : BinaryOp → Level
  | .add | .sub => .term
  | _ => .sign

def operandLevel : UnaryOp → Level
  | .not => .negation
  | _ => .sign

def wordLevel : BoolOp → Level
  | .or => .conjunction
  | .and => .negation

/-! ### Tokens -/

def literalToken : Literal → Token
  | .none => .keyword .noneKw
  | .bool true => .keyword .trueKw
  | .bool false => .keyword .falseKw
  | .int n => .int n
  | .float d => .float d
  | .text s => .text s

def opToken : BinaryOp → Token
  | .add => .symbol .plus
  | .sub => .symbol .minus
  | .mul => .symbol .star
  | .div => .symbol .slash
  | .floorDiv => .symbol .doubleSlash
  | .mod => .symbol .percent
  | .pow => .symbol .doubleStar

def unaryToken : UnaryOp → Token
  | .neg => .symbol .minus
  | .pos => .symbol .plus
  | .not => .keyword .notKw

def word : BoolOp → Keyword
  | .and => .andKw
  | .or => .orKw

def compareTokens : CompareOp → List Token
  | .eq => [.symbol .eq]
  | .notEq => [.symbol .ne]
  | .lt => [.symbol .lt]
  | .ltE => [.symbol .le]
  | .gt => [.symbol .gt]
  | .gtE => [.symbol .ge]
  | .isIn => [.keyword .inKw]
  | .notIn => [.keyword .notKw, .keyword .inKw]
  | .same => [.keyword .isKw]
  | .notSame => [.keyword .isKw, .keyword .notKw]

/-- In parentheses if the expression binds more loosely than its position asks for. -/
def wrap (position own : Level) (ts : List Token) : List Token :=
  if own.rank < position.rank then .symbol .leftParen :: ts ++ [.symbol .rightParen] else ts

def commas (items : List (List Token)) : List Token := [.symbol .comma].intercalate items

mutual

def tokens : Expression → List Token
  | .name id => [.name id]
  | .literal value => [literalToken value]
  | .binary left op right =>
    wrap (leftLevel op) left.level left.tokens ++
      opToken op :: wrap (rightLevel op) right.level right.tokens
  | .unary op operand => unaryToken op :: wrap (operandLevel op) operand.level operand.tokens
  | .boolean op first second others =>
    wrap (wordLevel op) first.level first.tokens ++ .keyword (word op) ::
      wrap (wordLevel op) second.level second.tokens ++ wordTokens op others
  | .compare left op right others =>
    wrap .sum left.level left.tokens ++ compareTokens op ++
      wrap .sum right.level right.tokens ++ linkTokens others
  | .conditional test body orelse =>
    wrap .disjunction body.level body.tokens ++ .keyword .ifKw ::
      wrap .disjunction test.level test.tokens ++ .keyword .elseKw :: orelse.tokens
  | .named target value =>
    .symbol .leftParen :: .name target :: .symbol .walrus :: value.tokens ++ [.symbol .rightParen]
  | .call func args =>
    wrap .primary func.level func.tokens ++
      .symbol .leftParen :: commas (itemTokens args) ++ [.symbol .rightParen]
  | .attribute value attr => wrap .primary value.level value.tokens ++ [.symbol .dot, .name attr]
  | .subscript value index =>
    wrap .primary value.level value.tokens ++
      .symbol .leftBracket :: index.tokens ++ [.symbol .rightBracket]
  | .list elts => .symbol .leftBracket :: commas (itemTokens elts) ++ [.symbol .rightBracket]
  | .tuple elts =>
    .symbol .leftParen :: commas (itemTokens elts) ++
      (if elts.length = 1 then [.symbol .comma] else []) ++ [.symbol .rightParen]
  | .dict pairs => .symbol .leftBrace :: commas (pairTokens pairs) ++ [.symbol .rightBrace]

def itemTokens : List Expression → List (List Token)
  | [] => []
  | e :: es => e.tokens :: itemTokens es

def pairTokens : List (Expression × Expression) → List (List Token)
  | [] => []
  | (key, value) :: pairs => (key.tokens ++ .symbol .colon :: value.tokens) :: pairTokens pairs

def wordTokens (op : BoolOp) : List Expression → List Token
  | [] => []
  | e :: es => .keyword (word op) :: wrap (wordLevel op) e.level e.tokens ++ wordTokens op es

def linkTokens : List (CompareOp × Expression) → List Token
  | [] => []
  | (op, e) :: links => compareTokens op ++ wrap .sum e.level e.tokens ++ linkTokens links

end

/-- The tokens of an expression in a position. -/
def tokensAt (position : Level) (e : Expression) : List Token := wrap position e.level e.tokens

/-! ### Nesting -/

/-- Parentheses nest one level deeper. -/
def wrapped (position own : Level) (n : Nat) : Nat := if own.rank < position.rank then n + 1 else n

mutual

/-- How many levels deep the parsers nest that read the expression. -/
def nesting : Expression → Nat
  | .name _ | .literal _ => 0
  | .binary left op right =>
    max (wrapped (leftLevel op) left.level left.nesting)
      (wrapped (rightLevel op) right.level right.nesting + if op = .pow then 1 else 0)
  | .unary op operand => wrapped (operandLevel op) operand.level operand.nesting + 1
  | .boolean op first second others =>
    max (wrapped (wordLevel op) first.level first.nesting) <|
      max (wrapped (wordLevel op) second.level second.nesting) (nestingAt (wordLevel op) others)
  | .compare left _ right others =>
    max (wrapped .sum left.level left.nesting) <|
      max (wrapped .sum right.level right.nesting) (nestingLinks others)
  | .conditional test body orelse =>
    max (wrapped .disjunction test.level test.nesting) <|
      max (wrapped .disjunction body.level body.nesting) (orelse.nesting + 1)
  | .named _ value => value.nesting + 1
  | .call func args =>
    max (wrapped .primary func.level func.nesting) (nestingAt .conditional args + 1)
  | .attribute value _ => wrapped .primary value.level value.nesting
  | .subscript value index =>
    max (wrapped .primary value.level value.nesting) (index.nesting + 1)
  | .list elts | .tuple elts => nestingAt .conditional elts + 1
  | .dict pairs => nestingPairs pairs + 1

def nestingAt (position : Level) : List Expression → Nat
  | [] => 0
  | e :: es => max (wrapped position e.level e.nesting) (nestingAt position es)

def nestingPairs : List (Expression × Expression) → Nat
  | [] => 0
  | (key, value) :: pairs => max (max key.nesting value.nesting) (nestingPairs pairs)

def nestingLinks : List (CompareOp × Expression) → Nat
  | [] => 0
  | (_, e) :: links => max (wrapped .sum e.level e.nesting) (nestingLinks links)

end

end Expression

end Scratchpad
