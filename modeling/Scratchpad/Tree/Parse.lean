import Scratchpad.SyntaxError

/-! Reading a tree off a token list: the state, and the steps that the grammar is made of. -/
namespace Scratchpad

/-- The deepest nesting of brackets, operators and blocks. -/
def Parse.maxNesting : Nat := 100

/-- The tokens still to read and the nodes made so far. -/
structure Parse.State where
  rest : List Token.Placed
  nodes : Array Node := #[]
  /-- The place of the last token of all, where errors at the end point. -/
  last : Option Span
  /-- The number of tokens of all; no loop of the grammar makes more rounds. -/
  total : Nat
  /-- How many levels of nesting are open. -/
  depth : Fin (maxNesting + 1) := 0

def Parse.State.ofTokens (tokens : List Token.Placed) : State where
  rest := tokens
  last := tokens.getLast?.map (·.span)
  total := tokens.length

abbrev Parse := StateT Parse.State (Except SyntaxError)

namespace Parse

def fail (violation : Violation) (span : Option Span) : Parse α :=
  throw (.invalid violation span)

def peek? : Parse (Option Token) := return (← get).rest.head?.map (·.token)

def peekSpan? : Parse (Option Span) := return (← get).rest.head?.map (·.span)

/-- The token after the next one. -/
def peekSecond? : Parse (Option Token) := return ((← get).rest.drop 1).head?.map (·.token)

/-- Passes the next token and gives its place. -/
def advance : Parse Span := fun s =>
  match s.rest with
  | [] => .ok ({}, s)
  | t :: rest => .ok (t.span, { s with rest })

/-- Passes the next token if it is `t`. -/
def eat (t : Token) : Parse Bool := do
  if (← peek?) = some t then
    let _ ← advance
    return true
  return false

/-- The error for a token, or an end, that does not fit. -/
def unexpected (what : Expected) : Parse α := fun s =>
  match s.rest with
  | ⟨.indent, span⟩ :: _ => .error (.invalid .unexpectedIndent span)
  | ⟨t, span⟩ :: _ => .error (.invalid (.missing what t) span)
  | [] => .error (.invalid (.missing what none) s.last)

def expect (t : Token) : Parse Span := do
  if (← peek?) = some t then advance else unexpected (.token t)

def expectName : Parse (String × Span) := do
  match ← peek? with
  | some (.name id) => return (id, ← advance)
  | _ => unexpected .identifier

def push (kind : NodeKind) (span : Span) : Parse NodeId := fun s =>
  .ok (s.nodes.size, { s with nodes := s.nodes.push ⟨kind, span⟩ })

def node? (id : NodeId) : Parse (Option Node) := return (← get).nodes[id]?

def spanOf (id : NodeId) : Parse Span := return ((← node? id).map (·.span)).getD {}

/-- A node from the start of `first` to the end of `last`. -/
def pushBetween (kind : NodeKind) (first last : NodeId) : Parse NodeId := do
  push kind ((← spanOf first).merge (← spanOf last))

/-! ### Nesting -/

def descend (what : Nesting) : Parse Unit := do
  let depth := (← get).depth
  if h : depth < maxNesting then
    modify fun s => { s with depth := ⟨depth + 1, Nat.succ_lt_succ h⟩ }
  else fail (.tooNested what) (← peekSpan?)

def ascend : Parse Unit := modify fun s => { s with depth := ⟨s.depth - 1, by omega⟩ }

/-- Reads one level deeper. -/
def nested (what : Nesting) (p : Parse α) : Parse α := do
  descend what
  let a ← p
  ascend
  return a

/-! ### Loops -/

def repeatFrom (step : α → Parse (Option α)) : Nat → α → Parse α
  | 0, _ => fail .unending none
  | rounds + 1, a => do
    match ← step a with
    | none => pure a
    | some b => repeatFrom step rounds b

/-- Repeats a step until it has nothing to add. Each round but the last passes a token. -/
def iterate (step : α → Parse (Option α)) (a : α) : Parse α := do
  repeatFrom step ((← get).total + 1) a

def skipNewlines : Parse Unit :=
  iterate (fun _ => do if ← eat .newline then return some () else return none) ()

/-- More items, as long as `continues` finds that there is one. -/
def more (continues : Parse Bool) (item : Parse α) (items : List α) : Parse (List α) :=
  iterate (fun items => do
    if ← continues then return some (items ++ [← item]) else return none) items

/-- Items with commas between them, up to a closing token, which is not passed. -/
def itemsBefore (closer : Token) (item : List α → Parse α) : Parse (List α) := do
  let (items, _) ← iterate (fun (items, go) => do
    if !go || (← peek?) = some closer then return none
    let items := items ++ [← item items]
    return some (items, ← eat (.symbol .comma))) ([], true)
  return items

end Parse

end Scratchpad
