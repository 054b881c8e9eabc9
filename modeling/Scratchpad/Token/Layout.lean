import Scratchpad.Mode
import Scratchpad.Token.Scan

/-! The token list of a source text. Lines are measured for indentation, which opens and closes
blocks; inside brackets neither newlines nor indentation count. -/
namespace Scratchpad.Token

structure LexError where
  trouble : Trouble
  span : Span
deriving Repr, DecidableEq

def LexError.message (e : LexError) : String := e.trouble.message

/-- The text still to read, and the place where it starts. -/
structure Cursor where
  rest : List Char
  line : Nat := 1
  col : Nat := 1
  offset : Nat := 0

def Cursor.next (c : Cursor) : Cursor :=
  match c.rest with
  | [] => c
  | ch :: rest =>
    if ch = '\n' then ⟨rest, c.line + 1, 1, c.offset + ch.utf8Size⟩
    else ⟨rest, c.line, c.col + 1, c.offset + ch.utf8Size⟩

def Cursor.skip : Nat → Cursor → Cursor
  | 0, c => c
  | n + 1, c => skip n c.next

def Cursor.spanTo (start stop : Cursor) : Span :=
  ⟨start.line, start.col, start.offset, stop.offset⟩

@[simp] theorem Cursor.rest_next (c : Cursor) : c.next.rest = c.rest.tail := by
  unfold next
  split
  · simp_all
  · split <;> simp_all

@[simp] theorem Cursor.rest_skip (n : Nat) (c : Cursor) : (c.skip n).rest = c.rest.drop n := by
  induction n generalizing c with
  | zero => rfl
  | succ n ih => simp [skip, ih]

structure State where
  cursor : Cursor
  /-- The tokens read so far, latest first. -/
  tokens : List Placed := []
  /-- The widths of the open blocks, innermost first. -/
  indents : List Nat := []
  /-- The open brackets, innermost first. -/
  brackets : List (Symbol × Span) := []
  atLineStart : Bool := true
  /-- The last line read was blank or a comment. -/
  afterBlank : Bool := false

/-- A token from `start` to the place reached. -/
def State.push (s : State) (start : Cursor) (t : Token) : State :=
  { s with tokens := ⟨t, start.spanTo s.cursor⟩ :: s.tokens }

/-- Width of the blanks at the front of a line, and how many they are. A tab goes to the next
multiple of eight, a form feed back to zero. -/
def measure (width size : Nat) : List Char → Nat × Nat
  | [] => (width, size)
  | c :: rest =>
    if c = ' ' then measure (width + 1) (size + 1) rest
    else if c = '\t' then measure ((width / 8 + 1) * 8) (size + 1) rest
    else if c = '\x0c' then measure 0 (size + 1) rest
    else (width, size)

/-- Closes the blocks wider than `width`. -/
def State.closeWider (s : State) (start : Cursor) (width : Nat) : List Nat → State
  | [] => { s with indents := [] }
  | level :: outer =>
    if width < level then (s.push start .dedent).closeWider start width outer
    else { s with indents := level :: outer }

/-- Compares the width of a line with the open blocks. The cursor stands after the blanks. -/
def State.indentTo (s : State) (start : Cursor) (width : Nat) : Except LexError State :=
  let current := s.indents.headD 0
  if current < width then .ok { s.push start .indent with indents := width :: s.indents }
  else if width < current then
    let closed := s.closeWider start width s.indents
    if closed.indents.headD 0 = width then .ok closed
    else .error ⟨.inconsistentDedent, start.spanTo s.cursor⟩
  else .ok s

/-- The length of what is left of a blank or comment line, its newline included. -/
def blankLine? : List Char → Option Nat
  | [] => some 0
  | '\n' :: _ => some 1
  | '\r' :: '\n' :: _ => some 2
  | '#' :: rest =>
    let size := commentLength rest
    some (if (rest.drop size).isEmpty then 1 + size else 2 + size)
  | _ => none

/-- Adds a token, keeping count of the brackets. The cursor stands after it. -/
def State.accept (s : State) (start : Cursor) (t : Token) : Except LexError State :=
  let span := start.spanTo s.cursor
  match t with
  | .symbol b =>
    if b.closer?.isSome then .ok { s.push start t with brackets := (b, span) :: s.brackets }
    else if b.isCloser then
      match s.brackets with
      | (opener, _) :: outer =>
        if opener.closer? = some b then .ok { s.push start t with brackets := outer }
        else .error ⟨.unmatchedBracket b, span⟩
      | [] => .error ⟨.unmatchedBracket b, span⟩
    else .ok (s.push start t)
  | _ => .ok (s.push start t)

/-- Reads one lexeme within a line. -/
def State.inline (s : State) (c : Char) (rest : List Char) : Except LexError State :=
  let start := s.cursor
  match scan c rest with
  | .error (trouble, size) => .error ⟨trouble, start.spanTo (start.skip size)⟩
  | .ok (lexeme, size) =>
    -- A lexeme takes one character at least.
    let s := { s with cursor := start.next.skip (size - 1), afterBlank := false }
    match lexeme with
    | .blank => .ok s
    | .newline =>
      .ok (if s.brackets.isEmpty then { s.push start .newline with atLineStart := true } else s)
    | .token t => s.accept start t

/-- Reads a blank line, or the indentation of a line and its first lexeme. -/
def State.step (s : State) : Except LexError State :=
  let start := s.cursor
  if s.atLineStart && s.brackets.isEmpty then
    let (width, size) := measure 0 0 start.rest
    let here := start.skip size
    match blankLine? here.rest with
    | some more =>
      .ok { s with cursor := here.skip more, afterBlank := s.afterBlank || more != 0 }
    | none =>
      match here.rest with
      | [] => .ok { s with cursor := here }
      | c :: rest => do
        let s ← State.indentTo { s with cursor := here, atLineStart := false } start width
        s.inline c rest
  else
    match start.rest with
    | [] => .ok s
    | c :: rest => s.inline c rest

/-- Steps until the text is read. -/
def State.run : Nat → State → Except LexError State
  | 0, s => .ok s
  | fuel + 1, s =>
    if s.cursor.rest.isEmpty then .ok s
    else match s.step with
      | .error e => .error e
      | .ok s => run fuel s

/-- Closes the last line and, unless they stay open, the blocks. -/
def State.finish (flags : Flags) (s : State) : Except LexError (List Placed) :=
  match s.brackets with
  | (_, span) :: _ => .error ⟨.unclosedBracket, span⟩
  | [] =>
    let s := match s.tokens.head?.map (·.token) with
      | none | some .newline | some .dedent => s
      | some _ => s.push s.cursor .newline
    let s := if !flags.keepsBlocksOpen || s.afterBlank then
        s.indents.foldl (fun s _ => s.push s.cursor .dedent) s
      else s
    .ok s.tokens.reverse

/-- The tokens of a source text. Every step reads at least one character, so as many steps as
there are characters suffice. -/
def tokenize (flags : Flags) (source : List Char) : Except LexError (List Placed) := do
  let s ← State.run source.length { cursor := { rest := source } }
  s.finish flags

end Scratchpad.Token
