import Scratchpad.Decimal.Reading

/-! Settings files in TOML. Only plain entries are read: texts, whole numbers and truth values
under undotted keys. A file with anything else in it is refused, as no setting could use it. -/
namespace Scratchpad.Toml

inductive Value where
  | text (s : String)
  | int (n : Int64)
  | bool (b : Bool)
deriving Repr, DecidableEq

/-- What was read, and the text after it. -/
abbrev Reader (α : Type) := List Char → Option (α × List Char)

def isSpace (c : Char) : Bool := c = ' ' || c = '\t'

def skipSpace (s : List Char) : List Char := s.dropWhile isSpace

/-- Tabs and what can be seen; no other control character stands in a file. -/
def isPlain (c : Char) : Bool := c = '\t' || (' ' ≤ c && c ≠ '\x7f')

def newline? : List Char → Option (List Char)
  | '\n' :: rest | '\r' :: '\n' :: rest => some rest
  | _ => none

/-- The text after the end of a line, which a comment may stand before. -/
def lineEnd? (s : List Char) : Option (List Char) :=
  match skipSpace s with
  | [] => some []
  | '#' :: rest =>
    match rest.dropWhile isPlain with
    | [] => some []
    | rest => newline? rest
  | rest => newline? rest

/-- The character of a code point in hexadecimal digits. -/
def codePoint? (digits : List Char) : Option Char :=
  let n := Decimal.numeral 16 digits
  if digits.all (fun c => Decimal.digitValue c < 16) && n.isValidChar then some (Char.ofNat n)
  else none

/-- The character that a backslash stands for with what follows it. -/
def escape : Reader Char
  | 'b' :: rest => some ('\x08', rest)
  | 't' :: rest => some ('\t', rest)
  | 'n' :: rest => some ('\n', rest)
  | 'f' :: rest => some ('\x0c', rest)
  | 'r' :: rest => some ('\r', rest)
  | '\x22' :: rest => some ('\x22', rest)
  | '\\' :: rest => some ('\\', rest)
  | 'u' :: rest =>
    if rest.length < 4 then none else (codePoint? (rest.take 4)).map (·, rest.drop 4)
  | 'U' :: rest =>
    if rest.length < 8 then none else (codePoint? (rest.take 8)).map (·, rest.drop 8)
  | _ => none

/-- Does a newline follow a backslash, with nothing but spaces between? -/
def foldsLine (s : List Char) : Bool := (newline? (skipSpace s)).isSome

/-- The text after all spaces and newlines. -/
def skipLines : List Char → List Char
  | [] => []
  | '\r' :: '\n' :: rest => skipLines rest
  | c :: rest => if isSpace c || c = '\n' then skipLines rest else c :: rest

/-- The text up to the closing quote. Escapes are read if the quote is a double one. A
text that may run over lines is closed by three quotes. -/
def quoted (quote : Char) (lines : Bool) : Nat → Reader (List Char)
  | 0, _ => none
  | fuel + 1, s =>
    let more (c : Char) (rest : List Char) :=
      (quoted quote lines fuel rest).map fun (text, rest) => (c :: text, rest)
    match s with
    | [] => none
    | c :: rest =>
      if c = quote then
        if !lines then some ([], rest)
        else
          let run := (s.takeWhile (· = quote)).length
          if 3 ≤ run then
            -- two quotes may stand before the three that close
            let kept := min (run - 3) 2
            some (List.replicate kept quote, s.drop (kept + 3))
          else more c rest
      else if c = '\\' && quote = '\x22' then
        if lines && foldsLine rest then
          quoted quote lines fuel (skipLines rest)
        else
          match escape rest with
          | some (c, rest) => more c rest
          | none => none
      else if isPlain c then more c rest
      else if lines then
        match newline? s with
        | some rest => more '\n' rest
        | none => none
      else none

/-- A text in double or single quotes, within a line or, between three quotes, over several. -/
def text (multiline : Bool) : Reader String
  | [] => none
  | quote :: rest =>
    if quote ≠ '\x22' && quote ≠ '\x27' then none
    else
      let opened := rest.take 2 == [quote, quote]
      let result :=
        if multiline && opened then
          let body := (newline? (rest.drop 2)).getD (rest.drop 2)
          quoted quote true (body.length + 1) body
        else quoted quote false (rest.length + 1) rest
      result.map fun (chars, rest) => (.ofList chars, rest)

def isBare (c : Char) : Bool := c.isAlphanum || c = '_' || c = '-'

def key (s : List Char) : Option (String × List Char) :=
  match s.takeWhile isBare with
  | [] => text false s
  | bare => some (.ofList bare, s.drop bare.length)

/-- Digits of a base with single underscores between them. -/
def digits? (base : Nat) (s : List Char) : Option Nat :=
  let isDigit (c : Char) : Bool := Decimal.digitValue c < base
  let rec separated : List Char → Bool
    | [] => false
    | [c] => isDigit c
    | c :: '_' :: rest => isDigit c && separated rest
    | c :: rest => isDigit c && separated rest
  if separated s then some (Decimal.numeral base (s.filter (· ≠ '_'))) else none

def decimal? (s : List Char) : Option Int :=
  match s with
  | '0' :: _ :: _ => none
  | s => (digits? 10 s).map (↑·)

def int? : List Char → Option Int
  | '0' :: 'x' :: s => (digits? 16 s).map (↑·)
  | '0' :: 'o' :: s => (digits? 8 s).map (↑·)
  | '0' :: 'b' :: s => (digits? 2 s).map (↑·)
  | '+' :: s => decimal? s
  | '-' :: s => (decimal? s).map (-·)
  | s => decimal? s

/-- A number that 64 bits hold, or a truth value. -/
def word? (s : List Char) : Option Value :=
  if s = ['t', 'r', 'u', 'e'] then some (.bool true)
  else if s = ['f', 'a', 'l', 's', 'e'] then some (.bool false)
  else ((int? s).bind Decimal.int64?).map .int

def value (s : List Char) : Option (Value × List Char) :=
  match text true s with
  | some (t, rest) => some (.text t, rest)
  | none =>
    let isWord (c : Char) : Bool := isBare c || c = '+'
    (word? (s.takeWhile isWord)).map (·, s.dropWhile isWord)

/-- A key, an equals sign, a value and the end of the line. -/
def entry (s : List Char) : Option ((String × Value) × List Char) := do
  let (k, s) ← key s
  match skipSpace s with
  | '=' :: s =>
    let (v, s) ← value (skipSpace s)
    return ((k, v), ← lineEnd? s)
  | _ => none

/-- The entries of the lines; one line at least is read for each unit of fuel. -/
def entries : Nat → List Char → Option (List (String × Value))
  | 0, s => if s.isEmpty then some [] else none
  | fuel + 1, s =>
    if s.isEmpty then some []
    else
      match lineEnd? s with
      | some rest => entries fuel rest
      | none => do
        let (e, rest) ← entry (skipSpace s)
        return e :: (← entries fuel rest)

/-- The entries of a file in order; a byte order mark may stand before them. -/
def read? (s : List Char) : Option (List (String × Value)) :=
  let s := if s.head? = some '\uFEFF' then s.tail else s
  entries s.length s

end Scratchpad.Toml
