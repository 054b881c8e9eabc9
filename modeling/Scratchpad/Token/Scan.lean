import Scratchpad.Decimal.Reading
import Scratchpad.Text.Letter
import Scratchpad.Token

/-! What stands at the front of a text: its class and how many characters it takes. Places,
brackets and indentation are the concern of the layout rules; here only characters count. -/
namespace Scratchpad.Token

/-- Why a text has no tokens. -/
inductive Trouble where
  | unexpectedChar (ch : Char)
  | unterminatedText
  | invalidNumber (digits : String)
  | inconsistentDedent
  | unmatchedBracket (s : Symbol)
  | unclosedBracket
deriving Repr, DecidableEq

/-- A keyword that a stray character may have been meant for. -/
def Trouble.suggestion? : Trouble → Option String
  | .unexpectedChar '!' => some "not"
  | _ => none

def Trouble.message (t : Trouble) : String :=
  match t with
  | .unexpectedChar ch =>
    "invalid character '" ++ String.singleton ch ++ "'" ++
      match t.suggestion? with
      | some s => " (did you mean '" ++ s ++ "'?)"
      | none => ""
  | .unterminatedText => "unterminated string literal"
  | .invalidNumber digits => "invalid number literal: '" ++ digits ++ "'"
  | .inconsistentDedent => "unindent does not match any outer indentation level"
  | .unmatchedBracket s => "unmatched '" ++ s.text ++ "'"
  | .unclosedBracket => "unexpected end of input, expected closing bracket"

inductive Lexeme where
  | blank
  | newline
  | token (t : Token)
deriving DecidableEq

/-- A result, or a trouble, with the number of characters read for it. -/
abbrev Scanned (α : Type) := Except (Trouble × Nat) (α × Nat)

def isNameChar (c : Char) : Bool := Text.isAlphanumeric c || c == '_'

def isNameStart (c : Char) : Bool := Text.isAlphabetic c || c == '_'

def isQuote (c : Char) : Bool := c == '\x22' || c == '\x27'

/-! ### Numbers -/

/-- Digits at the front, and the characters they take. An underscore is passed over if a digit
follows it. -/
def takeDigits : List Char → List Char × Nat
  | [] => ([], 0)
  | c :: rest =>
    if c.isDigit then
      let (digits, size) := takeDigits rest
      (c :: digits, size + 1)
    else if c == '_' && (rest.head?.any Char.isDigit) then
      let (digits, size) := takeDigits rest
      (digits, size + 1)
    else ([], 0)

/-- The base that the letter after a leading zero announces. -/
def base? (c : Char) : Option Nat :=
  if c == 'x' || c == 'X' then some 16
  else if c == 'o' || c == 'O' then some 8
  else if c == 'b' || c == 'B' then some 2
  else none

/-- A number ends where no letter, digit or underscore follows. `text` is what was read of it in
`size` characters. -/
def endNumber (text : List Char) (size : Nat) (rest : List Char) (value : Option Token) :
    Scanned Token :=
  let more := rest.takeWhile isNameChar
  if !more.isEmpty then
    .error (.invalidNumber (String.ofList (text ++ more)), size + more.length)
  else match value with
    | some t => .ok (t, size)
    | none => .error (.invalidNumber (String.ofList text), size)

/-- Digits of another base, with underscores anywhere, after `0` and the letter `mark`. -/
def scanBased (base : Nat) (mark : Char) (s : List Char) : Scanned Token :=
  let run := s.takeWhile fun c => Decimal.digitValue c < base || c == '_'
  let digits := run.filter (· != '_')
  let size := 2 + run.length
  match if digits.isEmpty then none else Decimal.int64? (Decimal.numeral base digits) with
  | none => .error (.invalidNumber (String.ofList ('0' :: mark :: digits)), size)
  | some n => endNumber digits size (s.drop run.length) (some (.int n))

/-- A point and the digits after it. -/
def scanFraction : List Char → Option (List Char) × Nat
  | '.' :: rest =>
    let (digits, size) := takeDigits rest
    (some digits, size + 1)
  | _ => (none, 0)

/-- An exponent: its sign, its digits and its size. -/
def scanExponent (s : List Char) : Option (List Char × List Char) × Nat :=
  match s with
  | e :: rest =>
    if e == 'e' || e == 'E' then
      let sign := (rest.take 1).filter fun c => c == '+' || c == '-'
      if ((rest.drop sign.length).head?.any Char.isDigit) then
        let (digits, size) := takeDigits (rest.drop sign.length)
        (some (sign, digits), 1 + sign.length + size)
      else (none, 0)
    else (none, 0)
  | [] => (none, 0)

def scanDecimal (s : List Char) : Scanned Token :=
  let (whole, size₁) := takeDigits s
  let (fraction, size₂) := scanFraction (s.drop size₁)
  let (exponent, size₃) := scanExponent (s.drop (size₁ + size₂))
  let size := size₁ + size₂ + size₃
  let text := whole ++ (fraction.map ('.' :: ·)).getD [] ++
    (exponent.map fun (sign, digits) => 'e' :: sign ++ digits).getD []
  let value :=
    if fraction.isNone && exponent.isNone then
      (Decimal.int64? (Decimal.numeral 10 whole)).map Token.int
    else
      let power := match exponent with
        | some (sign, digits) => (Decimal.readInt? (sign ++ digits)).getD 0
        | none => 0
      some (.float (Decimal.Literal.value ⟨whole, fraction.getD [], power⟩))
  endNumber text size (s.drop size) value

def scanNumber (s : List Char) : Scanned Token :=
  match s with
  | '0' :: mark :: rest =>
    match base? mark with
    | some base => scanBased base mark rest
    | none => scanDecimal s
  | _ => scanDecimal s

/-! ### Texts -/

/-- The characters that a backslash and `c` stand for. -/
def escape (raw : Bool) (c : Char) : List Char :=
  if raw then ['\\', c]
  else if c = 'n' then ['\n']
  else if c = 't' then ['\t']
  else if c = 'r' then ['\r']
  else if c = '0' then ['\x00']
  else if c = '\\' || isQuote c then [c]
  else if c = '\n' then []
  else ['\\', c]

/-- The text up to the closing quote, or how many characters were read in vain. `size` counts
those read before. -/
def scanBody (raw triple : Bool) (quote : Char) (size : Nat) : List Char → Scanned (List Char)
  | [] => .error (.unterminatedText, size)
  | c :: rest =>
    let plain : List Char → Scanned (List Char) → Scanned (List Char) := fun front tail =>
      tail.map fun (body, size) => (front ++ body, size)
    if c = quote then
      if !triple then .ok ([], size + 1)
      else if rest.take 2 = [quote, quote] then .ok ([], size + 3)
      else plain [c] (scanBody raw triple quote (size + 1) rest)
    else if c = '\n' && !triple then .error (.unterminatedText, size)
    else if c = '\\' then
      match rest with
      | [] => .error (.unterminatedText, size + 1)
      | e :: rest => plain (escape raw e) (scanBody raw triple quote (size + 2) rest)
    else plain [c] (scanBody raw triple quote (size + 1) rest)

/-- A quoted text, `size` characters after the start of its token. Three quotes open one that
may hold newlines. -/
def scanText (raw : Bool) (size : Nat) (s : List Char) : Scanned Token :=
  match s with
  | [] => .error (.unterminatedText, size)
  | quote :: rest =>
    let body :=
      if rest.take 2 = [quote, quote] then scanBody raw true quote (size + 3) (rest.drop 2)
      else scanBody raw false quote (size + 1) rest
    body.map fun (chars, size) => (.text (String.ofList chars), size)

/-! ### All lexemes -/

def scanName (s : List Char) : Token × Nat :=
  let chars := s.takeWhile isNameChar
  let id := String.ofList chars
  (match Keyword.ofText? id with
    | some k => .keyword k
    | none => .name id, chars.length)

/-- The longest symbol at the front. -/
def symbol? (s : List Char) : Option Symbol := Symbol.all.find? (·.text.toList.isPrefixOf s)

/-- A backslash joins a line to the next. -/
def continuation? : List Char → Option Nat
  | '\\' :: '\n' :: _ => some 2
  | '\\' :: '\r' :: '\n' :: _ => some 3
  | _ => none

/-- A character class of the front of a non-empty text. -/
def startsNumber (c : Char) (rest : List Char) : Bool :=
  c.isDigit || (c == '.' && rest.head?.any Char.isDigit)

def startsRawText (c : Char) (rest : List Char) : Bool :=
  (c == 'r' || c == 'R') && rest.head?.any isQuote

def commentLength (s : List Char) : Nat := (s.takeWhile (· != '\n')).length

def isInlineBlank (c : Char) : Bool := c == ' ' || c == '\t' || c == '\r' || c == '\x0c'

/-- The lexeme at the front of the text `c :: rest`. -/
def scan (c : Char) (rest : List Char) : Scanned Lexeme :=
  let s := c :: rest
  let token : Scanned Token → Scanned Lexeme := fun r => r.map fun (t, size) => (.token t, size)
  if isInlineBlank c then .ok (.blank, 1)
  else if let some size := continuation? s then .ok (.blank, size)
  else if c == '\n' then .ok (.newline, 1)
  else if c == '#' then .ok (.blank, commentLength s)
  else if isQuote c then token (scanText false 0 s)
  else if startsNumber c rest then token (scanNumber s)
  else if startsRawText c rest then token (scanText true 1 rest)
  else if isNameStart c then token (.ok (scanName s))
  else match symbol? s with
    | some sym => .ok (.token (.symbol sym), sym.text.length)
    | none => .error (.unexpectedChar c, 1)

end Scratchpad.Token
