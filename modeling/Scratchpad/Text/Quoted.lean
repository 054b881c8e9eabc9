import Scratchpad.Text.Printable

/-! Two quoted forms of a text. `literal` is how the language writes a text: in single quotes,
or in double quotes if that saves escapes. `shown` is how messages and listings quote one. -/
namespace Scratchpad.Text

/-- Lower case hexadecimal digits, at least `width` of them. -/
def hex (width n : Nat) : List Char :=
  let digits := Nat.toDigits 16 n
  List.replicate (width - digits.length) '0' ++ digits

def literalQuote (s : List Char) : Char :=
  if s.contains '\x27' && !s.contains '\x22' then '\x22' else '\x27'

def literalChar (quote c : Char) : List Char :=
  if c = '\\' then ['\\', '\\']
  else if c = '\n' then ['\\', 'n']
  else if c = '\t' then ['\\', 't']
  else if c = '\r' then ['\\', 'r']
  else if c = quote then ['\\', c]
  else if c.toNat < 0x20 || c.toNat = 0x7F then '\\' :: 'x' :: hex 2 c.toNat
  else [c]

def literal (s : List Char) : List Char :=
  let quote := literalQuote s
  quote :: s.flatMap (literalChar quote) ++ [quote]

def shownChar (c : Char) : List Char :=
  if c = '\x00' then ['\\', '0']
  else if c = '\t' then ['\\', 't']
  else if c = '\r' then ['\\', 'r']
  else if c = '\n' then ['\\', 'n']
  else if c = '\\' || c = '\x22' then ['\\', c]
  else if isCombining c || !isPrintable c then
    ['\\', 'u', '\x7b'] ++ hex 1 c.toNat ++ ['\x7d']
  else [c]

def shown (s : List Char) : List Char := '\x22' :: s.flatMap shownChar ++ ['\x22']

end Scratchpad.Text
