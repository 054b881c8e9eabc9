import Scratchpad.Text.Blank
import Scratchpad.Token.Layout

/-! Does a source end in a semicolon? The last token that is no layout decides. A text without
tokens is judged by its characters, comments left aside. -/
namespace Scratchpad.Quiet

def lastIsSemicolon (tokens : List Token.Placed) : Bool :=
  match tokens.reverse.find? fun t => !t.token.isLayout with
  | some t => t.token = .symbol .semicolon
  | none => false

/-- What a line holds before its comment, if it has one. Quotes hide a `#`; they are followed
within the line only. -/
def beforeComment? (quote : Option Char) (escaped : Bool) : List Char → Option (List Char)
  | [] => none
  | c :: rest =>
    match quote with
    | some q =>
      let (quote, escaped) :=
        if escaped then (some q, false)
        else if c = '\\' then (some q, true)
        else if c = q then (none, false)
        else (some q, false)
      (beforeComment? quote escaped rest).map (c :: ·)
    | none =>
      if c = '#' then some []
      else
        let quote := if Token.isQuote c then some c else none
        (beforeComment? quote false rest).map (c :: ·)

/-- What the last line of code holds before its comment, given the lines latest first. Blank
lines and lines of comment are passed over. -/
def lastCode : List (List Char) → List Char
  | [] => []
  | line :: earlier =>
    let line := Text.trimEnd line
    let code := Text.trimEnd ((beforeComment? none false line).getD line)
    if code.isEmpty then lastCode earlier else code

def endsInSemicolon (source : List Char) : Bool :=
  (lastCode (Text.cutAt (· == '\n') source).reverse).getLast? = some ';'

def isQuiet (source : List Char) : Bool :=
  match Token.tokenize {} source with
  | .ok tokens => lastIsSemicolon tokens
  | .error _ => endsInSemicolon source

end Scratchpad.Quiet
