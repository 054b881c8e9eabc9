import Scratchpad.Runner

/-! Errors as they are shown to the user: the message, the place, the lines around it with the
place marked, and advice. -/
namespace Scratchpad

structure Report where
  message : String
  span : Option Span := none
  suggestion : Option String := none
  help : Option String := none

namespace Report

def ofSyntaxError (e : SyntaxError) : Report :=
  let report : Report := { message := e.message, span := e.span? }
  match e with
  | .multipleStatements _ =>
    { report with
      suggestion := some "Use --mode exec to evaluate several statements"
      help := some "'single' mode accepts one line of statements or one compound statement" }
  | .lexical e =>
    { report with
      suggestion := e.trouble.suggestion?.map fun word => "Did you mean '" ++ word ++ "'?" }
  | _ => report

def ofFailure (f : Failure) : Report :=
  let report : Report :=
    { message := f.fault.kind.name ++ ": " ++ f.fault.message, span := f.span }
  match f.fault.kind with
  | .nameError =>
    { report with suggestion := some "Check the name's spelling or assign it before use" }
  | .unboundLocalError =>
    { report with
      suggestion :=
        some "Declare the name 'global' if the function should use the outer value" }
  | .recursionError =>
    { report with
      help := some "Raise max_recursion_depth in .coderunrc if the recursion is intended" }
  | .systemError =>
    { report with help := some "The compiled artifact is inconsistent; recompile it from source" }
  | _ => report

def ofRunError : RunError → Report
  | .invalid e => ofSyntaxError e
  | .failed f => ofFailure f

def spaces (n : Nat) : String := .ofList (List.replicate n ' ')

/-- Fills a text from the left. -/
def padded (width : Nat) (s : String) : String := spaces (width - s.length) ++ s

/-- The mark under a line. Its length is that of the span in bytes, within the line. -/
def carets (span : Span) (line : String) : String :=
  let room := max 1 (line.utf8ByteSize - (span.col - 1))
  spaces (span.col - 1) ++ .ofList (List.replicate (min (max 1 (span.stop - span.start)) room) '^')

def sourceLine (span : Span) (width : Nat) (number : Nat) (line : String) : String :=
  let shown := padded width (toString number) ++ " | " ++ line ++ "\n"
  if number = span.line then shown ++ spaces width ++ " | " ++ carets span line ++ "\n" else shown

/-- The line of the span with two lines around it on each side. -/
def excerpt (source : String) (span : Span) : String :=
  let lines := (Text.lines source.toList).map String.ofList
  let index := span.line - 1
  if lines.length ≤ index then ""
  else
    let width := (toString (min (span.line + 2) lines.length)).length
    let first := index - 2
    let shown := (lines.take (index + 3)).drop first
    String.join (shown.mapIdx fun i line => sourceLine span width (first + i + 1) line)

def advice (label : String) : Option String → String
  | some text => "\n" ++ label ++ ": " ++ text ++ "\n"
  | none => ""

def render (r : Report) (label source : String) : String :=
  let place := match r.span with
    | some span =>
      "  --> " ++ label ++ ":" ++ toString span.line ++ ":" ++ toString span.col ++ "\n\n" ++
        excerpt source span
    | none => ""
  "error: " ++ r.message ++ "\n" ++ place ++ advice "suggestion" r.suggestion ++
    advice "help" r.help

end Report

end Scratchpad
