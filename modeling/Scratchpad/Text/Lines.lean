import Scratchpad.Text.Blank

/-! Lines of a text, and the margin they share. `dedent` removes the blanks with which every
non-blank line starts, and empties the lines of blanks. -/
namespace Scratchpad.Text

/-- The lines, each with the newline that ends it; only the last may have none. -/
def rawLines : List Char → List (List Char)
  | [] => []
  | c :: rest =>
    if c = '\n' then [c] :: rawLines rest
    else match rawLines rest with
      | [] => [[c]]
      | line :: lines => (c :: line) :: lines

/-- A line without its newline, and the newline. -/
def splitEnd (line : List Char) : List Char × List Char :=
  if line.getLast? = some '\n' then (line.dropLast, ['\n']) else (line, [])

/-- A line without its end, which is a newline with or without a carriage return. -/
def lineBody (line : List Char) : List Char :=
  match splitEnd line with
  | (body, []) => body
  | (body, _) => if body.getLast? = some '\r' then body.dropLast else body

def lines (s : List Char) : List (List Char) := (rawLines s).map lineBody

def commonPrefix : List Char → List Char → List Char
  | a :: as, b :: bs => if a = b then a :: commonPrefix as bs else []
  | _, _ => []

/-- The blanks that every non-blank line starts with. -/
def margin (s : List Char) : List Char :=
  match ((lines s).filter fun line => !allBlank line).map (·.takeWhile isBlank) with
  | [] => []
  | first :: others => others.foldl commonPrefix first

def hasBlankLine (s : List Char) : Bool :=
  (lines s).any fun line => !line.isEmpty && allBlank line

def dedentLine (width : Nat) (line : List Char) : List Char :=
  let (body, newline) := splitEnd line
  if allBlank body then newline else body.drop width ++ newline

def dedent (s : List Char) : List Char :=
  let width := (margin s).length
  if width = 0 && !hasBlankLine s then s else (rawLines s).flatMap (dedentLine width)

end Scratchpad.Text
