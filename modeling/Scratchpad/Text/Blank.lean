import Scratchpad.Text.Ranges

/-! Blank characters (the White_Space property), and texts cut at them. -/
namespace Scratchpad.Text

def blankRanges : List (Nat × Nat) := [
  (0x9, 0xD), one 0x20, one 0x85, one 0xA0, one 0x1680, (0x2000, 0x200A), (0x2028, 0x2029),
  one 0x202F, one 0x205F, one 0x3000]

def isBlank (c : Char) : Bool := inRanges blankRanges c

/-- Drops the characters of a class from the end. -/
def dropEndWhile (p : Char → Bool) (s : List Char) : List Char :=
  (s.reverse.dropWhile p).reverse

def trimEnd (s : List Char) : List Char := dropEndWhile isBlank s

/-- Drops the characters of a class from both ends. -/
def trimWhile (p : Char → Bool) (s : List Char) : List Char := dropEndWhile p (s.dropWhile p)

def trim (s : List Char) : List Char := trimWhile isBlank s

/-- A text of blanks only, the empty one included. -/
def allBlank (s : List Char) : Bool := s.all isBlank

/-- The pieces between the characters of a class; one more than there are such characters. -/
def cutAt (p : Char → Bool) : List Char → List (List Char)
  | [] => [[]]
  | c :: rest =>
    if p c then [] :: cutAt p rest
    else match cutAt p rest with
      | [] => [[c]]
      | piece :: pieces => (c :: piece) :: pieces

/-- The non-empty pieces between blanks. -/
def words (s : List Char) : List (List Char) :=
  (cutAt isBlank s).filter fun word => !word.isEmpty

end Scratchpad.Text
