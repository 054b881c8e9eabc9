/-! Occurrences of one text in another. Cutting and substituting work on the leftmost
occurrences that do not overlap. -/
namespace Scratchpad.Text

def startsWith (s start : List Char) : Bool := start.isPrefixOf s

def endsWith (s tail : List Char) : Bool := tail.isSuffixOf s

/-- Does `part` occur in the text? -/
def contains (s part : List Char) : Bool :=
  part.isPrefixOf s || match s with
    | [] => false
    | _ :: rest => contains rest part

/-- Pieces between occurrences of `sep`, which is not empty; `skip` characters of an occurrence
are still to pass. -/
def piecesFrom (sep : List Char) : Nat → List Char → List (List Char)
  | _, [] => [[]]
  | skip + 1, _ :: rest => piecesFrom sep skip rest
  | 0, c :: rest =>
    if sep.isPrefixOf (c :: rest) then [] :: piecesFrom sep (sep.length - 1) rest
    else match piecesFrom sep 0 rest with
      | [] => [[c]]
      | piece :: pieces => (c :: piece) :: pieces

def split (s sep : List Char) : List (List Char) := piecesFrom sep 0 s

def join (sep : List Char) : List (List Char) → List Char
  | [] => []
  | [piece] => piece
  | piece :: pieces => piece ++ sep ++ join sep pieces

def substituteFrom (old new : List Char) : Nat → List Char → List Char
  | _, [] => []
  | skip + 1, _ :: rest => substituteFrom old new skip rest
  | 0, c :: rest =>
    if old.isPrefixOf (c :: rest) then new ++ substituteFrom old new (old.length - 1) rest
    else c :: substituteFrom old new 0 rest

/-- The empty text occurs before every character and at the end. -/
def substitute (s old new : List Char) : List Char :=
  if old.isEmpty then new ++ s.flatMap (fun c => c :: new) else substituteFrom old new 0 s

end Scratchpad.Text
