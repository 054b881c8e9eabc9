/-! Places in a source text. -/
namespace Scratchpad

/-- A stretch of the source. `line` and `col` count from 1, columns in characters; `start` and
`stop` are offsets in bytes. The default span stands for no place. -/
structure Span where
  line : Nat := 0
  col : Nat := 0
  start : Nat := 0
  stop : Nat := 0
deriving Repr, DecidableEq, Inhabited

/-- The stretch from the earlier start to the later end. -/
def Span.merge (a b : Span) : Span where
  line := min a.line b.line
  col := if a.line = b.line then min a.col b.col else if a.line < b.line then a.col else b.col
  start := min a.start b.start
  stop := max a.stop b.stop

end Scratchpad
