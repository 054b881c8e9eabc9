/-! Membership of a character in a table of closed ranges of scalar values. -/
namespace Scratchpad.Text

/-- The range of one character. -/
def one (n : Nat) : Nat × Nat := (n, n)

def inRanges (table : List (Nat × Nat)) (c : Char) : Bool :=
  table.any fun r => r.1 ≤ c.toNat && c.toNat ≤ r.2

end Scratchpad.Text
