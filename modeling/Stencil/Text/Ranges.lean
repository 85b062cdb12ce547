/-! Sets of characters, given as inclusive ranges of code points in rising order. -/
namespace Stencil.Text

def inRanges (ranges : List (Nat × Nat)) (c : Char) : Bool :=
  ranges.any fun r => r.1 ≤ c.toNat && c.toNat ≤ r.2

/-- ASCII characters are classified by rule, all others by table. -/
def isAscii (c : Char) : Bool := c.toNat < 128

end Stencil.Text
