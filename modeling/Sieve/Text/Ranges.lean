/-! Classes of characters given as closed ranges of scalar values. -/
namespace Sieve.Text

def inRanges (ranges : List (Nat × Nat)) (c : Char) : Bool :=
  ranges.any fun range => range.1 ≤ c.toNat && c.toNat ≤ range.2

end Sieve.Text
