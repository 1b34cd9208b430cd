/-!
# Sets of code points

A set of code points is a list of closed ranges.  Membership is a plain search, so that it unfolds
in proofs and a closed membership is decided by evaluation.
-/

namespace MdxPress.Text

/-- Closed ranges of code points. -/
abbrev Ranges := List (Nat × Nat)

/-- Whether a character lies in one of the ranges. -/
def Ranges.has (rs : Ranges) (c : Char) : Bool :=
  rs.any fun r => r.1 ≤ c.toNat && c.toNat ≤ r.2

end MdxPress.Text
