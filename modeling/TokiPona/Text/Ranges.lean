namespace TokiPona.Text

/-- Ranges of code points, both ends included, in increasing order. -/
abbrev Ranges := List (Nat × Nat)

/-- Whether a code point lies in one of the ranges. The ranges increase, so the search ends at
    the first one that begins beyond the code point. -/
def Ranges.contains : Ranges → Nat → Bool
  | [], _ => false
  | (lo, hi) :: rest, n => if n < lo then false else n ≤ hi || Ranges.contains rest n

end TokiPona.Text
