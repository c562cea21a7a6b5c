/-!
# Sets of code points

A set of code points given as runs: each run is an arithmetic progression from its first to its
last member.
-/

namespace ModelRegistry

structure CodePointRun where
  first : Nat
  last : Nat
  step : Nat

namespace CodePointRun

def has (r : CodePointRun) (n : Nat) : Bool :=
  decide (r.first ≤ n) && decide (n ≤ r.last) && (n - r.first) % r.step == 0

end CodePointRun

abbrev CodePointSet := List CodePointRun

def CodePointSet.has (s : CodePointSet) (c : Char) : Bool :=
  s.any fun r => r.has c.toNat

end ModelRegistry
