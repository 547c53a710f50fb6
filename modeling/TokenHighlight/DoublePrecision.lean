/-!
# Double precision

What has to be known of the binary format with 53 significant bits to tell which decimal numbers
lie beyond it. Powers are written as `Nat.pow`, and numbers stay natural: no value of the format is
ever made.

## Main definitions

* `DoublePrecision.round` — the value nearest to a natural number
* `DoublePrecision.infinityThreshold` — where rounding leads to infinity
-/

namespace TokenHighlight.DoublePrecision

/-- Rounds to 53 significant bits, a half to the even neighbour. -/
def round (n : Nat) : Nat :=
  if n < Nat.pow 2 53 then n
  else
    let unit := Nat.pow 2 (n.log2 - 52)
    let q := n / unit
    let r := n % unit
    if 2 * r < unit ∨ (2 * r = unit ∧ q % 2 = 0) then q * unit else (q + 1) * unit

/-- The least number that rounds to infinity: half a step above the greatest finite value. -/
def infinityThreshold : Nat :=
  Nat.pow 2 1024 - Nat.pow 2 970

end TokenHighlight.DoublePrecision
