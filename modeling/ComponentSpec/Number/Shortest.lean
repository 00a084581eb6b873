import ComponentSpec.Number.Double

/-!
# The fewest digits that read back

The decimal text of a double uses as few digits as possible: the reals that round to the double form
an interval around it (closed when the mantissa is even), and for `1, 2, …, 17` digits the two
neighbours of the value on that decimal grid are tried. The first grid with a hit wins; of two hits
the nearer is taken.

* `Double.shortest` — the digits and the power of ten of a positive finite double.
-/

namespace ComponentSpec.Double

/-- A decimal `digits · 10 ^ scale`. -/
structure Decimal where
  digits : Nat
  scale : Int
deriving DecidableEq, Inhabited

/-- The number of decimal digits of a positive number; `0` for zero. -/
def digitCount (n : Nat) : Nat := if n = 0 then 0 else (Nat.toDigits 10 n).length

/-- The `p` with `10 ^ (p - 1) ≤ num / den < 10 ^ p`. -/
def magnitude (num den : Nat) : Int :=
  if den ≤ num then digitCount (num / den)
  else
    let c := digitCount (den / num)
    if den = num * Nat.pow 10 (c - 1) then 2 - (c : Int) else 1 - (c : Int)

/-- The grid point of `10 ^ scale` next to `m · 2 ^ e` that rounds back to it, if there is one. -/
def gridPoint? (m : Nat) (e scale : Int) : Option Decimal :=
  -- Everything is measured in quarters of the mantissa's unit, and brought to integers.
  let value (quarters : Nat) : Nat := quarters * Nat.pow 2 (e - 2).toNat * Nat.pow 10 (-scale).toNat
  let grid (c : Nat) : Nat := c * Nat.pow 10 scale.toNat * Nat.pow 2 (2 - e).toNat
  let below : Nat := if m = Nat.pow 2 52 ∧ leastExponent < e then 1 else 2
  let low := value (4 * m - below)
  let high := value (4 * m + 2)
  let inside (c : Nat) : Bool :=
    if m % 2 = 0 then low ≤ grid c ∧ grid c ≤ high else low < grid c ∧ grid c < high
  let exact := value (4 * m)
  let c := exact / grid 1
  let lowerGap := exact - grid c
  let upperGap := grid (c + 1) - exact
  match inside c, inside (c + 1) with
  | true, true =>
    some ⟨if lowerGap < upperGap ∨ (lowerGap = upperGap ∧ c % 2 = 0) then c else c + 1, scale⟩
  | true, false => some ⟨c, scale⟩
  | false, true => some ⟨c + 1, scale⟩
  | false, false => none

/-- The upper neighbour of a one-digit grid may be `10`; it is written as one digit too. -/
def Decimal.carried (d : Decimal) : Decimal :=
  if d.digits = 10 then ⟨1, d.scale + 1⟩ else d

/-- **The shortest decimal that reads back** as the positive double `m · 2 ^ e`. Seventeen digits
always suffice. -/
def shortest (m : Nat) (e : Int) : Decimal :=
  let p := magnitude (m * Nat.pow 2 e.toNat) (Nat.pow 2 (-e).toNat)
  (((List.range 17).findSome? fun n => gridPoint? m e (p - (n + 1 : Nat))).getD ⟨m, e⟩).carried

end ComponentSpec.Double
