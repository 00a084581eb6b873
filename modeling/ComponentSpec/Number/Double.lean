/-!
# Binary64 numbers

A `Double` is a sign, a mantissa and a power of two, with one infinity per sign and one value that
is no number. Numbers are read from decimal text by `Double.ofDecimal`, which rounds the exact
quotient to the nearest double, a tie to the even mantissa.

* `Double` — the numbers, in normal form: the mantissa has 53 bits unless the exponent is `-1074`;
* `Double.ofDecimal` — the double nearest to `digits · 10 ^ scale`;
* `Double.toInt?` — the integer a double equals, if it equals one.
-/

namespace ComponentSpec

/-- **A binary64 number.** `finite s m e` is `m · 2 ^ e`, negated if `s`; zero keeps its sign. -/
inductive Double where
  | finite (negative : Bool) (mantissa : Nat) (exponent : Int)
  | infinite (negative : Bool)
  | nan
deriving DecidableEq, Inhabited

namespace Double

/-- The exponent of the least positive double, and of both zeros. -/
def leastExponent : Int := -1074

/-- The exponent of the greatest finite double. -/
def greatestExponent : Int := 971

def zero (negative : Bool) : Double := .finite negative 0 leastExponent

def neg : Double → Double
  | .finite s m e => .finite (!s) m e
  | .infinite s => .infinite (!s)
  | .nan => .nan

@[simp] theorem neg_neg (x : Double) : x.neg.neg = x := by
  cases x <;> simp [neg]

def isZero : Double → Bool
  | .finite _ m _ => m == 0
  | _ => false

/-- The integer that the double equals: both zeros are `0`, a fraction equals none. -/
def toInt? : Double → Option Int
  | .finite s m e =>
    let signed (n : Nat) : Int := if s then -(n : Int) else n
    if 0 ≤ e then some (signed (m * Nat.pow 2 e.toNat))
    else if m % Nat.pow 2 (-e).toNat = 0 then some (signed (m / Nat.pow 2 (-e).toNat))
    else none
  | _ => none

/-- The quotient rounded to the nearest natural number, a tie to the even one. -/
def roundQuotient (num den : Nat) : Nat :=
  let q := num / den
  let r := 2 * (num % den)
  if r < den ∨ (r = den ∧ q % 2 = 0) then q else q + 1

/-- The double nearest to the quotient `num / den` of positive numbers. -/
def ofQuotient (negative : Bool) (num den : Nat) : Double :=
  let scaled (e : Int) : Nat × Nat := (num * Nat.pow 2 (-e).toNat, den * Nat.pow 2 e.toNat)
  let guess : Int := (Nat.log2 num : Int) - (Nat.log2 den : Int) - 53
  let (n, d) := scaled guess
  let e := max leastExponent (if n / d < Nat.pow 2 53 then guess else guess + 1)
  let (n, d) := scaled e
  let m := roundQuotient n d
  let (m, e) := if m = Nat.pow 2 53 then (Nat.pow 2 52, e + 1) else (m, e)
  if greatestExponent < e then .infinite negative else .finite negative m e

/-- **The double nearest to `digits · 10 ^ scale`.** A magnitude out of range on either side is
settled from the sizes alone, so that a huge `scale` costs nothing. -/
def ofDecimal (negative : Bool) (digits : Nat) (scale : Int) : Double :=
  let bits : Int := Nat.log2 digits
  if digits = 0 then zero negative
  else if 0 ≤ scale ∧ 1024 < bits + 3 * scale then .infinite negative
  else if scale < 0 ∧ bits + 1 + 3 * scale < -1080 then zero negative
  else ofQuotient negative (digits * Nat.pow 10 scale.toNat) (Nat.pow 10 (-scale).toNat)

end Double

end ComponentSpec
