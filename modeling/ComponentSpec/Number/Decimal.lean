import ComponentSpec.Number.Shortest

/-!
# The text of a double

Doubles are written with the fewest digits that read back. A decimal exponent from `-4` to `15` is
written positionally, with at least one digit on each side of the point (`1.0`, `0.0001`); any other
with an exponent of at least two digits (`1e+16`, `1e-07`). What has no digits is spelled out, and
the spelling depends on the document: `NumberNames`.
-/

namespace ComponentSpec

/-- The words for the doubles that have no digits. -/
structure NumberNames where
  nan : String
  infinity : String

namespace Double

/-- The text of the positive decimal `digits · 10 ^ scale`. -/
def Decimal.text (d : Decimal) : String :=
  let digits := Nat.toDigits 10 d.digits
  let point : Int := digits.length + d.scale
  let exponent := point - 1
  if -4 ≤ exponent ∧ exponent < 16 then
    if point ≤ 0 then
      "0." ++ String.ofList (List.replicate (-point).toNat '0' ++ digits)
    else if d.scale < 0 then
      String.ofList (digits.take point.toNat) ++ "." ++ String.ofList (digits.drop point.toNat)
    else
      String.ofList (digits ++ List.replicate d.scale.toNat '0') ++ ".0"
  else
    let fraction := digits.drop 1
    let mantissa := digits.take 1 ++ (if fraction.isEmpty then [] else '.' :: fraction)
    let size := Nat.toDigits 10 exponent.natAbs
    let padded := List.replicate (2 - size.length) '0' ++ size
    String.ofList mantissa ++ (if exponent < 0 then "e-" else "e+") ++ String.ofList padded

/-- **The text of a double**, with the given words for what has no digits. -/
def text (names : NumberNames) : Double → String
  | .finite s m e =>
    (if s then "-" else "") ++ if m = 0 then "0.0" else (shortest m e).text
  | .infinite s => (if s then "-" else "") ++ names.infinity
  | .nan => names.nan

end Double

end ComponentSpec
