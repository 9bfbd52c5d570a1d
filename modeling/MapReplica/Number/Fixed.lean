import MapReplica.Number.Shortest

/-!
# A fixed number of decimal places

A double rounded to some decimal places. The exact value is rounded to the nearest
number with these places, and one in the middle goes to the even neighbour. Zero has no
sign.
-/

namespace MapReplica.Number

/-- The whole number that is nearest to a quotient; a half goes to the even one. -/
def nearest (top bottom : Nat) : Nat :=
  let whole := top / bottom
  let rest := 2 * (top % bottom)
  if bottom < rest ∨ (rest = bottom ∧ whole % 2 = 1) then whole + 1 else whole

/-- A double with some decimal places. -/
def fixed (places : Nat) (x : Float) : String :=
  if x.isNaN then "NaN"
  else if x.isInf then if x > 0 then "inf" else "-inf"
  else
    let binary := Binary.ofFloat x
    let ratio := Ratio.scale 2 binary.exponent ⟨binary.mantissa * Nat.pow 10 places, 1⟩
    let n := nearest ratio.top ratio.bottom
    let body := numeral (n / Nat.pow 10 places) ++ "." ++ String.ofList (padded places (n % Nat.pow 10 places))
    if isNegative x && n != 0 then "-" ++ body else body

end MapReplica.Number
