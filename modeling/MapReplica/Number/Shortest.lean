import MapReplica.Number.Numeral

/-!
# The shortest decimal of a binary number

A finite double is a whole multiple of a power of two. `Shortest.decimal` finds the
decimal with the fewest digits among those that round to it, and of these the
nearest one. All arithmetic is exact and over natural numbers.
-/

namespace MapReplica.Number

/-- A finite double without its sign: `mantissa * 2 ^ exponent`. -/
structure Binary where
  mantissa : Nat
  exponent : Int
  deriving DecidableEq, Repr

/-- Whether the sign bit is set. -/
def isNegative (x : Float) : Bool :=
  x.toBits.toNat / Nat.pow 2 63 == 1

/-- The magnitude of a finite double. -/
def Binary.ofFloat (x : Float) : Binary :=
  let bits := x.toBits.toNat
  let fraction : Nat := bits % Nat.pow 2 52
  let scale : Nat := bits / Nat.pow 2 52 % Nat.pow 2 11
  if scale = 0 then ⟨fraction, -1074⟩ else ⟨Nat.pow 2 52 + fraction, (scale : Int) - 1075⟩

/-- A decimal without sign: `digits * 10 ^ exponent`. -/
structure Decimal where
  digits : Nat
  exponent : Int
  deriving DecidableEq, Repr

/-- A fraction of natural numbers. -/
structure Ratio where
  top : Nat
  bottom : Nat
  deriving DecidableEq, Repr

/-- The factors of a power with an integer exponent above and below the line. -/
def Ratio.scale (base : Nat) (exponent : Int) (r : Ratio) : Ratio :=
  match exponent with
  | .ofNat n => ⟨r.top * Nat.pow base n, r.bottom⟩
  | .negSucc n => ⟨r.top, r.bottom * Nat.pow base (n + 1)⟩

namespace Shortest

/--
The reals that round to a binary number, as multiples of a common unit: the number
itself, the two ends, and whether the ends belong to the interval.
-/
structure Interval where
  value : Nat
  low : Nat
  high : Nat
  closed : Bool
  unit : Ratio

/--
The interval of a binary number. Below a power of two the neighbours lie closer,
so the lower end is then a quarter of a unit away instead of a half.
-/
def interval (b : Binary) : Interval :=
  let narrow := b.mantissa = Nat.pow 2 52 ∧ b.exponent ≠ -1074
  { value := 4 * b.mantissa
    low := if narrow then 4 * b.mantissa - 1 else 4 * b.mantissa - 2
    high := 4 * b.mantissa + 2
    closed := b.mantissa % 2 = 0
    unit := Ratio.scale 2 (b.exponent - 2) ⟨1, 1⟩ }

/-- Whether `count` units of a grid lie in an interval, both sides over one denominator. -/
def Interval.holds (i : Interval) (grid : Ratio) (count : Nat) : Bool :=
  let place := count * grid.bottom
  let low := i.low * grid.top
  let high := i.high * grid.top
  if i.closed then low ≤ place && place ≤ high else low < place && place < high

/-- The point of a grid in an interval that lies nearest to its value; a tie goes to the even one. -/
def Interval.nearest (i : Interval) (grid : Ratio) : Option Nat :=
  let place := i.value * grid.top
  let below := place / grid.bottom
  let above := below + 1
  match i.holds grid below, i.holds grid above with
  | false, false => none
  | true, false => some below
  | false, true => some above
  | true, true =>
      let down := place - below * grid.bottom
      let up := above * grid.bottom - place
      if down < up then some below
      else if up < down then some above
      else if below % 2 = 0 then some below
      else some above

/-- The first hit on the grids with the given exponent and below, which get finer by ten. -/
def search (i : Interval) : Nat → Int → Option Decimal
  | 0, _ => none
  | tries + 1, exponent =>
      -- the interval measured in units of the grid
      match i.nearest (Ratio.scale 10 (-exponent) i.unit) with
      | some count => if count = 0 then search i tries (exponent - 1) else some ⟨count, exponent⟩
      | none => search i tries (exponent - 1)

/-- How many digits stand before the point; for numbers below one, less the zeros behind it. -/
def magnitude (r : Ratio) : Int :=
  ((digits (r.top * Nat.pow 10 400 / r.bottom)).length : Int) - 400

/-- Drops the zeros at the end of a decimal. -/
def strip : Nat → Decimal → Decimal
  | 0, d => d
  | steps + 1, d =>
      if d.digits % 10 = 0 ∧ d.digits ≠ 0 then strip steps ⟨d.digits / 10, d.exponent + 1⟩ else d

/-- The shortest decimal that rounds to a binary number; zero has the digit zero. -/
def decimal (b : Binary) : Decimal :=
  if b.mantissa = 0 then ⟨0, 0⟩
  else
    let i := interval b
    let top := magnitude ⟨i.value * i.unit.top, i.unit.bottom⟩
    strip 20 ((search i 18 (top - 1)).getD ⟨0, 0⟩)

end Shortest

end MapReplica.Number
