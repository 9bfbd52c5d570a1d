import MapReplica.Number.Numeral
import MapReplica.Text.Blank

/-!
# Tiles

The tile `z/x/y` is the square in column `x` and row `y`, counted from the north
west, of the web map whose world has `2 ^ z` tiles on a side. `Tile.parse` reads
that notation and `Tile.box` gives the square in degrees.
-/

namespace MapReplica

/-- A box in degrees, given by its four sides. -/
structure Box where
  west : Float
  south : Float
  east : Float
  north : Float

/-- A tile by zoom, column and row. -/
structure Tile where
  z : UInt32
  x : UInt32
  y : UInt32
  deriving DecidableEq, Repr

namespace Tile

/-! ## Reading and writing -/

/-- The three components of the notation, in order. -/
inductive Part where
  | zoom
  | x
  | y
  deriving DecidableEq, Repr

/-- The name of a component in messages. -/
def Part.name : Part → String
  | .zoom => "zoom"
  | .x => "x"
  | .y => "y"

/-- Why a line is no tile. -/
inductive Fault where
  | missing (part : Part)
  | invalid (part : Part) (fault : Number.NumeralFault)
  | trailing
  deriving DecidableEq, Repr

/-- The wording of a fault; it quotes the whole line. -/
def Fault.message (line : String) : Fault → String
  | .missing part => "tile '" ++ line ++ "' is missing " ++ part.name
  | .invalid part fault =>
      "tile '" ++ line ++ "' has an invalid " ++ part.name ++ ": " ++ fault.message
  | .trailing => "tile '" ++ line ++ "' has trailing components"

/-- The value of a component. -/
def component (part : Part) : Option (List Char) → Except Fault UInt32
  | none => .error (.missing part)
  | some text =>
      match Number.read Number.max32 text with
      | .ok n => .ok (UInt32.ofNat n)
      | .error fault => .error (.invalid part fault)

/-- The pieces of a line between slashes, without the blanks around the line. -/
def pieces (line : List Char) : List (List Char) :=
  (Text.trim line).splitOn '/'

/-- Reads a line with blanks around it or not. -/
def parse (line : List Char) : Except Fault Tile := do
  let pieces := pieces line
  let z ← component .zoom pieces[0]?
  let x ← component .x pieces[1]?
  let y ← component .y pieces[2]?
  if pieces.length > 3 then throw .trailing
  return ⟨z, x, y⟩

/-- The notation of a tile. -/
def render (tile : Tile) : List Char :=
  Number.digits tile.z.toNat ++ '/' :: (Number.digits tile.x.toNat ++ '/' :: Number.digits tile.y.toNat)

/-! ## The square in degrees -/

/-- The number of pixels on a side of a tile. -/
def side : Float := 256.0

/-- The ratio of a circle's circumference to its diameter. -/
def pi : Float := 3.141592653589793

/--
Two to the power of a zoom. A zoom is read as a signed number of 32 bits, so the
greatest ones stand for negative powers.
-/
def scale (z : UInt32) : Float :=
  let n := z.toNat
  if n < Nat.pow 2 31 then Float.scaleB 1.0 n else 1.0 / Float.scaleB 1.0 (Nat.pow 2 32 - n : Nat)

/-- The longitude and latitude of a pixel of the world at a zoom. -/
def degrees (z : UInt32) (px py : Float) : Float × Float :=
  let size := side * scale z
  let perDegree := size / 360.0
  let perRadian := size / (2.0 * pi)
  let centre := size / 2.0
  let g := (py - centre) / -perRadian
  let longitude := (px - centre) / perDegree
  let latitude := (180.0 / pi) * (2.0 * Float.atan (Float.exp g) - 0.5 * pi)
  (longitude, latitude)

/-- The square of a tile. -/
def box (tile : Tile) : Box :=
  let x := tile.x.toNat.toFloat
  let y := tile.y.toNat.toFloat
  let (west, south) := degrees tile.z (x * side) ((y + 1.0) * side)
  let (east, north) := degrees tile.z ((x + 1.0) * side) (y * side)
  ⟨west, south, east, north⟩

end Tile

end MapReplica
