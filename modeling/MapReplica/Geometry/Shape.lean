import MapReplica.Number.Shortest
import MapReplica.Tile

/-!
# Shapes on the plane

Points with exact coordinates and the shapes made of them. A double is a fraction
whose denominator is a power of two, so no comparison below is rounded.
-/

namespace MapReplica.Geometry

/-- A point of the plane. -/
structure Point where
  x : Rat
  y : Rat
  deriving DecidableEq, Repr

/-- The exact value of a double that is a number. -/
def exactValue? (value : Float) : Option Rat :=
  if value.isNaN || value.isInf then none
  else
    let b := Number.Binary.ofFloat value
    let magnitude : Rat :=
      match b.exponent with
      | .ofNat n => (b.mantissa * Nat.pow 2 n : Nat)
      | .negSucc n => mkRat b.mantissa (Nat.pow 2 (n + 1))
    some (if Number.isNegative value then -magnitude else magnitude)

/-- A shape. The first ring of a polygon is its outline, the others are holes. -/
inductive Shape where
  | point (position : Point)
  | points (all : List Point)
  | line (path : List Point)
  | lines (paths : List (List Point))
  | polygon (rings : List (List Point))
  | polygons (all : List (List (List Point)))
  | collection (shapes : List Shape)

mutual

/-- The polygons of a shape, each as its rings. -/
def Shape.faces : Shape → List (List (List Point))
  | .polygon rings => [rings]
  | .polygons all => all
  | .collection shapes => facesOf shapes
  | _ => []

/-- The polygons of shapes. -/
def facesOf : List Shape → List (List (List Point))
  | [] => []
  | shape :: rest => shape.faces ++ facesOf rest

end

/-- The lesser of two coordinates. -/
def lesser (a b : Rat) : Rat := if b < a then b else a

/-- The greater of two coordinates. -/
def greater (a b : Rat) : Rat := if a < b then b else a

mutual

/-- The lines of a shape. -/
def Shape.paths : Shape → List (List Point)
  | .line path => [path]
  | .lines all => all
  | .collection shapes => pathsOf shapes
  | _ => []

/-- The lines of shapes. -/
def pathsOf : List Shape → List (List Point)
  | [] => []
  | shape :: rest => shape.paths ++ pathsOf rest

end

/-- A rectangle with positive or no extent. -/
structure Rectangle where
  left : Rat
  bottom : Rat
  right : Rat
  top : Rat
  deriving Repr

/-- The rectangle between two corners of a box; sides in the wrong order change places. -/
def Rectangle.ofBox? (box : Box) : Option Rectangle := do
  let west ← exactValue? box.west
  let south ← exactValue? box.south
  let east ← exactValue? box.east
  let north ← exactValue? box.north
  some ⟨lesser west east, lesser south north, greater west east, greater south north⟩

end MapReplica.Geometry
