import MapReplica.Geometry.Cover
import MapReplica.Json.Reader

/-!
# Areas

An area to which tiles are confined is a shape in GeoJSON or a plain array of its
west, south, east and north side. The rules of GeoJSON are followed where they decide
whether a text is a shape; members that the format does not know are ignored.
-/

namespace MapReplica

/-- An area to which tiles are confined. -/
inductive Area where
  | rectangle (sides : Box)
  | shape (figure : Geometry.Shape)

namespace Geometry

/-! ## GeoJSON -/

/-- The exact coordinate that a number is. -/
def coordinate? (value : Json) : Option Rat :=
  value.float?.bind exactValue?

/-- A position: at least two numbers, of which the first two count. -/
def position? (value : Json) : Option Point := do
  match ← (← value.array?).mapM coordinate? with
  | x :: y :: _ => some ⟨x, y⟩
  | _ => none

/-- An array of what `read` reads. -/
def arrayOf? {α : Type} (read : Json → Option α) (value : Json) : Option (List α) :=
  value.array?.bind fun items => items.mapM read

/-- Whether a bounding box, if there is one, is an array of numbers. -/
def hasPlainBounds (value : Json) : Bool :=
  match value.member? "bbox" with
  | none => true
  | some bounds => (arrayOf? Json.float? bounds).isSome

mutual

/-- The shape that a geometry object is. -/
def shape? : Json → Option Shape
  | .object members =>
      if !hasPlainBounds (.object members) then none
      else
        let coordinates := Json.lookup? "coordinates" members
        match Json.lookup? "type" members with
        | some (.text "Point") => coordinates.bind fun c => (position? c).map .point
        | some (.text "MultiPoint") => coordinates.bind fun c => (arrayOf? position? c).map .points
        | some (.text "LineString") => coordinates.bind fun c => (arrayOf? position? c).map .line
        | some (.text "MultiLineString") =>
            coordinates.bind fun c => (arrayOf? (arrayOf? position?) c).map .lines
        | some (.text "Polygon") =>
            coordinates.bind fun c => (arrayOf? (arrayOf? position?) c).map .polygon
        | some (.text "MultiPolygon") =>
            coordinates.bind fun c => (arrayOf? (arrayOf? (arrayOf? position?)) c).map .polygons
        | some (.text "GeometryCollection") => (collected? members).map .collection
        | _ => none
  | _ => none

/-- The shapes of the last member `geometries`. -/
def collected? : List (String × Json) → Option (List Shape)
  | [] => none
  | (name, value) :: rest =>
      match collected? rest, rest.any (·.1 = "geometries") with
      | found, true => found
      | _, false => if name = "geometries" then shapesOf? value else none

/-- The shapes of an array. -/
def shapesOf? : Json → Option (List Shape)
  | .array items => shapeItems? items
  | _ => none

/-- The shapes of the items of an array. -/
def shapeItems? : List Json → Option (List Shape)
  | [] => some []
  | item :: rest => do
      let shape ← shape? item
      let shapes ← shapeItems? rest
      some (shape :: shapes)

end

/-- Whether the identifier of a feature, if there is one, is a text or a number. -/
def hasPlainId (value : Json) : Bool :=
  match value.member? "id" with
  | none => true
  | some (.text _) => true
  | some id => id.float?.isSome

/-- Whether the properties of a feature are an object, `null` or missing. -/
def hasPlainProperties (value : Json) : Bool :=
  match value.member? "properties" with
  | none => true
  | some .null => true
  | some (.object _) => true
  | some _ => false

/-- The shape of a feature. -/
def feature? (value : Json) : Option Shape :=
  match value.member? "type" with
  | some (.text "Feature") =>
      if hasPlainBounds value && hasPlainId value && hasPlainProperties value then
        (value.member? "geometry").bind shape?
      else none
  | _ => none

/-- The shape that a GeoJSON value is. -/
def ofGeoJson? (value : Json) : Option Shape :=
  match value.member? "type" with
  | some (.text "Feature") => feature? value
  | some (.text "FeatureCollection") =>
      if hasPlainBounds value then
        ((value.member? "features").bind (arrayOf? feature?)).map .collection
      else none
  | _ => shape? value

end Geometry

namespace Area

/-- Four numbers as the sides of a rectangle. -/
def sides? (value : Json) : Option Box := do
  match ← Geometry.arrayOf? Json.float? value with
  | [west, south, east, north] => some ⟨west, south, east, north⟩
  | _ => none

/-- The area that a text describes. -/
def parse? (content : String) : Option Area := do
  let value ← Json.read? content
  match Geometry.ofGeoJson? value with
  | some figure => some (.shape figure)
  | none => (sides? value).map .rectangle

/-- Whether a box lies in an area; a rectangle holds what touches its sides from within. -/
def covers : Area → Box → Bool
  | .rectangle sides, box =>
      sides.west ≤ box.west && sides.south ≤ box.south && box.east ≤ sides.east &&
        box.north ≤ sides.north
  | .shape figure, box => (Geometry.Rectangle.ofBox? box).any figure.covers

end Area

end MapReplica
