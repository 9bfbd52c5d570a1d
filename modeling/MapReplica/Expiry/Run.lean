import MapReplica.Tile

/-!
# Expired tiles

A list of expired tiles holds one tile per line. `Selection.boxes` sorts the lines
as texts, keeps what passes the filters and joins tiles that follow one another in
a column to one box. Lines that are no tiles are left out.
-/

namespace MapReplica.Expiry

/-- A line of a list of expired tiles. -/
abbrev Line := List Char

/-- The direction in which lines are sorted. -/
inductive Order where
  | ascending
  | descending
  deriving DecidableEq, Repr

/-- The zoom that a line starts with, if it starts with one. -/
def zoom? (line : Line) : Option UInt32 :=
  match (Tile.pieces line).head? with
  | none => none
  | some piece => (Number.read Number.max32 piece).toOption.map UInt32.ofNat

/-- Whether a line starts with a zoom. -/
def hasZoom (zoom : UInt32) (line : Line) : Bool :=
  zoom? line == some zoom

/-- How expired tiles are chosen. -/
structure Selection where
  order : Order := .descending
  /-- Whether only tiles of the zoom of the greatest line are kept. -/
  deepestOnly : Bool := false
  /-- Conditions on lines. -/
  lineFilters : List (Line → Bool) := []
  /-- Conditions on the squares of tiles. -/
  boxFilters : List (Box → Bool) := []

/-- Whether a line is not behind another one in the order of code points. -/
def notBehind : Line → Line → Bool
  | [], _ => true
  | _ :: _, [] => false
  | a :: restA, b :: restB => if a = b then notBehind restA restB else decide (a.toNat < b.toNat)

/-- Lines in the order of their code points. -/
def sortUp (lines : List Line) : List Line :=
  lines.mergeSort notBehind

/-- Lines in a given order. -/
def Order.sort : Order → List Line → List Line
  | .ascending, lines => sortUp lines
  | .descending, lines => (sortUp lines).reverse

/-- The greatest of sorted lines. -/
def Order.greatest? : Order → List Line → Option Line
  | .ascending, lines => lines.getLast?
  | .descending, lines => lines.head?

/-- The zoom that the greatest line starts with; zero if there is none. -/
def Order.deepest (order : Order) (sorted : List Line) : UInt32 :=
  ((order.greatest? sorted).bind zoom?).getD 0

/-- All conditions on lines, given the sorted lines. -/
def Selection.conditions (selection : Selection) (sorted : List Line) : List (Line → Bool) :=
  if selection.deepestOnly then
    selection.lineFilters ++ [hasZoom (selection.order.deepest sorted)]
  else selection.lineFilters

/-- A tile with its square. -/
structure Square where
  tile : Tile
  box : Box

/-- The square of the tile on a line. -/
def square? (line : Line) : Option Square :=
  (Tile.parse line).toOption.map fun tile => ⟨tile, tile.box⟩

/-- The tiles that pass all conditions, in order. -/
def Selection.survivors (selection : Selection) (lines : List Line) : List Square :=
  let sorted := selection.order.sort lines
  let conditions := selection.conditions sorted
  ((sorted.filter fun line => conditions.all fun condition => condition line).filterMap square?).filter
    fun square => selection.boxFilters.all fun condition => condition square.box

/-- Whether a tile comes directly after another one in its column. -/
def Order.follows (order : Order) (last next : Tile) : Bool :=
  last.z == next.z && last.x == next.x &&
    match order with
    | .ascending => next.y.toNat == last.y.toNat + 1
    | .descending => next.y.toNat + 1 == last.y.toNat

/-- The survivors in runs of tiles that follow one another. -/
def Order.runs (order : Order) (squares : List Square) : List (List Square) :=
  squares.splitBy fun last next => order.follows last.tile next.tile

/-- The box around a run. Its south end is the last tile when sorting upwards, the first one otherwise. -/
def Order.cover? (order : Order) (run : List Square) : Option Box :=
  match order, run.head?, run.getLast? with
  | .ascending, some first, some last =>
      some ⟨last.box.west, last.box.south, first.box.east, first.box.north⟩
  | .descending, some first, some last =>
      some ⟨first.box.west, first.box.south, last.box.east, last.box.north⟩
  | _, _, _ => none

/-- The boxes of the chosen tiles. -/
def Selection.boxes (selection : Selection) (lines : List Line) : List Box :=
  (selection.order.runs (selection.survivors lines)).filterMap selection.order.cover?

/-- The boxes, and how many conditions on lines and on squares were applied. -/
structure Outcome where
  boxes : List Box
  lineFilters : Nat
  boxFilters : Nat

/-- Chooses tiles and reports how. -/
def Selection.outcome (selection : Selection) (lines : List Line) : Outcome :=
  { boxes := selection.boxes lines
    lineFilters := (selection.conditions (selection.order.sort lines)).length
    boxFilters := selection.boxFilters.length }

end MapReplica.Expiry
