import MapReplica.Geometry.Shape

/-!
# Which rectangles a shape covers

Every ring is turned so that its polygon lies on the left of its edges. A rectangle
with an extent is covered if nothing of the shape crosses one of its sides, no ring
lies wholly inside it, no edge separates its inside, and its centre lies in a polygon.
Two edges that run in opposite directions along the same line cancel each other, so
that polygons which meet cover together what meets their edges only at its border.
Points and lines cover nothing.
-/

namespace MapReplica.Geometry

/-- A directed edge. -/
structure Edge where
  start : Point
  finish : Point
  deriving Repr

/-- The signed area of the parallelogram on two differences of points: positive for a turn to the left. -/
def turn (a b c : Point) : Rat :=
  (b.x - a.x) * (c.y - a.y) - (b.y - a.y) * (c.x - a.x)

/-! ## Rings -/

/-- The corners of a ring, without the repetition of the first one at the end. -/
def openRing (ring : List Point) : List Point :=
  if ring.head? == ring.getLast? then ring.dropLast else ring

/-- A list without the items that repeat their predecessor. -/
def withoutRepeats : List Point → List Point
  | a :: b :: rest => if a = b then withoutRepeats (b :: rest) else a :: withoutRepeats (b :: rest)
  | short => short

/-- Whether a point comes before another one, from left to right and then from below. -/
def precedes (a b : Point) : Bool :=
  a.x < b.x || (a.x == b.x && a.y < b.y)

/-- The leftmost corner, of several the lowest. -/
def leastCorner : List Point → Option Point
  | [] => none
  | p :: rest => some (rest.foldl (fun least q => if precedes q least then q else least) p)

/-- Whether a ring of distinct neighbouring corners runs against the clock, told at its least corner. -/
def runsLeft (corners : List Point) : Bool :=
  match leastCorner corners with
  | none => false
  | some least =>
      let before := corners.takeWhile (· != least)
      let around := corners.drop before.length ++ before
      match around, around.getLast? with
      | least :: next :: _, some previous => 0 < turn previous least next
      | _, _ => false

/-- The edges around corners. -/
def edgesAround (corners : List Point) : List Edge :=
  match corners with
  | [] => []
  | first :: rest => (corners.zip (rest ++ [first])).map fun (a, b) => ⟨a, b⟩

/-- The corners of a ring that counts; a ring needs three of them. -/
def cornersOf (ring : List Point) : List Point :=
  let corners := withoutRepeats (openRing ring)
  if corners.length < 3 then [] else corners

/-- The edges of a ring with the polygon on their left; a hole has it on the outside. -/
def ringEdges (isHole : Bool) (ring : List Point) : List Edge :=
  let corners := cornersOf ring
  edgesAround (if runsLeft corners == isHole then corners.reverse else corners)

/-- The edges of a polygon. -/
def polygonEdges : List (List Point) → List Edge
  | [] => []
  | outline :: holes => ringEdges false outline ++ holes.flatMap (ringEdges true)

/-- The edges of all polygons of a shape. -/
def Shape.edges (shape : Shape) : List Edge :=
  shape.faces.flatMap polygonEdges

/-- The edges along a path. -/
def edgesAlong (path : List Point) : List Edge :=
  (path.zip path.tail).map fun (a, b) => ⟨a, b⟩

/-! ## Rectangles as rings -/

/-- The sides of a rectangle. -/
def Rectangle.sides (r : Rectangle) : List Edge :=
  edgesAround [⟨r.left, r.bottom⟩, ⟨r.right, r.bottom⟩, ⟨r.right, r.top⟩, ⟨r.left, r.top⟩]

/-- Whether a point lies inside a rectangle and not on its border. -/
def Rectangle.hasInside (r : Rectangle) (p : Point) : Bool :=
  r.left < p.x && p.x < r.right && r.bottom < p.y && p.y < r.top

/-- Whether a rectangle has an extent in both directions. -/
def Rectangle.hasExtent (r : Rectangle) : Bool :=
  r.left < r.right && r.bottom < r.top

/-- Whether two edges cross in a point that is no end of either. -/
def Edge.crosses (a b : Edge) : Bool :=
  turn a.start a.finish b.start * turn a.start a.finish b.finish < 0 &&
    turn b.start b.finish a.start * turn b.start b.finish a.finish < 0

/-- Whether a ring lies wholly inside a rectangle. -/
def isWithin (r : Rectangle) (ring : List Point) : Bool :=
  let corners := cornersOf ring
  !corners.isEmpty && corners.all r.hasInside

/-! ## Edges and rectangles -/

/-- The point of an edge at a part of its length. -/
def Edge.pointAt (edge : Edge) (part : Rat) : Point :=
  ⟨edge.start.x + part * (edge.finish.x - edge.start.x),
   edge.start.y + part * (edge.finish.y - edge.start.y)⟩

/-- The parts of an edge within a range at which a coordinate lies strictly between bounds. -/
def clip (start finish low high : Rat) (range : Rat × Rat) : Option (Rat × Rat) :=
  if start = finish then
    if low < start ∧ start < high then some range else none
  else
    let a := (low - start) / (finish - start)
    let b := (high - start) / (finish - start)
    let first := greater range.1 (lesser a b)
    let last := lesser range.2 (greater a b)
    if first < last then some (first, last) else none

/-- The parts between which an edge runs inside a rectangle. -/
def Edge.inside? (edge : Edge) (r : Rectangle) : Option (Rat × Rat) :=
  (clip edge.start.x edge.finish.x r.left r.right (0, 1)).bind
    (clip edge.start.y edge.finish.y r.bottom r.top)

/-- The part of an edge at which a point on its line lies. -/
def Edge.partOf (edge : Edge) (p : Point) : Rat :=
  if edge.start.x = edge.finish.x then (p.y - edge.start.y) / (edge.finish.y - edge.start.y)
  else (p.x - edge.start.x) / (edge.finish.x - edge.start.x)

/-- Where another edge on the same line begins and ends, measured along an edge. -/
def Edge.along? (edge other : Edge) : Option (Rat × Rat) :=
  if turn edge.start edge.finish other.start = 0 ∧ turn edge.start edge.finish other.finish = 0 then
    some (edge.partOf other.start, edge.partOf other.finish)
  else none

/-- How many edges run over a part of an edge in its direction, less those that run against it. -/
def balanceAt (spans : List (Rat × Rat)) (part : Rat) : Int :=
  (spans.map fun (a, b) =>
    if a < part ∧ part < b then (1 : Int) else if b < part ∧ part < a then -1 else 0).foldr (· + ·) 0

/-- The middles between neighbouring numbers of a sorted list. -/
def middles : List Rat → List Rat
  | a :: b :: rest => if a < b then (a + b) / 2 :: middles (b :: rest) else middles (b :: rest)
  | _ => []

/-- Whether an edge separates the inside of a rectangle: somewhere in it nothing cancels the edge. -/
def separates (edges : List Edge) (r : Rectangle) (edge : Edge) : Bool :=
  match edge.inside? r with
  | none => false
  | some (first, last) =>
      let spans := edges.filterMap edge.along?
      let breaks := spans.flatMap fun (a, b) => [a, b]
      let within := breaks.filter fun part => first < part && part < last
      let marks := (first :: last :: within).mergeSort fun a b => decide (a ≤ b)
      (middles marks).any fun part => balanceAt spans part != 0

/-- How many polygons lie around a point, by the edges to the right of it. -/
def depth (edges : List Edge) (p : Point) : Int :=
  (edges.map fun edge =>
    let side := turn edge.start edge.finish p
    if edge.start.y ≤ p.y ∧ p.y < edge.finish.y ∧ 0 < side then (1 : Int)
    else if edge.finish.y ≤ p.y ∧ p.y < edge.start.y ∧ side < 0 then -1
    else 0).foldr (· + ·) 0

/-- The centre of a rectangle. -/
def Rectangle.centre (r : Rectangle) : Point :=
  ⟨(r.left + r.right) / 2, (r.bottom + r.top) / 2⟩

/-- Whether the polygons of a shape cover a rectangle. -/
def Shape.covers (shape : Shape) (r : Rectangle) : Bool :=
  let edges := shape.edges
  let drawn := edges ++ shape.paths.flatMap edgesAlong
  r.hasExtent && !drawn.any (fun edge => r.sides.any edge.crosses) &&
    !shape.faces.flatten.any (isWithin r) && !edges.any (separates edges r) && 0 < depth edges r.centre

end MapReplica.Geometry
