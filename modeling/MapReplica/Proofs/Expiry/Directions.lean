import MapReplica.Proofs.Expiry.Compaction

/-!
# Both directions of sorting

Sorted downwards the lines stand in the opposite order of that upwards, with the same greatest
line. So the same tiles survive, and a run downwards is a run upwards read from its end: its
first tile is the last one there, and the southern one in both. So the boxes are the same, in
the opposite order.
-/

namespace MapReplica.Expiry

variable {squares piece : List Square} {pieces : List (List Square)}

/-- The selection that sorts in an order and is the same otherwise. -/
def Selection.sorting (selection : Selection) (order : Order) : Selection :=
  { selection with order := order }

/-! ## Survivors -/

/-- Lines in the opposite order have the same greatest line. -/
theorem greatest?_reverse (sorted : List Line) :
    Order.descending.greatest? sorted.reverse = Order.ascending.greatest? sorted :=
  List.head?_reverse

theorem deepest_reverse (sorted : List Line) :
    Order.descending.deepest sorted.reverse = Order.ascending.deepest sorted := by
  rw [Order.deepest, Order.deepest, greatest?_reverse]

/-- The same tiles survive, in the opposite order. -/
theorem survivors_descending (selection : Selection) (lines : List Line) :
    (selection.sorting .descending).survivors lines =
      ((selection.sorting .ascending).survivors lines).reverse := by
  have zoom : Order.descending.deepest (Order.descending.sort lines) =
      Order.ascending.deepest (Order.ascending.sort lines) := deepest_reverse (sortUp lines)
  rw [survivors_eq_filterMap, survivors_eq_filterMap, ← List.filterMap_reverse]
  simp only [Selection.sorting, zoom]
  rfl

/-! ## Runs -/

/-- A run downwards is one upwards, read from its end. -/
theorem isChain_reverse_iff :
    piece.reverse.IsChain Order.descending.Steps ↔ piece.IsChain Order.ascending.Steps := by
  have turned (last next : Square) :
      Order.descending.Steps next last ↔ Order.ascending.Steps last next := by
    simp only [Order.Steps, eq_comm]
  simp only [List.isChain_reverse, turned]

/-- Squares in the opposite order are cut at the same places. -/
theorem Compacts.reverse (compacts : Compacts .ascending squares pieces) :
    Compacts .descending squares.reverse (pieces.map List.reverse).reverse where
  whole := by rw [← compacts.whole, List.reverse_flatten]
  nonempty := by
    intro piece member
    obtain ⟨other, among, rfl⟩ := List.mem_map.mp (List.mem_reverse.mp member)
    exact List.reverse_ne_nil_iff.mpr (compacts.nonempty other among)
  steps := by
    intro piece member
    obtain ⟨other, among, rfl⟩ := List.mem_map.mp (List.mem_reverse.mp member)
    exact isChain_reverse_iff.mpr (compacts.steps other among)
  longest := by
    rw [List.isChain_reverse, List.isChain_map]
    refine compacts.longest.imp fun piece next apart joined => apart ?_
    rw [← List.reverse_append] at joined
    exact isChain_reverse_iff.mp joined

theorem runs_reverse (squares : List Square) :
    Order.descending.runs squares.reverse =
      ((Order.ascending.runs squares).map List.reverse).reverse :=
  compacts_iff_runs.mp (compacts_iff_runs.mpr rfl : Compacts .ascending squares _).reverse

/-- Both ends of a run change places, and so does what they stand for. -/
theorem cover?_reverse (piece : List Square) :
    Order.descending.cover? piece.reverse = Order.ascending.cover? piece := by
  simp only [Order.cover?, List.head?_reverse, List.getLast?_reverse]
  cases piece.getLast? with
  | none => cases piece.head? with
    | none => rfl
    | some first => rfl
  | some last => cases piece.head? with
    | none => rfl
    | some first => rfl

/-- The condition on the zoom counts as one more condition on lines. -/
theorem length_conditions (selection : Selection) (sorted : List Line) :
    (selection.conditions sorted).length =
      selection.lineFilters.length + if selection.deepestOnly then 1 else 0 := by
  cases deepest : selection.deepestOnly with
  | false => simp [Selection.conditions, deepest]
  | true => simp [Selection.conditions, deepest]

/--
Sorting upwards leads to the boxes that sorting downwards leads to, in the opposite order, with
as many conditions on lines and on squares.
-/
theorem boxes_ascending_eq_reverse (selection : Selection) (lines : List Line) :
    ((selection.sorting .ascending).outcome lines).boxes =
        ((selection.sorting .descending).outcome lines).boxes.reverse ∧
      ((selection.sorting .ascending).outcome lines).lineFilters =
        ((selection.sorting .descending).outcome lines).lineFilters ∧
      ((selection.sorting .ascending).outcome lines).boxFilters =
        ((selection.sorting .descending).outcome lines).boxFilters := by
  refine ⟨?_, ?_, rfl⟩
  · have covers : Order.descending.cover? ∘ List.reverse = Order.ascending.cover? :=
      funext cover?_reverse
    calc (selection.sorting .ascending).boxes lines
      _ = ((Order.ascending.runs ((selection.sorting .ascending).survivors lines)).map
            List.reverse).filterMap Order.descending.cover? := by
          rw [List.filterMap_map, covers]
          rfl
      _ = ((Order.descending.runs ((selection.sorting .descending).survivors lines)).filterMap
            Order.descending.cover?).reverse := by
          rw [survivors_descending, runs_reverse, List.filterMap_reverse, List.reverse_reverse]
      _ = ((selection.sorting .descending).boxes lines).reverse := rfl
  · simp only [Selection.outcome, length_conditions]
    rfl

end MapReplica.Expiry
