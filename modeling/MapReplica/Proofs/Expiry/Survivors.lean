import MapReplica.Proofs.Expiry.Order

/-!
# The lines that survive

Each line is judged by itself, apart from the zoom that the greatest line gives. So the
survivors are the sorted lines, each with its square or left out.
-/

namespace MapReplica.Expiry

variable {selection : Selection} {zoom : UInt32} {line : Line} {tile : Tile} {square : Square}
  {lines : List Line}

/-- A line survives with a square, if only lines of a zoom are kept. -/
structure Survives (selection : Selection) (zoom : UInt32) (line : Line) (square : Square) :
    Prop where
  /-- The line passes every condition on lines. -/
  passes : ∀ condition ∈ selection.lineFilters, condition line = true
  /-- The line starts with the zoom that is kept. -/
  deep : selection.deepestOnly = true → zoom? line = some zoom
  /-- The line is the notation of a tile. -/
  reads : Tile.parse line = .ok square.tile
  /-- The square is the one of this tile. -/
  own : square.box = square.tile.box
  /-- The square passes every condition on squares. -/
  admitted : ∀ condition ∈ selection.boxFilters, condition square.tile.box = true

/-- The square with which a line survives, if only lines of a zoom are kept. -/
def Selection.survivor? (selection : Selection) (zoom : UInt32) (line : Line) : Option Square :=
  if selection.lineFilters.all (fun condition => condition line) &&
      (!selection.deepestOnly || hasZoom zoom line) then
    (square? line).filter fun square => selection.boxFilters.all fun condition => condition square.box
  else none

theorem square?_eq_some_iff :
    square? line = some square ↔
      Tile.parse line = .ok square.tile ∧ square.box = square.tile.box := by
  obtain ⟨tile, box⟩ := square
  cases read : Tile.parse line with
  | error fault => simp [square?, read, Except.toOption]
  | ok found =>
      simp only [square?, read, Except.toOption, Option.map_some, Option.some.injEq,
        Square.mk.injEq, Except.ok.injEq]
      constructor
      · rintro ⟨rfl, rfl⟩
        exact ⟨rfl, rfl⟩
      · rintro ⟨rfl, rfl⟩
        exact ⟨rfl, rfl⟩

theorem survivor?_eq_some_iff :
    selection.survivor? zoom line = some square ↔ Survives selection zoom line square := by
  unfold Selection.survivor?
  constructor
  · intro found
    split at found
    case isTrue kept =>
      obtain ⟨read, admitted⟩ := Option.filter_eq_some_iff.mp found
      obtain ⟨reads, own⟩ := square?_eq_some_iff.mp read
      simp only [Bool.and_eq_true, List.all_eq_true, Bool.or_eq_true, Bool.not_eq_true',
        hasZoom, beq_iff_eq] at kept
      refine ⟨kept.1, ?_, reads, own, own ▸ List.all_eq_true.mp admitted⟩
      intro deepest
      exact kept.2.resolve_left (by simp [deepest])
    case isFalse => cases found
  · rintro ⟨passes, deep, reads, own, admitted⟩
    have kept : (!selection.deepestOnly || hasZoom zoom line) = true := by
      cases deepest : selection.deepestOnly with
      | false => rfl
      | true => simp [hasZoom, deep deepest]
    rw [if_pos (by simpa [kept] using passes)]
    exact Option.filter_eq_some_iff.mpr
      ⟨square?_eq_some_iff.mpr ⟨reads, own⟩, own.symm ▸ List.all_eq_true.mpr admitted⟩

theorem survivors_eq_filterMap (selection : Selection) (lines : List Line) :
    selection.survivors lines =
      (selection.order.sort lines).filterMap
        (selection.survivor? (selection.order.deepest (selection.order.sort lines))) := by
  have judged (sorted : List Line) (line : Line) :
      ((selection.conditions sorted).all fun condition => condition line) =
        (selection.lineFilters.all (fun condition => condition line) &&
          (!selection.deepestOnly || hasZoom (selection.order.deepest sorted) line)) := by
    cases deepest : selection.deepestOnly with
    | false => simp [Selection.conditions, deepest]
    | true => simp [Selection.conditions, deepest]
  simp only [Selection.survivors, List.filterMap_filter, List.filter_filterMap]
  refine List.filterMap_congr fun line _ => ?_
  rw [Selection.survivor?, judged]
  split
  case isTrue => rfl
  case isFalse => rfl

theorem mem_survivors_iff :
    square ∈ selection.survivors lines ↔
      ∃ line ∈ lines,
        Survives selection (selection.order.deepest (selection.order.sort lines)) line square := by
  simp only [survivors_eq_filterMap, List.mem_filterMap, Order.mem_sort, survivor?_eq_some_iff]

/-- Every survivor carries the square of its own tile. -/
theorem own_of_mem_survivors (member : square ∈ selection.survivors lines) :
    square.box = square.tile.box := by
  obtain ⟨line, -, survives⟩ := mem_survivors_iff.mp member
  exact survives.own

end MapReplica.Expiry
