import MapReplica.Proofs.Dialogue.Work
import MapReplica.Proofs.Expiry.Survivors

/-!
# Lines that are no tiles

A line that is no tile has no survivor. Without the condition on the zoom it makes no
difference at all. With this condition it may be the greatest line, and then the zoom
that it starts with, or zero, decides which tiles are kept. So leaving such lines out
keeps the survivors exactly if it keeps the deciding zoom, or if neither zoom occurs
among the tiles that pass all other conditions.
-/

namespace MapReplica.Expiry

variable {selection : Selection} {zoom : UInt32} {line : Line} {tile : Tile} {square : Square}
  {lines : List Line}

/-- The lines that are the notation of a tile. -/
def tileLines (lines : List Line) : List Line :=
  lines.filter fun line => (Tile.parse line).toBool

/-- The selection with the conditions on lines and squares alone, at any zoom. -/
def Selection.anyZoom (selection : Selection) : Selection :=
  { selection with deepestOnly := false }

/-- The zoom of the greatest line of a list; zero if it starts with none. -/
def Selection.deepest (selection : Selection) (lines : List Line) : UInt32 :=
  selection.order.deepest (selection.order.sort lines)

/-- The zoom of a tile is the number that its line starts with. -/
theorem zoom?_of_parse (read : Tile.parse line = .ok tile) : zoom? line = some tile.z := by
  simp only [Tile.parse] at read
  obtain ⟨z, hz, read⟩ := exists_of_bind_ok read
  obtain ⟨x, -, read⟩ := exists_of_bind_ok read
  obtain ⟨y, -, read⟩ := exists_of_bind_ok read
  have same : z = tile.z := by
    split at read
    case isTrue => cases read
    case isFalse =>
      cases read
      rfl
  rw [zoom?, List.head?_eq_getElem?, ← same]
  cases first : (Tile.pieces line)[0]? with
  | none => simp [first, Tile.component] at hz
  | some piece =>
      rw [first, Tile.component] at hz
      cases number : Number.read Number.max32 piece with
      | error fault => simp [number] at hz
      | ok n =>
          rw [number] at hz
          cases hz
          simp [number, Except.toOption]

/-- Nothing but the condition on the zoom depends on the zoom. -/
theorem Survives.elsewhere (survives : Survives selection.anyZoom zoom line square)
    (other : UInt32) : Survives selection.anyZoom other line square where
  passes := survives.passes
  deep := fun impossible => by cases impossible
  reads := survives.reads
  own := survives.own
  admitted := survives.admitted

theorem survives_iff (other : UInt32) :
    Survives selection zoom line square ↔
      Survives selection.anyZoom other line square ∧
        (selection.deepestOnly = true → square.tile.z = zoom) := by
  constructor
  · rintro ⟨passes, deep, reads, own, admitted⟩
    refine ⟨⟨passes, fun impossible => (by cases impossible), reads, own, admitted⟩, ?_⟩
    intro deepest
    exact Option.some.inj ((zoom?_of_parse reads).symm.trans (deep deepest))
  · rintro ⟨⟨passes, -, reads, own, admitted⟩, deep⟩
    refine ⟨passes, fun deepest => ?_, reads, own, admitted⟩
    rw [zoom?_of_parse reads, deep deepest]

/-- The condition on the zoom may as well be put to the tiles that pass all others. -/
theorem survivors_eq_filter (deepest : selection.deepestOnly = true) (lines : List Line) :
    selection.survivors lines =
      (selection.anyZoom.survivors lines).filter
        fun square => square.tile.z == selection.deepest lines := by
  rw [survivors_eq_filterMap, survivors_eq_filterMap, List.filter_filterMap]
  refine List.filterMap_congr fun line _ => Option.ext fun square => ?_
  rw [survivor?_eq_some_iff, Option.filter_eq_some_iff, survivor?_eq_some_iff, survives_iff,
    beq_iff_eq]
  exact and_congr_right fun _ => ⟨fun deep => deep deepest, fun deep _ => deep⟩

/-- A line that is no tile has no survivor. -/
theorem survivor?_eq_none (malformed : (Tile.parse line).toBool = false) :
    selection.survivor? zoom line = none := by
  rw [Option.eq_none_iff_forall_ne_some]
  intro square found
  rw [(survivor?_eq_some_iff.mp found).reads] at malformed
  cases malformed

/-- Without the condition on the zoom, lines that are no tiles make no difference. -/
theorem survivors_anyZoom (selection : Selection) (lines : List Line) :
    selection.anyZoom.survivors (tileLines lines) = selection.anyZoom.survivors lines := by
  rw [survivors_eq_filterMap, survivors_eq_filterMap, tileLines, Order.sort_filter,
    List.filterMap_filter]
  refine List.filterMap_congr fun line _ => ?_
  split
  case isTrue =>
    refine Option.ext fun square => ?_
    rw [survivor?_eq_some_iff, survivor?_eq_some_iff]
    exact ⟨fun survives => survives.elsewhere _, fun survives => survives.elsewhere _⟩
  case isFalse malformed => rw [survivor?_eq_none (by simpa using malformed)]

/-- Two values leave the same members of a list exactly if they are one, or neither occurs. -/
theorem filter_eq_filter_iff {α κ : Type} [DecidableEq κ] {key : α → κ} {first second : κ}
    {items : List α} :
    (items.filter fun item => key item == first) = (items.filter fun item => key item == second) ↔
      first = second ∨ ∀ item ∈ items, key item ≠ first ∧ key item ≠ second := by
  constructor
  · intro same
    by_cases one : first = second
    · exact .inl one
    · refine .inr fun item member => ⟨fun here => ?_, fun there => ?_⟩
      · have kept : item ∈ items.filter fun item => key item == second := by
          rw [← same]
          exact List.mem_filter.mpr ⟨member, beq_iff_eq.mpr here⟩
        exact one (here.symm.trans (beq_iff_eq.mp (List.mem_filter.mp kept).2))
      · have kept : item ∈ items.filter fun item => key item == first := by
          rw [same]
          exact List.mem_filter.mpr ⟨member, beq_iff_eq.mpr there⟩
        exact one ((beq_iff_eq.mp (List.mem_filter.mp kept).2).symm.trans there)
  · rintro (rfl | neither)
    · rfl
    · rw [List.filter_eq_nil_iff.mpr fun item member => by simpa using (neither item member).1,
        List.filter_eq_nil_iff.mpr fun item member => by simpa using (neither item member).2]

/-- Leaving out lines that are no tiles does not change which zoom decides, or does not matter. -/
def Selection.Unmoved (selection : Selection) (lines : List Line) : Prop :=
  selection.deepestOnly = true →
    selection.deepest (tileLines lines) = selection.deepest lines ∨
      ∀ square ∈ selection.anyZoom.survivors lines,
        square.tile.z ≠ selection.deepest (tileLines lines) ∧
          square.tile.z ≠ selection.deepest lines

/-- Lines that are no tiles may be left out exactly if the deciding zoom stays or does not matter. -/
theorem survivors_tileLines_iff (selection : Selection) (lines : List Line) :
    selection.survivors (tileLines lines) = selection.survivors lines ↔
      selection.Unmoved lines := by
  cases deepest : selection.deepestOnly with
  | false =>
      have free : selection.anyZoom = selection := by
        rw [Selection.anyZoom, ← deepest]
      have same := survivors_anyZoom selection lines
      rw [free] at same
      exact ⟨fun _ wanted => absurd (deepest.symm.trans wanted) (by decide), fun _ => same⟩
  | true =>
      rw [survivors_eq_filter deepest, survivors_eq_filter deepest, survivors_anyZoom,
        filter_eq_filter_iff]
      exact ⟨fun same _ => same, fun same => same deepest⟩

theorem boxes_tileLines (unmoved : selection.Unmoved lines) :
    selection.boxes (tileLines lines) = selection.boxes lines := by
  rw [Selection.boxes, Selection.boxes, (survivors_tileLines_iff selection lines).mpr unmoved]

end MapReplica.Expiry
