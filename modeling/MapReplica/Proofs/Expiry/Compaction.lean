import MapReplica.Proofs.Expiry.Survivors
import Mathlib.Data.List.SplitBy

/-!
# Boxes cover the surviving tiles and nothing else

The survivors are cut into the longest runs of tiles that follow one another in a
column, and each run has one box, from the south west corner of its southernmost tile
to the north east corner of its northernmost one. All tiles between these two belong to
the run, so that a box covers exactly the tiles of its run.
-/

namespace MapReplica.Expiry

variable {order : Order} {squares run : List Square} {first last square : Square} {box : Box}

/-! ## Runs -/

/-- A tile stands next to another one in its column, one row further in the order. -/
def Order.Steps (order : Order) (last next : Square) : Prop :=
  next.tile.z = last.tile.z ∧ next.tile.x = last.tile.x ∧
    match order with
    | .ascending => next.tile.y.toNat = last.tile.y.toNat + 1
    | .descending => next.tile.y.toNat + 1 = last.tile.y.toNat

theorem follows_iff_steps {last next : Square} :
    order.follows last.tile next.tile = true ↔ order.Steps last next := by
  cases order with
  | ascending => grind [Order.follows, Order.Steps]
  | descending => grind [Order.follows, Order.Steps]

/-- Squares cut into the longest pieces whose tiles follow one another. -/
structure Compacts (order : Order) (squares : List Square) (pieces : List (List Square)) :
    Prop where
  /-- The pieces are the squares in their order, each at one place of one piece. -/
  whole : pieces.flatten = squares
  nonempty : ∀ piece ∈ pieces, piece ≠ []
  /-- From tile to tile the column stays and the row goes on by one. -/
  steps : ∀ piece ∈ pieces, piece.IsChain order.Steps
  /-- Two neighbouring pieces could not be joined. -/
  longest : pieces.IsChain fun piece next => ¬ (piece ++ next).IsChain order.Steps

/-- Two pieces can be joined exactly if the second one begins next to the end of the first one. -/
theorem joined_iff {piece next : List Square} (steps : piece.IsChain order.Steps)
    (steps' : next.IsChain order.Steps) (nonempty : piece ≠ []) (nonempty' : next ≠ []) :
    (piece ++ next).IsChain order.Steps ↔
      order.Steps (piece.getLast nonempty) (next.head nonempty') := by
  simp [List.isChain_append, steps, steps', List.getLast?_eq_some_getLast nonempty,
    List.head?_eq_some_head nonempty']

/-- There is one way only to cut squares into longest pieces, and it is how runs are made. -/
theorem compacts_iff_runs {pieces : List (List Square)} :
    Compacts order squares pieces ↔ order.runs squares = pieces := by
  have apart (piece next : List Square) (nonempty : piece ≠ []) (nonempty' : next ≠ [])
      (steps : piece.IsChain order.Steps) (steps' : next.IsChain order.Steps) :
      ¬ (piece ++ next).IsChain order.Steps ↔
        ∃ (some : piece ≠ []) (some' : next ≠ []),
          order.follows (piece.getLast some).tile (next.head some').tile = false := by
    rw [joined_iff steps steps' nonempty nonempty', ← follows_iff_steps, Bool.not_eq_true]
    exact ⟨fun apart => ⟨nonempty, nonempty', apart⟩, fun ⟨_, _, apart⟩ => apart⟩
  rw [Order.runs, List.splitBy_eq_iff]
  simp only [follows_iff_steps]
  constructor
  · rintro ⟨whole, nonempty, steps, longest⟩
    refine ⟨whole.symm, fun member => nonempty [] member rfl, steps, ?_⟩
    refine longest.imp_of_mem_imp fun piece next here there => ?_
    exact (apart piece next (nonempty piece here) (nonempty next there) (steps piece here)
      (steps next there)).mp
  · rintro ⟨whole, nonempty, steps, longest⟩
    have filled (piece : List Square) (member : piece ∈ pieces) : piece ≠ [] := by
      rintro rfl
      exact nonempty member
    refine ⟨whole.symm, filled, steps, ?_⟩
    refine longest.imp_of_mem_imp fun piece next here there => ?_
    exact (apart piece next (filled piece here) (filled next there) (steps piece here)
      (steps next there)).mpr

/-! ## The box of a run -/

/-- A piece consists of the tiles from a southernmost to a northernmost one, and of nothing else. -/
structure Spans (piece : List Square) (southern northern : Square) : Prop where
  southern_mem : southern ∈ piece
  northern_mem : northern ∈ piece
  /-- All tiles of the piece lie in one column of one zoom. -/
  column : ∀ square ∈ piece,
    square.tile.z = southern.tile.z ∧ square.tile.x = southern.tile.x
  /-- Rows are counted from the north, so the southern end has the greatest one. -/
  between : ∀ square ∈ piece,
    northern.tile.y ≤ square.tile.y ∧ square.tile.y ≤ southern.tile.y
  /-- Every tile between the ends belongs to the piece. -/
  gapless : ∀ y, northern.tile.y ≤ y → y ≤ southern.tile.y →
    ∃ square ∈ piece, square.tile = ⟨southern.tile.z, southern.tile.x, y⟩

theorem Spans.singleton (square : Square) : Spans [square] square square where
  southern_mem := List.mem_singleton_self square
  northern_mem := List.mem_singleton_self square
  column := by simp
  between := by simp
  gapless := by
    intro y least most
    have same : square.tile.y = y := UInt32.le_antisymm least most
    exact ⟨square, List.mem_singleton_self square, by rw [← same]⟩

/-- A piece grows to the north by the tile above its northernmost one. -/
theorem Spans.cons {piece : List Square} {southern northern above : Square}
    (spans : Spans piece southern northern) (step : Order.ascending.Steps above northern) :
    Spans (above :: piece) southern above := by
  obtain ⟨zoom, column, row⟩ := step
  obtain ⟨zoom', column'⟩ := spans.column northern spans.northern_mem
  constructor
  case southern_mem => exact List.mem_cons_of_mem above spans.southern_mem
  case northern_mem => exact List.mem_cons_self
  case column =>
    intro square member
    rcases List.mem_cons.mp member with rfl | member
    · exact ⟨zoom.symm.trans zoom', column.symm.trans column'⟩
    · exact spans.column square member
  case between =>
    have bounds := spans.between northern spans.northern_mem
    intro square member
    rcases List.mem_cons.mp member with rfl | member
    · simp only [UInt32.le_iff_toNat_le] at bounds ⊢
      omega
    · have inside := spans.between square member
      simp only [UInt32.le_iff_toNat_le] at inside ⊢
      omega
  case gapless =>
    intro y least most
    by_cases same : y = above.tile.y
    · refine ⟨above, List.mem_cons_self, ?_⟩
      rw [same, ← zoom', ← column', zoom, column]
    · have below : northern.tile.y ≤ y := by
        have other : y.toNat ≠ above.tile.y.toNat := fun same' => same (UInt32.toNat_inj.mp same')
        simp only [UInt32.le_iff_toNat_le] at least ⊢
        omega
      obtain ⟨square, member, found⟩ := spans.gapless y below most
      exact ⟨square, List.mem_cons_of_mem above member, found⟩

theorem Spans.of_reverse {piece : List Square} {southern northern : Square}
    (spans : Spans piece.reverse southern northern) : Spans piece southern northern where
  southern_mem := List.mem_reverse.mp spans.southern_mem
  northern_mem := List.mem_reverse.mp spans.northern_mem
  column := fun square member => spans.column square (List.mem_reverse.mpr member)
  between := fun square member => spans.between square (List.mem_reverse.mpr member)
  gapless := fun y least most => by simpa using spans.gapless y least most

/-- Upwards, a run goes from its northernmost tile to its southernmost one. -/
theorem spans_of_ascending {first : Square} {rest : List Square}
    (steps : (first :: rest).IsChain Order.ascending.Steps) :
    Spans (first :: rest) ((first :: rest).getLast (List.cons_ne_nil first rest)) first := by
  induction rest generalizing first with
  | nil => exact Spans.singleton first
  | cons next rest ih =>
      obtain ⟨step, later⟩ := List.isChain_cons_cons.mp steps
      exact (ih later).cons step

/-- Downwards, a run is one upwards read from its end. -/
theorem steps_reverse {piece : List Square} (steps : piece.IsChain Order.descending.Steps) :
    piece.reverse.IsChain Order.ascending.Steps := by
  refine List.isChain_reverse.mpr (steps.imp fun last next step => ?_)
  exact ⟨step.1.symm, step.2.1.symm, step.2.2.symm⟩

/-- The box from the square of a southern tile to that of a northern one. -/
def boxBetween (southern northern : Tile) : Box :=
  ⟨southern.box.west, southern.box.south, northern.box.east, northern.box.north⟩

/-- The box of a run goes from its southernmost to its northernmost tile. -/
theorem cover?_eq {piece : List Square} (nonempty : piece ≠ [])
    (steps : piece.IsChain order.Steps) (own : ∀ square ∈ piece, square.box = square.tile.box) :
    ∃ southern northern, Spans piece southern northern ∧
      order.cover? piece = some (boxBetween southern.tile northern.tile) := by
  cases order with
  | ascending =>
      obtain ⟨first, rest, rfl⟩ := List.exists_cons_of_ne_nil nonempty
      have spans := spans_of_ascending steps
      refine ⟨_, _, spans, ?_⟩
      simp only [Order.cover?, List.head?_cons, List.getLast?_eq_some_getLast nonempty,
        own _ spans.southern_mem, own _ spans.northern_mem, boxBetween]
  | descending =>
      obtain ⟨last, back, turned⟩ :=
        List.exists_cons_of_ne_nil (List.reverse_ne_nil_iff.mpr nonempty)
      have spans := spans_of_ascending (turned ▸ steps_reverse steps)
      rw [← List.getLast_congr (List.reverse_ne_nil_iff.mpr nonempty) _ turned, ← turned,
        List.getLast_reverse] at spans
      have whole := spans.of_reverse
      have ends : piece.getLast? = some last := by
        rw [← List.head?_reverse, turned, List.head?_cons]
      refine ⟨_, _, whole, ?_⟩
      simp only [Order.cover?, List.head?_eq_some_head nonempty, ends,
        own _ whole.southern_mem, own _ whole.northern_mem, boxBetween]

/-! ## Compaction -/

/-- A box from the southernmost to the northernmost tile of a piece. -/
def Covers (piece : List Square) (box : Box) : Prop :=
  ∃ southern northern, Spans piece southern northern ∧
    box = boxBetween southern.tile northern.tile

theorem forall₂_covers {pieces : List (List Square)}
    (found : ∀ piece ∈ pieces, ∃ box, order.cover? piece = some box ∧ Covers piece box) :
    List.Forall₂ Covers pieces (pieces.filterMap order.cover?) := by
  induction pieces with
  | nil => exact .nil
  | cons piece rest ih =>
      obtain ⟨box, made, covers⟩ := found piece List.mem_cons_self
      rw [List.filterMap_cons_some made]
      exact .cons covers (ih fun next member => found next (List.mem_cons_of_mem piece member))

/--
Compaction is exact: the lines are put in order, the squares of the surviving ones are
cut into the longest runs of tiles that follow one another in a column, and the boxes are
those of the runs, one for each, in this order.
-/
theorem boxes_exact (selection : Selection) (lines : List Line) :
    ∃ (sorted : List Line) (zoom : UInt32) (survivor : Line → Option Square)
      (pieces : List (List Square)),
      sorted.Perm lines ∧ selection.order.Sorted sorted ∧ DeepestZoom lines zoom ∧
      (∀ line square, survivor line = some square ↔ Survives selection zoom line square) ∧
      Compacts selection.order (sorted.filterMap survivor) pieces ∧
      List.Forall₂ Covers pieces (selection.boxes lines) := by
  have compacts : Compacts selection.order (selection.survivors lines)
      (selection.order.runs (selection.survivors lines)) := compacts_iff_runs.mpr rfl
  refine ⟨selection.order.sort lines, selection.order.deepest (selection.order.sort lines),
    selection.survivor? (selection.order.deepest (selection.order.sort lines)),
    selection.order.runs (selection.survivors lines), selection.order.sort_perm lines,
    selection.order.sort_sorted lines, selection.order.deepestZoom lines,
    fun line square => survivor?_eq_some_iff, survivors_eq_filterMap selection lines ▸ compacts, ?_⟩
  refine forall₂_covers fun piece member => ?_
  have own (square : Square) (inside : square ∈ piece) : square.box = square.tile.box := by
    have among : square ∈ selection.survivors lines := by
      rw [← compacts.whole]
      exact List.mem_flatten.mpr ⟨piece, member, inside⟩
    exact own_of_mem_survivors among
  obtain ⟨southern, northern, spans, made⟩ :=
    cover?_eq (compacts.nonempty piece member) (compacts.steps piece member) own
  exact ⟨_, made, southern, northern, spans, rfl⟩

end MapReplica.Expiry
