import MapReplica.Proofs.Expiry.Compaction
import MapReplica.Proofs.Expiry.Numerals
import Mathlib.Data.List.Nodup

/-!
# The boxes of a column

Lines are sorted as texts, so tiles that follow one another in a column need not be neighbours
among the survivors. For canonical lines it is known which tiles come between them, and so where
a column is cut.
-/

namespace MapReplica.Expiry

/-! ## Neighbours in a sorted list -/

section Neighbours

variable {α : Type} {R : α → α → Prop} {items : List α} {first last : α}

/-- In a list in strict order two members are neighbours exactly if no member lies between them. -/
theorem neighbours_iff (sorted : items.Pairwise R) (asymm : ∀ a b, R a b → ¬ R b a)
    (mem : first ∈ items) (mem' : last ∈ items) :
    [first, last] <:+: items ↔
      R first last ∧ ∀ inner ∈ items, ¬ (R first inner ∧ R inner last) := by
  have irrefl (a : α) : ¬ R a a := fun loop => asymm a a loop loop
  constructor
  · rintro ⟨front, back, rfl⟩
    simp only [List.append_assoc, List.cons_append, List.nil_append, List.pairwise_append,
      List.pairwise_cons, List.mem_cons] at sorted
    obtain ⟨-, ⟨after, later, -⟩, across⟩ := sorted
    refine ⟨after last (.inl rfl), ?_⟩
    rintro inner member ⟨low, high⟩
    simp only [List.append_assoc, List.cons_append, List.nil_append, List.mem_append,
      List.mem_cons] at member
    rcases member with before | rfl | rfl | behind
    · exact asymm _ _ low (across inner before first (.inl rfl))
    · exact irrefl _ low
    · exact irrefl _ high
    · exact asymm _ _ high (later inner behind)
  · rintro ⟨step, alone⟩
    obtain ⟨front, back, rfl⟩ := List.append_of_mem mem
    obtain ⟨-, behind, across⟩ := List.pairwise_append.mp sorted
    obtain ⟨after, later⟩ := List.pairwise_cons.mp behind
    rcases List.mem_append.mp mem' with before | member
    · exact (asymm _ _ step (across last before first List.mem_cons_self)).elim
    · rcases List.mem_cons.mp member with rfl | member
      · exact (irrefl _ step).elim
      · cases back with
        | nil => cases member
        | cons next back =>
            rcases List.mem_cons.mp member with rfl | member
            · exact ⟨front, back, by simp⟩
            · refine (alone next (by simp) ⟨after next List.mem_cons_self, ?_⟩).elim
              exact (List.pairwise_cons.mp later).1 last member

end Neighbours

/-! ## Squares in one piece -/

variable {order : Order} {selection : Selection} {squares : List Square}
  {pieces : List (List Square)} {first last : Square} {lines : List Line} {line : Line}
  {tile : Tile}

/-- The row of a square, counted in the direction of an order. -/
def Order.row : Order → Square → Int
  | .ascending, square => square.tile.y.toNat
  | .descending, square => -square.tile.y.toNat

theorem Order.Steps.row (steps : order.Steps first last) : order.row last = order.row first + 1 := by
  obtain ⟨-, -, next⟩ := steps
  cases order with
  | ascending =>
      simp only at next
      simp only [Order.row]
      omega
  | descending =>
      simp only at next
      simp only [Order.row]
      omega

/-- Along a piece the rows go on. -/
theorem rows_of_steps {piece : List Square} (steps : piece.IsChain order.Steps) :
    piece.Pairwise fun square next => order.row square < order.row next := by
  have climbs : piece.IsChain fun square next => order.row square < order.row next :=
    steps.imp fun square next step => by
      have row := step.row
      omega
  have : IsTrans Square fun square next => order.row square < order.row next :=
    ⟨fun _ _ _ low high => Int.lt_trans low high⟩
  exact climbs.pairwise

/-- Neighbours one step apart are not cut from one another. -/
theorem together_of_neighbours (steps : order.Steps first last)
    (chains : ∀ piece ∈ pieces, piece.IsChain order.Steps) (nonempty : ∀ piece ∈ pieces, piece ≠ [])
    (longest : pieces.IsChain fun piece next => ¬ (piece ++ next).IsChain order.Steps)
    (neighbours : [first, last] <:+: pieces.flatten) :
    ∃ piece ∈ pieces, first ∈ piece ∧ last ∈ piece := by
  induction pieces with
  | nil => simp at neighbours
  | cons piece rest ih =>
      have further (neighbours : [first, last] <:+: rest.flatten) :
          ∃ piece' ∈ piece :: rest, first ∈ piece' ∧ last ∈ piece' := by
        obtain ⟨found, among, both⟩ :=
          ih (fun next member => chains next (List.mem_cons_of_mem piece member))
            (fun next member => nonempty next (List.mem_cons_of_mem piece member)) longest.tail
            neighbours
        exact ⟨found, List.mem_cons_of_mem piece among, both⟩
      obtain ⟨front, back, whole⟩ := neighbours
      rw [List.flatten_cons, List.append_assoc] at whole
      rcases List.append_eq_append_iff.mp whole with ⟨begun, ends, later⟩ | ⟨more, -, later⟩
      case inr => exact further ⟨more, back, by simp [later]⟩
      match begun, later with
      | [], later => exact further ⟨[], back, later⟩
      | [_], later =>
          -- The pair is cut here, but the two pieces could have been joined.
          simp only [List.cons_append, List.nil_append, List.cons.injEq] at later
          obtain ⟨rfl, later⟩ := later
          cases rest with
          | nil => cases later
          | cons next rest =>
              have filled := nonempty next (by simp)
              obtain ⟨head, tail, rfl⟩ := List.exists_cons_of_ne_nil filled
              simp only [List.flatten_cons, List.cons_append, List.cons.injEq] at later
              obtain ⟨rfl, -⟩ := later
              refine ((List.isChain_cons_cons.mp longest).1 ?_).elim
              refine (joined_iff (chains piece (by simp)) (chains _ (by simp))
                (nonempty piece (by simp)) filled).mpr ?_
              simpa [ends] using steps
      | _ :: _ :: begun, later =>
          simp only [List.cons_append, List.nil_append, List.cons.injEq] at later
          obtain ⟨rfl, rfl, -⟩ := later
          exact ⟨piece, List.mem_cons_self, by simp [ends]⟩

/-- Two squares one step apart lie in one piece exactly if they are neighbours. -/
theorem Compacts.together_iff (compacts : Compacts order squares pieces)
    (steps : order.Steps first last) :
    (∃ piece ∈ pieces, first ∈ piece ∧ last ∈ piece) ↔ [first, last] <:+: squares := by
  rw [← compacts.whole]
  constructor
  · rintro ⟨piece, among, mem, mem'⟩
    refine List.IsInfix.trans ?_ (List.infix_of_mem_flatten among)
    have row := steps.row
    refine (neighbours_iff (rows_of_steps (compacts.steps piece among))
      (fun _ _ low high => Int.lt_asymm low high) mem mem').mpr ⟨by omega, ?_⟩
    rintro inner - ⟨low, high⟩
    omega
  · exact together_of_neighbours steps compacts.steps compacts.nonempty compacts.longest

/-! ## Intervals of a column -/

/-- The rows from `north` to `south` are of a set of rows, and the rows next to them are not. -/
structure MaximalInterval (rows : UInt32 → Prop) (north south : UInt32) : Prop where
  ordered : north ≤ south
  full : ∀ y, north ≤ y → y ≤ south → rows y
  northEnd : ∀ y : UInt32, y.toNat + 1 = north.toNat → ¬ rows y
  southEnd : ∀ y : UInt32, y.toNat = south.toNat + 1 → ¬ rows y

theorem exists_row {n : Nat} {last : UInt32} (small : n ≤ last.toNat) : ∃ y : UInt32, y.toNat = n :=
  ⟨UInt32.ofNat n, UInt32.toNat_ofNat_of_lt' (Nat.lt_of_le_of_lt small last.toNat_lt)⟩

/-- No row is of two maximal intervals. -/
theorem MaximalInterval.unique {rows : UInt32 → Prop} {north south north' south' y : UInt32}
    (interval : MaximalInterval rows north south) (interval' : MaximalInterval rows north' south')
    (inside : north ≤ y ∧ y ≤ south) (inside' : north' ≤ y ∧ y ≤ south') :
    north = north' ∧ south = south' := by
  -- An end inside another interval has a row of that interval behind it.
  have ends {north south north' south' : UInt32} (interval : MaximalInterval rows north south)
      (interval' : MaximalInterval rows north' south') (inside : north ≤ y ∧ y ≤ south)
      (inside' : north' ≤ y ∧ y ≤ south') : north ≤ north' ∧ south' ≤ south := by
    simp only [UInt32.le_iff_toNat_le] at inside inside' ⊢
    constructor
    · by_contra less
      obtain ⟨above, row⟩ := exists_row (Nat.sub_le north.toNat 1)
      refine interval.northEnd above (by omega) (interval'.full above ?_ ?_)
      · rw [UInt32.le_iff_toNat_le]
        omega
      · rw [UInt32.le_iff_toNat_le]
        omega
    · by_contra less
      obtain ⟨below, row⟩ := exists_row (show south.toNat + 1 ≤ south'.toNat by omega)
      refine interval.southEnd below row (interval'.full below ?_ ?_)
      · rw [UInt32.le_iff_toNat_le]
        omega
      · rw [UInt32.le_iff_toNat_le]
        omega
  obtain ⟨low, high⟩ := ends interval interval' inside inside'
  obtain ⟨low', high'⟩ := ends interval' interval inside' inside
  exact ⟨UInt32.le_antisymm low low', UInt32.le_antisymm high' high⟩

/-- A tile of a column is among squares. -/
def Occupied (squares : List Square) (z x y : UInt32) : Prop :=
  ∃ square ∈ squares, square.tile = ⟨z, x, y⟩

section Intervals

variable {z x : UInt32} {north south : UInt32}

/-- A square lies in one piece only. -/
theorem Compacts.piece_unique {piece next : List Square} {square : Square}
    (compacts : Compacts order squares pieces) (distinct : squares.Nodup) (among : piece ∈ pieces)
    (among' : next ∈ pieces) (mem : square ∈ piece) (mem' : square ∈ next) : piece = next := by
  rw [← compacts.whole, List.nodup_flatten] at distinct
  by_contra other
  have : Std.Symm (List.Disjoint (α := Square)) := ⟨fun _ _ apart _ mem mem' => apart mem' mem⟩
  exact distinct.2.forall among among' other mem mem'

/-- A piece is a maximal interval of its column if no rows that follow one another are cut apart. -/
theorem Compacts.maximalInterval {piece : List Square} {southern northern : Square}
    (compacts : Compacts order squares pieces) (distinct : squares.Nodup)
    (joined : ∀ upper ∈ squares, ∀ lower ∈ squares, upper.tile.z = z → upper.tile.x = x →
      lower.tile.z = z → lower.tile.x = x → lower.tile.y.toNat = upper.tile.y.toNat + 1 →
        ∃ piece ∈ pieces, upper ∈ piece ∧ lower ∈ piece)
    (among : piece ∈ pieces) (spans : Spans piece southern northern)
    (zoom : southern.tile.z = z) (column : southern.tile.x = x) :
    MaximalInterval (Occupied squares z x) northern.tile.y southern.tile.y := by
  have kept (square : Square) (mem : square ∈ piece) : square ∈ squares := by
    rw [← compacts.whole]
    exact List.mem_flatten_of_mem among mem
  have bounds := spans.between
  have place := spans.column northern spans.northern_mem
  rw [zoom, column] at place
  constructor
  case ordered => exact (bounds northern spans.northern_mem).2
  case full =>
    intro y least most
    obtain ⟨square, mem, tile⟩ := spans.gapless y least most
    exact ⟨square, kept square mem, by rw [tile, zoom, column]⟩
  case northEnd =>
    rintro y next ⟨square, mem, tile⟩
    obtain ⟨other, among', mem', mem''⟩ := joined square mem northern
      (kept northern spans.northern_mem) (by rw [tile]) (by rw [tile]) place.1 place.2
      (by rw [tile]; exact next.symm)
    have same := compacts.piece_unique distinct among' among mem'' spans.northern_mem
    have least := (bounds square (same ▸ mem')).1
    rw [tile, UInt32.le_iff_toNat_le] at least
    simp only at least
    omega
  case southEnd =>
    rintro y next ⟨square, mem, tile⟩
    obtain ⟨other, among', mem', mem''⟩ := joined southern (kept southern spans.southern_mem)
      square mem zoom column (by rw [tile]) (by rw [tile]) (by rw [tile]; exact next)
    have same := compacts.piece_unique distinct among' among mem' spans.southern_mem
    have most := (bounds square (same ▸ mem'')).2
    rw [tile, UInt32.le_iff_toNat_le] at most
    simp only at most
    omega

/-- The pieces of a column are its maximal intervals if no rows that follow one another are cut apart. -/
theorem Compacts.spans_iff_maximalInterval (compacts : Compacts order squares pieces)
    (distinct : squares.Nodup)
    (spanned : ∀ piece ∈ pieces, ∃ southern northern, Spans piece southern northern)
    (joined : ∀ upper ∈ squares, ∀ lower ∈ squares, upper.tile.z = z → upper.tile.x = x →
      lower.tile.z = z → lower.tile.x = x → lower.tile.y.toNat = upper.tile.y.toNat + 1 →
        ∃ piece ∈ pieces, upper ∈ piece ∧ lower ∈ piece) :
    (∃ piece ∈ pieces, ∃ southern northern, Spans piece southern northern ∧
        southern.tile = ⟨z, x, south⟩ ∧ northern.tile = ⟨z, x, north⟩) ↔
      MaximalInterval (Occupied squares z x) north south := by
  constructor
  · rintro ⟨piece, among, southern, northern, spans, low, high⟩
    have interval := compacts.maximalInterval distinct joined among spans (z := z) (x := x)
      (by rw [low]) (by rw [low])
    rwa [low, high] at interval
  · intro interval
    obtain ⟨square, mem, tile⟩ := interval.full north (UInt32.le_refl north) interval.ordered
    rw [← compacts.whole] at mem
    obtain ⟨piece, among, mem⟩ := List.mem_flatten.mp mem
    obtain ⟨southern, northern, spans⟩ := spanned piece among
    have inside := spans.between square mem
    obtain ⟨zoom, column⟩ := spans.column square mem
    obtain ⟨zoom', column'⟩ := spans.column northern spans.northern_mem
    rw [tile] at inside zoom column
    simp only at inside zoom column
    have found := compacts.maximalInterval distinct joined among spans zoom.symm column.symm
    obtain ⟨low, high⟩ := found.unique interval inside ⟨UInt32.le_refl north, interval.ordered⟩
    refine ⟨piece, among, southern, northern, spans, ?_, ?_⟩
    · rw [← high, zoom, column]
    · rw [← low, zoom, column, ← zoom', ← column']

end Intervals

/-! ## Canonical lines -/

/-- A line is the notation of a tile: three numerals without signs, zeros in front or blanks. -/
def Canonical (line : Line) : Prop :=
  ∃ tile : Tile, line = tile.render

theorem Canonical.eq_render (canonical : Canonical line) (reads : Tile.parse line = .ok tile) :
    line = tile.render := by
  obtain ⟨other, rfl⟩ := canonical
  rw [Tile.parse_render] at reads
  cases reads
  rfl

/-- A line comes before another one when lines are sorted in an order. -/
def Order.Leads : Order → Line → Line → Prop
  | .ascending, line, next => Before line next
  | .descending, line, next => Before next line

theorem Order.Leads.asymm {next : Line} (leads : order.Leads line next) : ¬ order.Leads next line := by
  cases order with
  | ascending => exact Before.asymm leads
  | descending => exact Before.asymm leads

theorem Order.Sorted.pairwise_leads (sorted : order.Sorted lines) (distinct : lines.Nodup) :
    lines.Pairwise order.Leads := by
  cases order with
  | ascending => exact List.Pairwise.and sorted distinct
  | descending =>
      exact (List.Pairwise.and sorted distinct).imp fun both => ⟨both.1, Ne.symm both.2⟩

/-- The survivors of distinct canonical lines are in strict order. -/
theorem survivors_pairwise (selection : Selection) (distinct : lines.Nodup)
    (canonical : ∀ line ∈ lines, Canonical line) :
    (selection.survivors lines).Pairwise fun first last =>
      selection.order.Leads first.tile.render last.tile.render := by
  have strict : (selection.order.sort lines).Pairwise selection.order.Leads :=
    (selection.order.sort_sorted lines).pairwise_leads
      ((selection.order.sort_perm lines).nodup_iff.mpr distinct)
  rw [survivors_eq_filterMap, List.pairwise_filterMap]
  refine strict.imp_of_mem fun {line next} mem mem' leads square found square' found' => ?_
  have known (line : Line) (mem : line ∈ selection.order.sort lines) (square : Square)
      (found : selection.survivor? (selection.order.deepest (selection.order.sort lines)) line =
        some square) : line = square.tile.render :=
    (canonical line (Order.mem_sort.mp mem)).eq_render (survivor?_eq_some_iff.mp found).reads
  rwa [known line mem square found, known next mem' square' found'] at leads

theorem nodup_survivors (selection : Selection) (distinct : lines.Nodup)
    (canonical : ∀ line ∈ lines, Canonical line) :
    ((selection.survivors lines).map Square.tile).Nodup := by
  refine List.pairwise_map.mpr ((survivors_pairwise selection distinct canonical).imp ?_)
  intro first last leads same
  rw [same] at leads
  exact leads.asymm leads

/--
Where a column is cut: a row and the next one stay together exactly if their numerals are of one
length and no third row of the column has a numeral that comes between the two.
-/
theorem together_iff_of_canonical (distinct : lines.Nodup)
    (canonical : ∀ line ∈ lines, Canonical line)
    (compacts : Compacts selection.order (selection.survivors lines) pieces) {upper lower : Square}
    (mem : upper ∈ selection.survivors lines) (mem' : lower ∈ selection.survivors lines)
    (zoom : lower.tile.z = upper.tile.z) (column : lower.tile.x = upper.tile.x)
    (row : lower.tile.y.toNat = upper.tile.y.toNat + 1) :
    (∃ piece ∈ pieces, upper ∈ piece ∧ lower ∈ piece) ↔
      (Number.digits upper.tile.y.toNat).length = (Number.digits lower.tile.y.toNat).length ∧
        ∀ inner ∈ selection.survivors lines, inner.tile.z = upper.tile.z →
          inner.tile.x = upper.tile.x →
            ¬ Parts (Number.digits upper.tile.y.toNat) (Number.digits lower.tile.y.toNat)
              (Number.digits inner.tile.y.toNat) := by
  have sorted := survivors_pairwise selection distinct canonical
  have neighbours : (∃ piece ∈ pieces, upper ∈ piece ∧ lower ∈ piece) ↔
      Before upper.tile.render lower.tile.render ∧
        ∀ inner ∈ selection.survivors lines, ¬ (Before upper.tile.render inner.tile.render ∧
          Before inner.tile.render lower.tile.render) := by
    cases direction : selection.order with
    | ascending =>
        rw [direction] at compacts sorted
        have steps : Order.ascending.Steps upper lower := ⟨zoom, column, row⟩
        exact (compacts.together_iff steps).trans
          (neighbours_iff sorted (fun _ _ leads => leads.asymm) mem mem')
    | descending =>
        rw [direction] at compacts sorted
        have steps : Order.descending.Steps lower upper := ⟨zoom.symm, column.symm, row.symm⟩
        simpa only [Order.Leads, and_comm] using (compacts.together_iff steps).trans
          (neighbours_iff sorted (fun _ _ leads => leads.asymm) mem' mem)
  rw [neighbours, before_render_iff zoom column, row,
    before_succession_iff (Number.succession_digits upper.tile.y.toNat)]
  refine and_congr_right fun level => forall₂_congr fun inner among => ?_
  rw [between_render_iff zoom column, row, between_digits_iff level fun c => Number.le_of_mem_digits]
  tauto

/-- No third numeral comes between two of its own length. -/
theorem not_parts_of_length {text next third : Line} (level : third.length = text.length)
    (level' : third.length = next.length) : ¬ Parts text next third := by
  rintro (⟨extends_, other⟩ | ⟨begins, other, -⟩)
  · exact other (extends_.eq_of_length level.symm).symm
  · exact other (begins.eq_of_length level')

/--
The boxes of distinct canonical lines, in either order: there is one for each piece of the
survivors. A row and the next one are in one piece exactly if their numerals are of one length and
no third row of the column comes between them as a text. If all rows of a column have numerals of
one length, its boxes are those of its maximal intervals.
-/
theorem boxes_of_canonical (selection : Selection) (lines : List Line) (distinct : lines.Nodup)
    (canonical : ∀ line ∈ lines, Canonical line) :
    ∃ pieces, Compacts selection.order (selection.survivors lines) pieces ∧
      List.Forall₂ Covers pieces (selection.boxes lines) ∧
      ((selection.survivors lines).map Square.tile).Nodup ∧
      (∀ upper ∈ selection.survivors lines, ∀ lower ∈ selection.survivors lines,
        lower.tile.z = upper.tile.z → lower.tile.x = upper.tile.x →
        lower.tile.y.toNat = upper.tile.y.toNat + 1 →
          ((∃ piece ∈ pieces, upper ∈ piece ∧ lower ∈ piece) ↔
            (Number.digits upper.tile.y.toNat).length =
                (Number.digits lower.tile.y.toNat).length ∧
              ∀ inner ∈ selection.survivors lines, inner.tile.z = upper.tile.z →
                inner.tile.x = upper.tile.x →
                  ¬ Parts (Number.digits upper.tile.y.toNat) (Number.digits lower.tile.y.toNat)
                    (Number.digits inner.tile.y.toNat))) ∧
      ∀ z x, (∃ width, ∀ square ∈ selection.survivors lines, square.tile.z = z →
          square.tile.x = x → (Number.digits square.tile.y.toNat).length = width) →
        ∀ north south,
          (∃ piece ∈ pieces, ∃ southern northern, Spans piece southern northern ∧
            southern.tile = ⟨z, x, south⟩ ∧ northern.tile = ⟨z, x, north⟩) ↔
          MaximalInterval (Occupied (selection.survivors lines) z x) north south := by
  have compacts : Compacts selection.order (selection.survivors lines)
      (selection.order.runs (selection.survivors lines)) := compacts_iff_runs.mpr rfl
  have covered (piece : List Square) (among : piece ∈ selection.order.runs (selection.survivors lines)) :
      ∃ southern northern, Spans piece southern northern ∧
        selection.order.cover? piece = some (boxBetween southern.tile northern.tile) := by
    refine cover?_eq (compacts.nonempty piece among) (compacts.steps piece among) ?_
    intro square inside
    exact own_of_mem_survivors (compacts.whole ▸ List.mem_flatten_of_mem among inside)
  have tiles := nodup_survivors selection distinct canonical
  refine ⟨_, compacts, ?_, tiles, ?_, ?_⟩
  · refine forall₂_covers fun piece among => ?_
    obtain ⟨southern, northern, spans, made⟩ := covered piece among
    exact ⟨_, made, southern, northern, spans, rfl⟩
  · intro upper mem lower mem'
    exact together_iff_of_canonical distinct canonical compacts mem mem'
  · rintro z x ⟨width, level⟩ north south
    refine compacts.spans_iff_maximalInterval (List.Nodup.of_map Square.tile tiles) ?_ ?_
    · intro piece among
      obtain ⟨southern, northern, spans, -⟩ := covered piece among
      exact ⟨southern, northern, spans⟩
    · intro upper mem lower mem' zoom column zoom' column' row
      refine (together_iff_of_canonical distinct canonical compacts mem mem'
        (zoom'.trans zoom.symm) (column'.trans column.symm) row).mpr ?_
      have here := level upper mem zoom column
      have there := level lower mem' zoom' column'
      refine ⟨here.trans there.symm, fun inner among sameZoom sameColumn => ?_⟩
      have between := level inner among (sameZoom.trans zoom) (sameColumn.trans column)
      exact not_parts_of_length (between.trans here.symm) (between.trans there.symm)

/-- The square of a row of a column. -/
def rowSquare (y : UInt32) : Square :=
  ⟨⟨5, 1, y⟩, Tile.box ⟨5, 1, y⟩⟩

/-- Four rows of a column; the text of row 2 comes between those of 19 and 20. -/
def cutRows : List UInt32 :=
  [19, 20, 21, 2]

/-- The lines of the four rows. -/
def cutLines : List Line :=
  cutRows.map fun y => (rowSquare y).tile.render

theorem mem_survivors_cutLines {square : Square} :
    square ∈ Selection.survivors {} cutLines ↔ ∃ y ∈ cutRows, square = rowSquare y := by
  rw [mem_survivors_iff]
  constructor
  · rintro ⟨line, mem, survives⟩
    obtain ⟨y, among, rfl⟩ := List.mem_map.mp mem
    have reads := survives.reads
    have own := survives.own
    rw [Tile.parse_render, Except.ok.injEq] at reads
    refine ⟨y, among, ?_⟩
    obtain ⟨tile, box⟩ := square
    simp only at reads own
    rw [own, ← reads]
    rfl
  · rintro ⟨y, among, rfl⟩
    exact ⟨_, List.mem_map_of_mem among, by simp, by simp, Tile.parse_render _, rfl, by simp⟩

theorem column_cut_at_two : ∃ pieces,
    Compacts .descending (Selection.survivors {} cutLines) pieces ∧
      (¬ ∃ piece ∈ pieces, rowSquare 19 ∈ piece ∧ rowSquare 20 ∈ piece) ∧
      ∃ piece ∈ pieces, rowSquare 20 ∈ piece ∧ rowSquare 21 ∈ piece := by
  obtain ⟨pieces, compacts, -, -, pairs, -⟩ :=
    boxes_of_canonical {} cutLines (by decide) (by simp [cutLines, Canonical])
  have member (y : UInt32) (among : y ∈ cutRows) : rowSquare y ∈ Selection.survivors {} cutLines :=
    mem_survivors_cutLines.mpr ⟨y, among, rfl⟩
  have apart := pairs (rowSquare 19) (member 19 (by decide)) (rowSquare 20) (member 20 (by decide))
    (by decide) (by decide) (by decide)
  have together := pairs (rowSquare 20) (member 20 (by decide)) (rowSquare 21)
    (member 21 (by decide)) (by decide) (by decide) (by decide)
  refine ⟨pieces, compacts, fun one => ?_, together.mpr ⟨by decide, ?_⟩⟩
  · exact (apart.mp one).2 (rowSquare 2) (member 2 (by decide)) (by decide) (by decide) (by decide)
  · rintro inner among - -
    obtain ⟨y, listed, rfl⟩ := mem_survivors_cutLines.mp among
    simp only [cutRows, List.mem_cons, List.not_mem_nil, or_false] at listed
    rcases listed with rfl | rfl | rfl | rfl <;> decide

end MapReplica.Expiry
