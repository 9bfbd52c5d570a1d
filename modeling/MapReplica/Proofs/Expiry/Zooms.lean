import MapReplica.Proofs.Expiry.Columns
import MapReplica.Proofs.Tile.Grammar
import Mathlib.Data.Finset.Max
import Mathlib.Data.Set.List

/-!
# The zoom that is kept

The slash stands before all digits. So two lines compare as the numerals of their zooms as long
as these differ, whatever follows them, and the greatest line is of the zoom whose numeral comes
last as a text. The tiles of this zoom are kept, in either order of the lines.

Numerals of one length compare as their numbers do, and then the zoom that is kept is the deepest
one. Otherwise a zoom of fewer digits may come last: of 9 and 10, zoom 9 is kept.
-/

namespace MapReplica.Expiry

open Number (digits)

variable {text other rest later third : Line} {m n : Nat} {selection : Selection}
  {tiles : List Tile} {tile : Tile} {zoom : UInt32} {lines : List Line}

/-! ## Texts that end at a slash -/

/-- What follows a slash never turns the order of the texts in front of it around. -/
theorem precedes_of_slash (above : ∀ c ∈ text, '/'.toNat < c.toNat)
    (above' : ∀ c ∈ other, '/'.toNat < c.toNat)
    (before : Precedes (text ++ '/' :: rest) (other ++ '/' :: later)) : Precedes text other := by
  induction text generalizing other with
  | nil => exact precedes_nil other
  | cons c text ih =>
      have greater := above c List.mem_cons_self
      cases other with
      | nil =>
          -- The other text has ended, so its slash is compared with a digit.
          simp only [List.cons_append, List.nil_append, precedes_cons_iff] at before
          rcases before with less | ⟨rfl, -⟩
          · omega
          · omega
      | cons d other =>
          simp only [List.cons_append, precedes_cons_iff] at before ⊢
          refine before.imp_right fun ⟨same, before⟩ => ⟨same, ?_⟩
          exact ih (fun c member => above c (List.mem_cons_of_mem _ member))
            (fun c member => above' c (List.mem_cons_of_mem _ member)) before

/-- The zooms of two lines stand in the order of the lines. -/
theorem precedes_zoom_of_render {below : Tile} (before : Precedes tile.render below.render) :
    Precedes (digits tile.z.toNat) (digits below.z.toNat) := by
  have above {n : Nat} (c : Char) (member : c ∈ digits n) : '/'.toNat < c.toNat :=
    (Number.le_of_mem_digits member).1
  exact precedes_of_slash above above before

/-! ## Numerals of one length -/

theorem Before.trans (before : Before text other) (next : Before other third) :
    Before text third := by
  refine ⟨before.1.trans next.1, ?_⟩
  rintro rfl
  exact before.2 (before.1.antisymm next.1)

theorem length_digits_mono (less : m ≤ n) : (digits m).length ≤ (digits n).length := by
  induction n, less using Nat.le_induction with
  | base => exact Nat.le_refl _
  | succ n _ ih =>
      refine ih.trans ?_
      have succession := Number.succession_digits n
      generalize digits n = text, digits (n + 1) = next at succession
      cases succession with
      | carried front small nines => simp
      | lengthened nines => simp

theorem before_digits_of_lt (less : m < n) (level : (digits m).length = (digits n).length) :
    Before (digits m) (digits n) := by
  induction n, less using Nat.le_induction with
  | base => exact (before_succession_iff (Number.succession_digits m)).mpr level
  | succ n more ih =>
      -- The numerals in between have the same length.
      have low := length_digits_mono (Nat.le_of_succ_le more)
      have high := length_digits_mono (Nat.le_add_right n 1)
      have level' : (digits m).length = (digits n).length := by omega
      have next : Before (digits n) (digits (n + 1)) :=
        (before_succession_iff (Number.succession_digits n)).mpr (level'.symm.trans level)
      exact (ih level').trans next

/-- Numerals of one length compare as their numbers do. -/
theorem precedes_digits_iff (level : (digits m).length = (digits n).length) :
    Precedes (digits m) (digits n) ↔ m ≤ n := by
  constructor
  · intro before
    by_contra more
    have after := before_digits_of_lt (Nat.lt_of_not_le more) level.symm
    exact after.2 (after.1.antisymm before)
  · intro less
    rcases Nat.lt_or_eq_of_le less with less | rfl
    · exact (before_digits_of_lt less level).1
    · exact .inl rfl

/-! ## The greatest zoom -/

/-- The zoom of a tile whose numeral comes last, as a text, among those of the zooms of tiles. -/
structure LastZoom (tiles : List Tile) (zoom : UInt32) : Prop where
  occurs : ∃ tile ∈ tiles, tile.z = zoom
  last : ∀ tile ∈ tiles, Precedes (digits tile.z.toNat) (digits zoom.toNat)

theorem zoom?_render (tile : Tile) : zoom? tile.render = some tile.z :=
  zoom?_of_parse (Tile.parse_render tile)

/-- The zoom of the greatest line comes last. -/
theorem lastZoom_deepest (selection : Selection) (nonempty : tiles ≠ []) :
    LastZoom tiles (selection.deepest (tiles.map Tile.render)) := by
  rcases selection.order.deepestZoom (tiles.map Tile.render) with ⟨nothing, -⟩ | found
  · exact (nonempty (List.map_eq_nil_iff.mp nothing)).elim
  · obtain ⟨greatest, ⟨member, last⟩, zoom⟩ := found
    obtain ⟨tile, among, rfl⟩ := List.mem_map.mp member
    rw [zoom?_render, Option.getD_some] at zoom
    rw [Selection.deepest, zoom]
    exact ⟨⟨tile, among, rfl⟩, fun other member =>
      precedes_zoom_of_render (last _ (List.mem_map_of_mem member))⟩

/-- The zoom that comes last is the deepest one if all numerals have one length. -/
theorem LastZoom.deepest_of_level {width : Nat} (greatest : LastZoom tiles zoom)
    (level : ∀ tile ∈ tiles, (digits tile.z.toNat).length = width) (member : tile ∈ tiles) :
    tile.z ≤ zoom := by
  obtain ⟨own, among, rfl⟩ := greatest.occurs
  rw [UInt32.le_iff_toNat_le]
  exact (precedes_digits_iff ((level tile member).trans (level own among).symm)).mp
    (greatest.last tile member)

/-- The zoom that comes last is the deepest one exactly if no numeral comes behind the deepest one's. -/
theorem LastZoom.deepest_iff (greatest : LastZoom tiles zoom) :
    (∀ tile ∈ tiles, tile.z ≤ zoom) ↔
      ∀ deepest ∈ tiles, (∀ tile ∈ tiles, tile.z ≤ deepest.z) →
        ∀ tile ∈ tiles, ¬ Before (digits deepest.z.toNat) (digits tile.z.toNat) := by
  obtain ⟨own, among, rfl⟩ := greatest.occurs
  constructor
  · intro most deepest member deep tile member' behind
    have same : deepest.z = own.z := UInt32.le_antisymm (most deepest member) (deep own among)
    rw [same] at behind
    exact behind.2 (behind.1.antisymm (greatest.last tile member'))
  · intro none
    obtain ⟨deepest, member, deep⟩ := tiles.toFinset.exists_max_image (fun tile => tile.z.toNat)
      ⟨own, List.mem_toFinset.mpr among⟩
    have deep' (tile : Tile) (member : tile ∈ tiles) : tile.z ≤ deepest.z :=
      UInt32.le_iff_toNat_le.mpr (deep tile (List.mem_toFinset.mpr member))
    have among' : deepest ∈ tiles := List.mem_toFinset.mp member
    have same : deepest.z.toNat = own.z.toNat := by
      by_contra other
      refine none deepest among' deep' own among ⟨greatest.last deepest among', fun numerals => ?_⟩
      exact other (Number.digits_injective numerals)
    rw [← UInt32.toNat_inj.mp same]
    exact deep'

/-! ## The tiles that survive -/

theorem survivor?_render (deepest : selection.deepestOnly = true)
    (free : selection.lineFilters = []) (zoom : UInt32) (tile : Tile) :
    (selection.survivor? zoom tile.render).map Square.tile =
      Option.guard
        (fun tile => tile.z == zoom && selection.boxFilters.all fun condition => condition tile.box)
        tile := by
  have square : square? tile.render = some ⟨tile, tile.box⟩ :=
    square?_eq_some_iff.mpr ⟨Tile.parse_render tile, rfl⟩
  rw [Selection.survivor?, free, deepest, square, Tile.hasZoom_eq (Tile.parse_render tile)]
  cases own : tile.z == zoom with
  | false => simp [Option.guard, own]
  | true =>
      cases admitted : selection.boxFilters.all fun condition => condition tile.box with
      | false => simp [Option.guard, own, admitted, Option.filter]
      | true => simp [Option.guard, own, admitted, Option.filter]

/-- The tiles that survive are those of the zoom of the greatest line whose squares are admitted. -/
theorem survivors_perm (deepest : selection.deepestOnly = true) (free : selection.lineFilters = [])
    (tiles : List Tile) :
    ((selection.survivors (tiles.map Tile.render)).map Square.tile).Perm
      (tiles.filter fun tile => tile.z == selection.deepest (tiles.map Tile.render) &&
        selection.boxFilters.all fun condition => condition tile.box) := by
  have sorted := selection.order.sort_perm (tiles.map Tile.render)
  rw [survivors_eq_filterMap, ← Selection.deepest]
  refine ((sorted.filterMap _).map Square.tile).trans ?_
  rw [List.filterMap_map, List.map_filterMap, ← List.filterMap_eq_filter]
  simp only [Function.comp_apply, survivor?_render deepest free, List.Perm.refl]

/--
Of canonical lines, in either order, the tiles are kept that are of the zoom whose numeral comes
last as a text and whose squares are admitted. This is the deepest zoom if all numerals of zooms
have one length, and in general exactly if none comes behind the numeral of the deepest one.
-/
theorem kept_zoom_of_canonical (selection : Selection) (lines : List Line) (nonempty : lines ≠ [])
    (canonical : ∀ line ∈ lines, Canonical line) (wanted : selection.deepestOnly = true)
    (free : selection.lineFilters = []) :
    ∃ tiles zoom, lines = tiles.map Tile.render ∧ LastZoom tiles zoom ∧
      ((selection.survivors lines).map Square.tile).Perm
        (tiles.filter fun tile => tile.z == zoom &&
          selection.boxFilters.all fun condition => condition tile.box) ∧
      ((∃ width, ∀ tile ∈ tiles, (digits tile.z.toNat).length = width) →
        ∀ tile ∈ tiles, tile.z ≤ zoom) ∧
      ((∀ tile ∈ tiles, tile.z ≤ zoom) ↔
        ∀ deepest ∈ tiles, (∀ tile ∈ tiles, tile.z ≤ deepest.z) →
          ∀ tile ∈ tiles, ¬ Before (digits deepest.z.toNat) (digits tile.z.toNat)) := by
  have written : lines ∈ Set.range (List.map Tile.render) := by
    rw [Set.range_list_map]
    exact fun line member => (canonical line member).imp fun _ => Eq.symm
  obtain ⟨tiles, rfl⟩ := written
  have greatest := lastZoom_deepest selection fun nothing => nonempty (List.map_eq_nil_iff.mpr nothing)
  refine ⟨tiles, _, rfl, greatest, survivors_perm wanted free tiles, ?_, greatest.deepest_iff⟩
  rintro ⟨width, level⟩ tile
  exact greatest.deepest_of_level level

/-- Tiles of the zooms 10 and 9. -/
def mixedTiles : List Tile :=
  [⟨10, 0, 0⟩, ⟨10, 0, 1⟩, ⟨9, 0, 0⟩]

/-- In both orders zoom 9 is kept, which comes last as a text, and not zoom 10. -/
theorem mixedTiles_keep_nine :
    ((Selection.mk .ascending true [] []).survivors (mixedTiles.map Tile.render)).map Square.tile =
        [⟨9, 0, 0⟩] ∧
      ((Selection.mk .descending true [] []).survivors (mixedTiles.map Tile.render)).map
        Square.tile = [⟨9, 0, 0⟩] := by
  have kept (order : Order) :
      ((Selection.mk order true [] []).survivors (mixedTiles.map Tile.render)).map Square.tile =
        [⟨9, 0, 0⟩] := by
    obtain ⟨tiles, zoom, written, greatest, kept, -, -⟩ := kept_zoom_of_canonical
      (Selection.mk order true [] []) (mixedTiles.map Tile.render) (by decide)
      (by simp [mixedTiles, Canonical]) rfl rfl
    obtain rfl : mixedTiles = tiles :=
      List.map_injective_iff.mpr (fun _ _ => Tile.render_injective) written
    obtain ⟨tile, among, rfl⟩ := greatest.occurs
    have nine : tile.z = 9 := by
      have last := greatest.last ⟨9, 0, 0⟩ (by decide)
      simp only [mixedTiles, List.mem_cons, List.not_mem_nil, or_false] at among
      rcases among with rfl | rfl | rfl
      · exact absurd last (by decide)
      · exact absurd last (by decide)
      · rfl
    rw [nine] at kept
    exact List.perm_singleton.mp kept
  exact ⟨kept .ascending, kept .descending⟩

end MapReplica.Expiry
