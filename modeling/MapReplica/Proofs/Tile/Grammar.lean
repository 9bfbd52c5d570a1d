import MapReplica.Proofs.Expiry.Malformed
import MapReplica.Proofs.Tile.Notation

/-!
# What is read as a tile

A line is read as a tile exactly if it holds, between blanks, three numerals with a slash after
the first and the second. The numerals hold neither blanks nor slashes, so neither trimming nor
cutting at slashes comes into them. The zoom is the first numeral, whatever follows: whether
lines are chosen by the number that they start with, or tiles by their zoom, comes to the same.
-/

namespace MapReplica

namespace Number

variable {text : List Char} {n : Nat} {c : Char}

/-- The characters of a numeral are a plus sign and ASCII digits. -/
theorem Spells.of_mem (spells : Spells text n) (member : c ∈ text) :
    c = '+' ∨ '0'.toNat ≤ c.toNat ∧ c.toNat ≤ '9'.toNat := by
  obtain ⟨run, rfl | rfl, -, ascii, -⟩ := spells
  · exact .inr (Char.isDigit_iff_toNat.mp (ascii c member))
  · rcases List.mem_cons.mp member with rfl | later
    · exact .inl rfl
    · exact .inr (Char.isDigit_iff_toNat.mp (ascii c later))

theorem Spells.noSlash (spells : Spells text n) : '/' ∉ text := by
  intro member
  rcases spells.of_mem member with same | digit
  · cases same
  · exact absurd digit (by decide)

theorem Spells.not_blank (spells : Spells text n) (member : c ∈ text) : Text.isBlank c = false := by
  rcases spells.of_mem member with rfl | ⟨least, most⟩
  · decide
  · exact not_blank_of_code least most

end Number

namespace Tile

open Number (Spells)

variable {line text : List Char} {tile : Tile} {part : Part} {n : UInt32} {z x y : List Char}

/-! ## Components -/

theorem component_eq_ok_iff : component part (some text) = .ok n ↔ Spells text n.toNat := by
  have fits : n.toNat ≤ Number.max32 := Nat.le_pred_of_lt n.toNat_lt
  rw [← and_iff_left fits (a := Spells _ _), ← Number.read_eq_ok_iff, component]
  cases read : Number.read Number.max32 text with
  | error fault => simp
  | ok value =>
      have small : value < 2 ^ 32 := Nat.lt_of_le_pred (by decide) (Number.read_eq_ok_iff.mp read).2
      simp only [Except.ok.injEq, ← UInt32.toNat_inj, UInt32.toNat_ofNat_of_lt' small]

/-- A component that was read is there, and spells the number that was read. -/
theorem exists_component {text? : Option (List Char)} (read : component part text? = .ok n) :
    ∃ text, text? = some text ∧ Spells text n.toNat := by
  cases text? with
  | none => cases read
  | some text => exact ⟨text, rfl, component_eq_ok_iff.mp read⟩

/-! ## Lines -/

/-- A line is read as a tile exactly if it has three pieces, which spell the numbers of the tile. -/
theorem parse_eq_ok_iff_pieces :
    parse line = .ok tile ↔
      ∃ z x y, pieces line = [z, x, y] ∧ Spells z tile.z.toNat ∧ Spells x tile.x.toNat ∧
        Spells y tile.y.toNat := by
  constructor
  · intro read
    simp only [parse] at read
    obtain ⟨zoom, hz, read⟩ := exists_of_bind_ok read
    obtain ⟨column, hx, read⟩ := exists_of_bind_ok read
    obtain ⟨row, hy, read⟩ := exists_of_bind_ok read
    obtain ⟨z, first, spellsZ⟩ := exists_component hz
    obtain ⟨x, second, spellsX⟩ := exists_component hx
    obtain ⟨y, third, spellsY⟩ := exists_component hy
    split at read
    case isTrue => cases read
    case isFalse few =>
      cases read
      refine ⟨z, x, y, ?_, spellsZ, spellsX, spellsY⟩
      rcases found : pieces line with _ | ⟨a, _ | ⟨b, _ | ⟨c, _ | ⟨d, more⟩⟩⟩⟩
      · simp [found] at first
      · simp [found] at second
      · simp [found] at third
      · simp_all
      · simp [found] at few
  · rintro ⟨z, x, y, found, spellsZ, spellsX, spellsY⟩
    simp only [parse, found, List.getElem?_cons_zero, List.getElem?_cons_succ,
      component_eq_ok_iff.mpr spellsZ, component_eq_ok_iff.mpr spellsX,
      component_eq_ok_iff.mpr spellsY]
    rfl

/--
A line notates a tile: blanks around three numerals, with a slash after the first and the second.
The numbers of a tile are below `2 ^ 32`, so no greater ones can be notated.
-/
def Notates (line : List Char) (tile : Tile) : Prop :=
  ∃ front z x y back, line = front ++ (z ++ '/' :: (x ++ '/' :: y)) ++ back ∧
    (∀ c ∈ front, Text.isBlank c = true) ∧ (∀ c ∈ back, Text.isBlank c = true) ∧
      Spells z tile.z.toNat ∧ Spells x tile.x.toNat ∧ Spells y tile.y.toNat

/-- A text has three pieces exactly if it is these with slashes between them. -/
theorem splitOn_eq_three_iff (plainZ : '/' ∉ z) (plainX : '/' ∉ x) (plainY : '/' ∉ y) :
    text.splitOn '/' = [z, x, y] ↔ text = z ++ '/' :: (x ++ '/' :: y) := by
  constructor
  · intro split
    have joined : ['/'].intercalate (text.splitOn '/') = text := List.intercalate_splitOn '/'
    rw [split] at joined
    simpa [List.intercalate] using joined.symm
  · rintro rfl
    simp [List.splitOn_append_cons_self, List.splitOn_eq_singleton, plainZ, plainX, plainY]

theorem parse_eq_ok_iff : parse line = .ok tile ↔ Notates line tile := by
  rw [parse_eq_ok_iff_pieces]
  constructor
  · rintro ⟨z, x, y, split, spellsZ, spellsX, spellsY⟩
    obtain ⟨front, back, whole, blank, blank'⟩ := Text.exists_padding line
    rw [pieces, splitOn_eq_three_iff spellsZ.noSlash spellsX.noSlash spellsY.noSlash] at split
    rw [split] at whole
    exact ⟨front, z, x, y, back, whole, blank, blank', spellsZ, spellsX, spellsY⟩
  · rintro ⟨front, z, x, y, back, rfl, blank, blank', spellsZ, spellsX, spellsY⟩
    have solid : ∀ c ∈ z ++ '/' :: (x ++ '/' :: y), Text.isBlank c = false := by
      intro c member
      simp only [List.mem_append, List.mem_cons] at member
      rcases member with zoom | rfl | column | rfl | row
      · exact spellsZ.not_blank zoom
      · decide
      · exact spellsX.not_blank column
      · decide
      · exact spellsY.not_blank row
    refine ⟨z, x, y, ?_, spellsZ, spellsX, spellsY⟩
    rw [pieces, Text.trim_padded blank solid blank',
      splitOn_eq_three_iff spellsZ.noSlash spellsX.noSlash spellsY.noSlash]

/-! ## Choosing by the zoom -/

/-- The number that a line of a tile starts with is the zoom of the tile. -/
theorem hasZoom_eq (read : parse line = .ok tile) (zoom : UInt32) :
    Expiry.hasZoom zoom line = (tile.z == zoom) := by
  rw [Expiry.hasZoom, Expiry.zoom?_of_parse read]
  rfl

/-- Lines may be chosen by their zoom before they are read, or tiles after that. -/
theorem filterMap_hasZoom (lines : List Expiry.Line) (zoom : UInt32) :
    ((lines.filter (Expiry.hasZoom zoom)).filterMap fun line => (parse line).toOption) =
      (lines.filterMap fun line => (parse line).toOption).filter fun tile => tile.z == zoom := by
  rw [List.filterMap_filter, List.filter_filterMap]
  refine List.filterMap_congr fun line _ => ?_
  cases read : parse line with
  | error fault => simp [Except.toOption]
  | ok tile =>
      rw [hasZoom_eq read]
      simp [Except.toOption, Option.filter]

/--
The notation of tiles: exactly the lines that notate a tile are read as one, and as that one.
A tile is read back from its numerals with slashes between them, whatever blanks stand around.
Whether a line of a tile starts with a zoom tells whether the tile is of this zoom, so that it
makes no difference whether lines are chosen before they are read or tiles after that.
-/
theorem read_exactly_as_notated :
    (∀ line tile, parse line = .ok tile ↔ Notates line tile) ∧
      (∀ tile front back, (∀ c ∈ front, Text.isBlank c = true) →
        (∀ c ∈ back, Text.isBlank c = true) → parse (front ++ tile.render ++ back) = .ok tile) ∧
      (∀ line tile zoom, parse line = .ok tile →
        Expiry.hasZoom zoom line = (tile.z == zoom)) ∧
      ∀ (lines : List Expiry.Line) (zoom : UInt32),
        ((lines.filter (Expiry.hasZoom zoom)).filterMap fun line => (parse line).toOption) =
          (lines.filterMap fun line => (parse line).toOption).filter fun tile => tile.z == zoom :=
  ⟨fun _ _ => parse_eq_ok_iff, fun tile _ _ blank blank' => parse_padded blank blank' tile,
    fun _ _ zoom read => hasZoom_eq read zoom, filterMap_hasZoom⟩

/-- A line with a sign, zeros in front, the greatest number and an ideographic space. -/
def farLine : List Char :=
  " +007/0/4294967295\u3000".toList

theorem farLine_read :
    parse farLine = .ok ⟨7, 0, 4294967295⟩ ∧
      parse ([' '] ++ render ⟨7, 0, 4294967295⟩ ++ ['\t']) = .ok ⟨7, 0, 4294967295⟩ ∧
      Expiry.hasZoom 7 farLine = true ∧ Expiry.hasZoom 0 farLine = false := by
  have space : ∀ c ∈ [' '], Text.isBlank c = true := List.forall_mem_singleton.mpr (by decide)
  have wide : ∀ c ∈ ['\u3000'], Text.isBlank c = true := List.forall_mem_singleton.mpr (by decide)
  have tab : ∀ c ∈ ['\t'], Text.isBlank c = true := List.forall_mem_singleton.mpr (by decide)
  have notates : Notates farLine ⟨7, 0, 4294967295⟩ := by
    refine ⟨[' '], "+007".toList, "0".toList, "4294967295".toList, ['\u3000'], by decide, space,
      wide, ?_, ?_, ?_⟩
    · exact ⟨"007".toList, .inr (by decide), by decide, by simp, by decide⟩
    · exact ⟨"0".toList, .inl rfl, by decide, by simp, by decide⟩
    · exact ⟨"4294967295".toList, .inl rfl, by decide, by simp, by decide⟩
  obtain ⟨exact_, padded, zoom, -⟩ := read_exactly_as_notated
  have read := (exact_ farLine ⟨7, 0, 4294967295⟩).mpr notates
  exact ⟨read, padded _ _ _ space tab, zoom _ _ 7 read, zoom _ _ 0 read⟩

end Tile

end MapReplica
