import MapReplica.Proofs.Number.Numeral
import MapReplica.Proofs.Text.Blank
import MapReplica.Tile

/-!
# The notation of tiles

A tile is read back from its notation, also with blanks around it. The numerals hold no
slash, so the parts between the slashes are the three numerals again.
-/

namespace MapReplica

namespace Number

variable {n : Nat} {c : Char}

theorem le_of_mem_digits (member : c ∈ digits n) : '0'.toNat ≤ c.toNat ∧ c.toNat ≤ '9'.toNat :=
  Char.isDigit_iff_toNat.mp (Nat.isDigit_of_mem_toDigits (by decide) (by decide) member)

/-- No ASCII digit is blank. -/
theorem not_blank_of_code (least : '0'.toNat ≤ c.toNat) (most : c.toNat ≤ '9'.toNat) :
    Text.isBlank c = false := by
  simp only [Char.reduceToNat] at least most
  simp only [Text.isBlank, Bool.or_eq_false_iff, Bool.and_eq_false_iff, decide_eq_false_iff_not,
    beq_eq_false_iff_ne]
  omega

theorem not_blank_of_mem_digits (member : c ∈ digits n) : Text.isBlank c = false :=
  not_blank_of_code (le_of_mem_digits member).1 (le_of_mem_digits member).2

@[simp]
theorem splitOn_digits (n : Nat) : (digits n).splitOn '/' = [digits n] :=
  List.splitOn_eq_singleton (not_mem_digits (by decide))

end Number

namespace Tile

variable {tile other : Tile} {front back : List Char}

/-- The parts of a notation between its slashes are the three numerals. -/
theorem splitOn_render (tile : Tile) : tile.render.splitOn '/' =
    [Number.digits tile.z.toNat, Number.digits tile.x.toNat, Number.digits tile.y.toNat] := by
  simp [render, List.splitOn_append_cons_self]

theorem not_blank_of_mem_render {c : Char} (member : c ∈ tile.render) : Text.isBlank c = false := by
  simp only [render, List.mem_append, List.mem_cons] at member
  rcases member with zoom | rfl | column | rfl | row
  · exact Number.not_blank_of_mem_digits zoom
  · decide
  · exact Number.not_blank_of_mem_digits column
  · decide
  · exact Number.not_blank_of_mem_digits row

theorem component_digits (part : Part) (n : UInt32) :
    component part (some (Number.digits n.toNat)) = .ok n := by
  have fits : n.toNat ≤ Number.max32 := Nat.le_pred_of_lt n.toNat_lt
  simp [component, Number.read_digits fits]

/-- The notation of a tile is read back, whatever blanks stand around it. -/
theorem parse_padded (blank : ∀ c ∈ front, Text.isBlank c = true)
    (blank' : ∀ c ∈ back, Text.isBlank c = true) (tile : Tile) :
    parse (front ++ tile.render ++ back) = .ok tile := by
  have parts : pieces (front ++ tile.render ++ back) =
      [Number.digits tile.z.toNat, Number.digits tile.x.toNat, Number.digits tile.y.toNat] := by
    rw [pieces, Text.trim_padded blank (fun c => not_blank_of_mem_render) blank', splitOn_render]
  simp only [parse, parts, List.getElem?_cons_zero, List.getElem?_cons_succ, component_digits]
  rfl

theorem parse_render (tile : Tile) : parse tile.render = .ok tile := by
  have none (c : Char) (mem : c ∈ []) : Text.isBlank c = true := (List.not_mem_nil mem).elim
  have padded : parse ([] ++ tile.render ++ []) = .ok tile := parse_padded none none tile
  rwa [List.nil_append, List.append_nil] at padded

theorem render_injective (same : tile.render = other.render) : tile = other := by
  have read := parse_render tile
  rw [same, parse_render] at read
  cases read
  rfl

end Tile

end MapReplica
