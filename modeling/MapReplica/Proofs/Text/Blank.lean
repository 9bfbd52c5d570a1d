import MapReplica.Text.Blank
import Mathlib.Data.List.TakeWhile

/-!
# Trimming

Trimming takes away the blanks at both ends of a text and nothing else, so a text of blanks
only is trimmed to nothing.
-/

namespace MapReplica.Text

variable {text : List Char}

/-- A text has no blank at either end. -/
structure Bare (text : List Char) : Prop where
  first : ∀ c, text.head? = some c → isBlank c = false
  last : ∀ c, text.getLast? = some c → isBlank c = false

theorem Bare.reverse (bare : Bare text) : Bare text.reverse where
  first c h := bare.last c (by rwa [List.head?_reverse] at h)
  last c h := bare.first c (by rwa [List.getLast?_reverse] at h)

theorem bare_of_solid (solid : ∀ c ∈ text, isBlank c = false) : Bare text where
  first c h := solid c (List.mem_of_head? h)
  last c h := solid c (List.mem_of_getLast? h)

/-- Trimming takes away the blanks around a text without blanks at its ends, and nothing else. -/
theorem trim_padded_bare {front back : List Char} (blank : ∀ c ∈ front, isBlank c = true)
    (bare : Bare text) (blank' : ∀ c ∈ back, isBlank c = true) :
    trim (front ++ text ++ back) = text := by
  have kept {shown : List Char} (bare : Bare shown) (later : List Char) (nonempty : shown ≠ []) :
      (shown ++ later).dropWhile isBlank = shown ++ later := by
    obtain ⟨c, rest, rfl⟩ := List.exists_cons_of_ne_nil nonempty
    rw [List.cons_append, List.dropWhile_cons_of_neg (by simp [bare.first c rfl])]
  rw [trim, trimStart, List.append_assoc, List.dropWhile_append_of_pos blank, trimEnd]
  by_cases nonempty : text = []
  · rw [nonempty, List.nil_append, List.dropWhile_eq_nil_iff.mpr blank']
    rfl
  · rw [kept bare back nonempty, List.reverse_append,
      List.dropWhile_append_of_pos (by simpa using blank')]
    have turned := kept bare.reverse [] (by simpa using nonempty)
    rw [List.append_nil] at turned
    rw [turned, List.reverse_reverse]

/-- Blanks around a text without blanks are taken away. -/
theorem trim_padded {front back : List Char} (blank : ∀ c ∈ front, isBlank c = true)
    (solid : ∀ c ∈ text, isBlank c = false) (blank' : ∀ c ∈ back, isBlank c = true) :
    trim (front ++ text ++ back) = text :=
  trim_padded_bare blank (bare_of_solid solid) blank'

theorem not_blank_of_dropWhile (text : List Char) {c : Char}
    (first : (text.dropWhile isBlank).head? = some c) : isBlank c = false := by
  have solid := List.head?_dropWhile_not isBlank text
  rw [first] at solid
  exact solid

/-- What is trimmed has no blank at either end. -/
theorem bare_trim (text : List Char) : Bare (trim text) where
  first c h := by
    -- The end is cut off behind the first character, if one is left.
    have front : trim text <+: trimStart text := by
      rw [← List.reverse_suffix, trim, trimEnd, List.reverse_reverse]
      exact List.dropWhile_suffix isBlank
    obtain ⟨cut, whole⟩ := front
    refine not_blank_of_dropWhile text ?_
    rw [← trimStart, ← whole, List.head?_append, h, Option.some_or]
  last c h := by
    refine not_blank_of_dropWhile (trimStart text).reverse ?_
    rwa [trim, trimEnd, List.getLast?_reverse] at h

/-- Trimming takes away blanks only. -/
theorem exists_padding (text : List Char) :
    ∃ front back, text = front ++ trim text ++ back ∧ (∀ c ∈ front, isBlank c = true) ∧
      ∀ c ∈ back, isBlank c = true := by
  have ends (text : List Char) : text = trimEnd text ++ (text.reverse.takeWhile isBlank).reverse := by
    rw [trimEnd, ← List.reverse_append, List.takeWhile_append_dropWhile, List.reverse_reverse]
  refine ⟨text.takeWhile isBlank, ((trimStart text).reverse.takeWhile isBlank).reverse, ?_, ?_, ?_⟩
  · calc text
      _ = text.takeWhile isBlank ++ trimStart text := List.takeWhile_append_dropWhile.symm
      _ = text.takeWhile isBlank ++
            (trim text ++ ((trimStart text).reverse.takeWhile isBlank).reverse) := by
          rw [trim, ← ends]
      _ = _ := (List.append_assoc ..).symm
  · exact fun c member => List.mem_takeWhile_imp member
  · exact fun c member => List.mem_takeWhile_imp (List.mem_reverse.mp member)

/-- Nothing is left exactly of blanks only. -/
theorem trim_eq_nil_iff : trim text = [] ↔ ∀ c ∈ text, isBlank c = true := by
  constructor
  · intro nothing
    obtain ⟨front, back, whole, blank, blank'⟩ := exists_padding text
    rw [nothing, List.append_nil] at whole
    intro c member
    rw [whole] at member
    exact (List.mem_append.mp member).elim (blank c) (blank' c)
  · intro blank
    have padded : trim (text ++ [] ++ []) = [] := trim_padded blank (by simp) (by simp)
    simpa using padded

/-- A text with blanks around it. -/
def Padded (raw text : List Char) : Prop :=
  ∃ front back, raw = front ++ text ++ back ∧ (∀ c ∈ front, isBlank c = true) ∧
    ∀ c ∈ back, isBlank c = true

/-- A text is what is left of another one without the blanks at its ends. -/
def Trims (raw text : List Char) : Prop :=
  Padded raw text ∧ Bare text

theorem trims_iff {raw : List Char} : Trims raw text ↔ trim raw = text := by
  constructor
  · rintro ⟨⟨front, back, rfl, blank, blank'⟩, bare⟩
    exact trim_padded_bare blank bare blank'
  · rintro rfl
    exact ⟨exists_padding raw, bare_trim raw⟩

/-- Blanks that are put around a text are trimmed with those at its ends. -/
theorem trim_eq_of_padded {raw : List Char} (padded : Padded raw text) : trim raw = trim text := by
  obtain ⟨front, back, rfl, blank, blank'⟩ := padded
  obtain ⟨front', back', whole, inner, inner'⟩ := exists_padding text
  have outer : front ++ text ++ back = front ++ front' ++ trim text ++ (back' ++ back) :=
    calc front ++ text ++ back
      _ = front ++ (front' ++ trim text ++ back') ++ back := by rw [← whole]
      _ = _ := by simp only [List.append_assoc]
  rw [outer]
  refine trim_padded_bare ?_ (bare_trim text) ?_
  · exact List.forall_mem_append.mpr ⟨blank, inner⟩
  · exact List.forall_mem_append.mpr ⟨inner', blank'⟩

end MapReplica.Text
