import MapReplica.Expiry.Lines
import MapReplica.Proofs.Expiry.Order

/-!
# The lines that count

Each line of a text counts once. So the lines that count are settled by the set of
trimmed lines up to their order, and sorting settles the order.
-/

namespace MapReplica.Expiry

section Firsts

variable {α : Type} [DecidableEq α] {seen items : List α} {item : α}

@[simp]
theorem mem_firsts : item ∈ firsts seen items ↔ item ∈ items ∧ item ∉ seen := by
  induction items generalizing seen with
  | nil => simp [firsts]
  | cons first rest ih =>
      rw [firsts]
      split
      case isTrue old =>
        rw [ih]
        constructor
        · rintro ⟨member, new⟩
          exact ⟨List.mem_cons_of_mem first member, new⟩
        · rintro ⟨member, new⟩
          rcases List.mem_cons.mp member with rfl | member
          · exact (new old).elim
          · exact ⟨member, new⟩
      case isFalse new =>
        rw [List.mem_cons, ih, List.mem_cons, List.mem_cons]
        constructor
        · rintro (rfl | ⟨member, other⟩)
          · exact ⟨.inl rfl, new⟩
          · exact ⟨.inr member, fun old => other (.inr old)⟩
        · rintro ⟨rfl | member, unseen⟩
          · exact .inl rfl
          · by_cases same : item = first
            · exact .inl same
            · exact .inr ⟨member, not_or.mpr ⟨same, unseen⟩⟩

theorem nodup_firsts : (firsts seen items).Nodup := by
  induction items generalizing seen with
  | nil => exact List.nodup_nil
  | cons first rest ih =>
      rw [firsts]
      split
      case isTrue => exact ih
      case isFalse => exact List.nodup_cons.mpr ⟨by simp, ih⟩

end Firsts

/-- A line counts in a text: it is not blank, and some line of the text is this one once trimmed. -/
def Counts (text : List Char) (line : Line) : Prop :=
  line ≠ [] ∧ ∃ raw ∈ Text.lines text, Text.trim raw = line

variable {text other : List Char} {line : Line} {selection : Selection} {lines given : List Line}

theorem mem_uniqueLines : line ∈ uniqueLines text ↔ Counts text line := by
  simp [uniqueLines, Counts, and_comm]

/-- Texts in which the same lines count have the same lines, in some order. -/
theorem uniqueLines_perm (same : ∀ line, Counts text line ↔ Counts other line) :
    (uniqueLines text).Perm (uniqueLines other) := by
  refine (List.perm_ext_iff_of_nodup nodup_firsts nodup_firsts).mpr fun line => ?_
  rw [← uniqueLines, ← uniqueLines, mem_uniqueLines, mem_uniqueLines]
  exact same line

theorem survivors_congr (same : lines.Perm given) :
    selection.survivors lines = selection.survivors given := by
  rw [Selection.survivors, Selection.survivors, selection.order.sort_congr same]

/-- The order of the lines does not matter. -/
theorem boxes_congr (same : lines.Perm given) : selection.boxes lines = selection.boxes given := by
  rw [Selection.boxes, Selection.boxes, survivors_congr same]

theorem boxes_nil : selection.boxes [] = [] := by
  have sorted : selection.order.sort [] = [] := (selection.order.sort_perm []).eq_nil
  have nothing : selection.survivors [] = [] := by simp [Selection.survivors, sorted]
  rw [Selection.boxes, nothing]
  rfl

end MapReplica.Expiry
