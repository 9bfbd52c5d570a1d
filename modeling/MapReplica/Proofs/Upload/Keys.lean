import MapReplica.Progress.Basic
import MapReplica.Proofs.Update.Artifacts

/-!
# Keys in the object store

A list of expired tiles never lies where the progress text of a project lies, because
the ends of their keys differ. Its key tells its project, its entity and its number. The
progress texts of different projects lie apart.
-/

namespace MapReplica.Upload

theorem keyOf_ne_progress (project entity other : String) (sequence : Nat) :
    keyOf project entity sequence ≠ Progress.keyOf other := by
  intro same
  have ends := congrArg (fun key => key.toList.reverse.take 2) same
  simp only [keyOf, Progress.keyOf, String.toList_append, List.reverse_append,
    List.append_assoc] at ends
  rw [List.take_append_of_le_length (by decide), List.take_append_of_le_length (by decide)] at ends
  exact absurd ends (by decide)

variable {project project' entity entity' : String} {first second : Nat}

theorem toList_keyOf : (keyOf project entity first).toList =
    ((project.toList ++ '/' :: entity.toList) ++ '/' :: (Number.numeral first).toList) ++
      '/' :: listName.toList := by
  simp [keyOf]

/-- The key of a list tells its project, its entity and its number. -/
theorem keyOf_injective (flat : '/' ∉ entity.toList) (flat' : '/' ∉ entity'.toList)
    (same : keyOf project entity first = keyOf project' entity' second) :
    project = project' ∧ entity = entity' ∧ first = second := by
  have texts := congrArg String.toList same
  rw [toList_keyOf, toList_keyOf] at texts
  obtain ⟨fronts, numerals⟩ := Update.eq_of_last_mark Update.noSlash_numeral
    Update.noSlash_numeral (List.append_cancel_right texts)
  obtain ⟨projects, entities⟩ := Update.eq_of_last_mark flat flat' fronts
  exact ⟨String.toList_injective projects, String.toList_injective entities,
    Number.numeral_injective (String.toList_injective numerals)⟩

end MapReplica.Upload

namespace MapReplica.Progress

theorem keyOf_injective {project other : String} (same : keyOf project = keyOf other) :
    project = other := by
  have texts := congrArg String.toList same
  simp only [keyOf, String.toList_append, List.append_assoc] at texts
  exact String.toList_injective (List.append_cancel_right texts)

end MapReplica.Progress
