import MapReplica.Feed
import MapReplica.Proofs.Progress.Marker
import MapReplica.Proofs.Text.Utf8

/-!
# The text of a feed

A feed says how far it is by a text that lies apart from all of its diffs.
-/

namespace MapReplica

namespace Feed

/-- A text that says how far a feed is. -/
def stateText (reached : Nat) : List Char :=
  Marker.withNumber "sequenceNumber=0".toList reached

theorem stateText_eq {reached : Nat} :
    stateText reached = Marker.name ++ Number.digits reached := by
  have found : Marker.find? "sequenceNumber=0".toList = some ⟨Marker.name, ['0'], []⟩ := by decide
  rw [stateText, Marker.withNumber, found]
  exact List.append_nil _

theorem read?_stateText {reached : Nat} (fits : reached ≤ Number.maxSigned64) :
    Marker.read? (stateText reached) = some reached := by
  have zero : Marker.read? "sequenceNumber=0".toList = some 0 := by decide
  exact Marker.read?_withNumber zero fits

/-- The text of a feed is read as it was written. -/
theorem textOf_stateText {reached : Nat} :
    textOf (Utf8.encodeChars (stateText reached)) = stateText reached := by
  have decoded : Utf8.decodeLossy (Utf8.encodeChars (stateText reached)) = stateText reached := by
    rw [Utf8.decodeLossy, Utf8.places_encodeChars, List.map_map]
    exact List.map_id _
  have front : stateText reached = 's' :: ("equenceNumber=".toList ++ Number.digits reached) :=
    stateText_eq
  have letter : ¬ 's'.toNat = 0xFEFF := by decide
  rw [textOf, decoded, front]
  exact if_neg letter

end Feed

namespace Diff

theorem getLast?_dropWhile {last other : Char} (different : (last == other) = false)
    (front : List Char) : ((front ++ [last]).dropWhile (· == other)).getLast? = some last := by
  rw [List.dropWhile_append]
  split
  case isTrue => simp [different]
  case isFalse => exact List.getLast?_concat

/-- No diff lies where the text of a feed lies. -/
theorem joinUrl_path_ne_state {feed : String} {number : Nat} :
    joinUrl feed (path number) ≠ joinUrl feed Feed.stateFile := by
  intro same
  have backs := List.append_cancel_left (String.ofList_injective same)
  obtain ⟨front, ends⟩ : ∃ front, (path number).toList = front ++ ['z'] := by
    refine ⟨((levels number).1 ++ "/" ++ (levels number).2.1 ++ "/" ++ (levels number).2.2 ++ "." ++
      "osc.g").toList, ?_⟩
    simp [path, extension, String.toList_append]
  have last := getLast?_dropWhile (show ('z' == '/') = false by decide) front
  rw [← ends, (List.cons.inj backs).2] at last
  revert last
  decide

end Diff

end MapReplica
