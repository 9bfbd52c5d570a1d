import Mathlib.Data.List.Forall2
import MapReplica.Proofs.Expiry.Lines
import MapReplica.Proofs.Text.Blank
import MapReplica.Proofs.Text.Lines

/-!
# Each line once

The lines that count in a text are its lines without the blanks at their ends, as far as
anything is left of them, each once and in the order in which they come first. Since a carriage
return is a blank, they are settled by the line feeds alone. So a text counts as its parts
between line feeds do, one after the other: the lines that count, with line feeds between them,
count as they are, and lines that count already can be added as often as one likes.
-/

namespace MapReplica.Expiry

/-! ## First occurrences -/

section Firsts

variable {α : Type} [DecidableEq α] {seen items further result : List α} {item : α}

/-- The members of a list, each once, in the order in which they come first. -/
structure FirstOccurrences (items result : List α) : Prop where
  once : result.Nodup
  same : ∀ item, item ∈ result ↔ item ∈ items
  order : result.Pairwise fun earlier later => items.idxOf earlier < items.idxOf later

theorem pairwise_firsts :
    (firsts seen items).Pairwise fun earlier later => items.idxOf earlier < items.idxOf later := by
  induction items generalizing seen with
  | nil => exact .nil
  | cons first rest ih =>
      -- Behind the first member the places are those in the rest, each one further.
      have behind {seen : List α} (among : first ∈ seen) :
          (firsts seen rest).Pairwise fun earlier later =>
            (first :: rest).idxOf earlier < (first :: rest).idxOf later := by
        refine List.Pairwise.imp_of_mem ?_ ih
        intro earlier later mem mem' before
        have other : first ≠ earlier := fun same => (mem_firsts.mp mem).2 (same ▸ among)
        have other' : first ≠ later := fun same => (mem_firsts.mp mem').2 (same ▸ among)
        rw [List.idxOf_cons_ne _ other, List.idxOf_cons_ne _ other']
        exact Nat.succ_lt_succ before
      rw [firsts]
      split
      case isTrue old => exact behind old
      case isFalse =>
        refine List.pairwise_cons.mpr ⟨fun later mem => ?_, behind List.mem_cons_self⟩
        have other : first ≠ later := fun same => (mem_firsts.mp mem).2 (same ▸ List.mem_cons_self)
        rw [List.idxOf_cons_self, List.idxOf_cons_ne _ other]
        exact Nat.succ_pos _

theorem firstOccurrences_firsts : FirstOccurrences items (firsts [] items) where
  once := nodup_firsts
  same _ := by simp
  order := pairwise_firsts

theorem firsts_of_subset (old : ∀ item ∈ items, item ∈ seen) : firsts seen items = [] := by
  rw [List.eq_nil_iff_forall_not_mem]
  intro item member
  obtain ⟨among, new⟩ := mem_firsts.mp member
  exact new (old item among)

/-- What is seen or comes before adds nothing. -/
theorem firsts_append_of_subset (old : ∀ item ∈ further, item ∈ seen ∨ item ∈ items) :
    firsts seen (items ++ further) = firsts seen items := by
  induction items generalizing seen with
  | nil => exact firsts_of_subset fun item member => by simpa using old item member
  | cons first rest ih =>
      rw [List.cons_append, firsts, firsts]
      split
      case isTrue seen => exact ih fun item member => by grind
      case isFalse => rw [ih fun item member => by grind]

theorem firsts_of_nodup (once : items.Nodup) (new : ∀ item ∈ items, item ∉ seen) :
    firsts seen items = items := by
  induction items generalizing seen with
  | nil => rfl
  | cons first rest ih =>
      obtain ⟨fresh, once⟩ := List.nodup_cons.mp once
      rw [firsts, if_neg (new first List.mem_cons_self), ih once]
      intro item member among
      rcases List.mem_cons.mp among with rfl | old
      · exact fresh member
      · exact new item (List.mem_cons_of_mem _ member) old

end Firsts

/-! ## Lines that are not blank -/

variable {text front back more : List Char} {line copy : Line} {lines : List Line}

/-- The lines that are left of some when the blanks at their ends are taken away. -/
def solid (lines : List Line) : List Line :=
  (lines.map Text.trim).filter fun line => !line.isEmpty

/-- The lines that count in a text, each as often as it stands there. -/
def solidLines (text : List Char) : List Line :=
  solid (Text.lines text)

theorem solid_append (lines further : List Line) :
    solid (lines ++ further) = solid lines ++ solid further := by
  simp [solid]

theorem solid_cons (line : Line) (lines : List Line) :
    solid (line :: lines) = solid [line] ++ solid lines :=
  solid_append [line] lines

theorem solid_eq_nil (blank : ∀ line ∈ lines, ∀ c ∈ line, Text.isBlank c = true) :
    solid lines = [] := by
  simp only [solid, List.filter_eq_nil_iff, List.forall_mem_map]
  intro line member
  simp [Text.trim_eq_nil_iff.mpr (blank line member)]

theorem solid_padded (padded : Text.Padded copy line) : solid [copy] = solid [line] := by
  simp [solid, Text.trim_eq_of_padded padded]

/-- Only line feeds matter: what ends a line besides is a blank at its end. -/
theorem solidLines_eq : solidLines text = solid (text.splitOn '\n') := by
  obtain ⟨lines, lined⟩ := Text.exists_lined text
  rw [solidLines, Text.lines_of_lined lined]
  induction lined with
  | nothing => rfl
  | unended flat => rw [List.splitOn_eq_singleton flat]
  | feed flat _ _ ih =>
      rw [List.splitOn_append_cons_self_of_not_mem flat, solid_cons, ih, ← solid_cons]
  | @returnFeed line rest lines flat _ ih =>
      have flat' : '\n' ∉ line ++ ['\r'] := by simpa using flat
      have padded : Text.Padded (line ++ ['\r']) line :=
        ⟨[], ['\r'], rfl, by simp, List.forall_mem_singleton.mpr (by decide)⟩
      rw [List.append_cons, List.splitOn_append_cons_self_of_not_mem flat', solid_cons line, ih,
        ← solid_padded padded, ← solid_cons]

theorem solidLines_append :
    solidLines (front ++ '\n' :: back) = solidLines front ++ solidLines back := by
  rw [solidLines_eq, solidLines_eq, solidLines_eq, List.splitOn_append_cons_self, solid_append]

theorem solidLines_flat (flat : '\n' ∉ text) : solidLines text = solid [text] := by
  rw [solidLines_eq, List.splitOn_eq_singleton flat]

theorem solidLines_blank (blank : ∀ c ∈ text, Text.isBlank c = true) : solidLines text = [] := by
  obtain ⟨lines, lined⟩ := Text.exists_lined text
  rw [solidLines, Text.lines_of_lined lined]
  exact solid_eq_nil fun line member c among => blank c ((lined.of_mem member).2 c among)

/-- Blanks in front of a text add no line, even if there are line feeds among them. -/
theorem solidLines_blank_append (blank : ∀ c ∈ front, Text.isBlank c = true) :
    solidLines (front ++ text) = solidLines text := by
  induction front with
  | nil => rfl
  | cons c front ih =>
      obtain ⟨first, blank⟩ := List.forall_mem_cons.mp blank
      rw [← ih blank, List.cons_append]
      by_cases feed : c = '\n'
      · subst feed
        have parted : solidLines ([] ++ '\n' :: (front ++ text)) = [] ++ _ := solidLines_append
        exact parted
      · obtain ⟨piece, pieces, split⟩ :=
          List.exists_cons_of_ne_nil (List.splitOn_ne_nil '\n' (front ++ text))
        have padded : Text.Padded (c :: piece) piece :=
          ⟨[c], [], by simp, List.forall_mem_singleton.mpr first, by simp⟩
        rw [solidLines_eq, solidLines_eq, List.splitOn_cons_eq_if_modifyHead, split,
          if_neg (by simpa using feed), List.modifyHead_cons, solid_cons, solid_cons piece,
          solid_padded padded]

/-- A line with blanks around it counts as the line, even if there are line feeds among them. -/
theorem solidLines_padded (flat : '\n' ∉ line) (padded : Text.Padded copy line) :
    solidLines copy = solid [line] := by
  obtain ⟨front, back, rfl, blank, blank'⟩ := padded
  rw [List.append_assoc, solidLines_blank_append blank]
  have tail {back : List Char} (flat' : '\n' ∉ back) (blank' : ∀ c ∈ back, Text.isBlank c = true) :
      solidLines (line ++ back) = solid [line] := by
    rw [solidLines_flat (by simp [flat, flat'])]
    exact solid_padded ⟨[], back, rfl, by simp, blank'⟩
  by_cases fed : '\n' ∈ back
  case neg => exact tail fed blank'
  case pos =>
    obtain ⟨own, rest, rfl, flat'⟩ := List.eq_append_cons_of_mem fed
    obtain ⟨blankOwn, blankRest⟩ := List.forall_mem_append.mp blank'
    rw [← List.append_assoc, solidLines_append, tail flat' blankOwn,
      solidLines_blank (List.forall_mem_cons.mp blankRest).2, List.append_nil]

/-- Lines with line feeds between them. -/
def joined (lines : List Line) : List Char :=
  ['\n'].intercalate lines

theorem solidLines_joined : solidLines (joined lines) = lines.flatMap solidLines := by
  unfold joined
  induction lines with
  | nil => rfl
  | cons line rest ih =>
      cases rest with
      | nil => simp
      | cons next rest =>
          rw [List.intercalate_cons_cons, List.append_assoc, List.singleton_append,
            solidLines_append, ih]
          rfl

/-! ## The lines that count -/

/-- A line that counts is not empty, is trimmed, and holds no line feed. -/
theorem of_mem_uniqueLines (member : line ∈ uniqueLines text) :
    line ≠ [] ∧ Text.Bare line ∧ '\n' ∉ line := by
  obtain ⟨something, raw, among, rfl⟩ := mem_uniqueLines.mp member
  obtain ⟨front, back, whole, -⟩ := Text.exists_padding raw
  refine ⟨something, Text.bare_trim raw, fun feed => ?_⟩
  refine ((Text.lined_iff.mpr rfl).of_mem among).1 ?_
  rw [whole]
  simp [feed]

theorem solid_of_mem_uniqueLines (member : line ∈ uniqueLines text) : solid [line] = [line] := by
  obtain ⟨something, bare, -⟩ := of_mem_uniqueLines member
  have trimmed : Text.trim line = line :=
    Text.trims_iff.mp ⟨⟨[], [], by simp, by simp, by simp⟩, bare⟩
  simp [solid, trimmed, something]

theorem solidLines_copy (member : line ∈ uniqueLines text) (padded : Text.Padded copy line) :
    solidLines copy = [line] := by
  rw [solidLines_padded (of_mem_uniqueLines member).2.2 padded, solid_of_mem_uniqueLines member]

/-- A text with a line feed at its end, its own or one more. -/
inductive Fed (text : List Char) : List Char → Prop where
  | own (ends : text.getLast? = some '\n') : Fed text text
  | added : Fed text (text ++ ['\n'])

theorem Fed.solidLines_append {fed : List Char} (ends : Fed text fed) :
    solidLines (fed ++ more) = solidLines text ++ solidLines more := by
  have blank : solidLines [] = [] := rfl
  cases ends with
  | own ends =>
      obtain ⟨front, rfl⟩ := List.getLast?_eq_some_iff.mp ends
      rw [List.append_assoc, List.singleton_append, Expiry.solidLines_append,
        Expiry.solidLines_append, blank, List.append_nil]
  | added => rw [List.append_assoc, List.singleton_append, Expiry.solidLines_append]

/-- Copies of lines that count add nothing. -/
theorem uniqueLines_append_copies {fed : List Char} (ends : Fed text fed)
    (copied : ∀ copy ∈ lines, ∃ line ∈ uniqueLines text, Text.Padded copy line) :
    uniqueLines (fed ++ joined lines) = uniqueLines text := by
  change firsts [] (solidLines _) = firsts [] (solidLines text)
  rw [ends.solidLines_append, solidLines_joined]
  refine firsts_append_of_subset fun line member => .inr ?_
  obtain ⟨copy, among, counts⟩ := List.mem_flatMap.mp member
  obtain ⟨original, known, padded⟩ := copied copy among
  rw [solidLines_copy known padded] at counts
  obtain rfl := List.mem_singleton.mp counts
  exact (mem_firsts.mp known).1

/-- The lines that count, written one below the other, count as they are. -/
theorem uniqueLines_joined : uniqueLines (joined (uniqueLines text)) = uniqueLines text := by
  have same : solidLines (joined (uniqueLines text)) = uniqueLines text := by
    rw [solidLines_joined]
    calc (uniqueLines text).flatMap solidLines
      _ = (uniqueLines text).flatMap fun line => [line] :=
          List.flatMap_congr fun line member =>
            solidLines_copy member ⟨[], [], by simp, by simp, by simp⟩
      _ = uniqueLines text := List.flatMap_singleton' _
  change firsts [] (solidLines _) = _
  rw [same]
  exact firsts_of_nodup nodup_firsts fun _ _ => List.not_mem_nil

theorem solid_eq_of_trims {trimmed : List Line} (each : List.Forall₂ Text.Trims lines trimmed) :
    solid lines = trimmed.filter (· ≠ []) := by
  have same : lines.map Text.trim = trimmed := by
    induction each with
    | nil => rfl
    | cons trims _ ih => rw [List.map_cons, Text.trims_iff.mp trims, ih]
  rw [solid, same]
  exact List.filter_congr fun line _ => by cases line <;> rfl

/--
A text falls into lines, and each of these has a trimmed form. The lines that count are the
trimmed forms that are not empty, each once and in the order in which they come first. Written
one below the other they count as they are, and what is written below a text adds nothing to its
lines as long as it consists of copies of these, with blanks around them or without.
-/
theorem lines_counted_once (text : List Char) :
    (∃ lines trimmed, Text.Lined text lines ∧ List.Forall₂ Text.Trims lines trimmed) ∧
      (∀ lines trimmed, Text.Lined text lines → List.Forall₂ Text.Trims lines trimmed →
        FirstOccurrences (trimmed.filter (· ≠ [])) (uniqueLines text)) ∧
      uniqueLines (joined (uniqueLines text)) = uniqueLines text ∧
      ∀ fed copies, Fed text fed →
        (∀ copy ∈ copies, ∃ line ∈ uniqueLines text, Text.Padded copy line) →
          uniqueLines (fed ++ joined copies) = uniqueLines text := by
  refine ⟨?_, ?_, uniqueLines_joined, fun fed copies => uniqueLines_append_copies⟩
  · obtain ⟨lines, lined⟩ := Text.exists_lined text
    refine ⟨lines, lines.map Text.trim, lined, ?_⟩
    exact List.forall₂_map_right_iff.mpr (List.forall₂_same.mpr fun _ _ => Text.trims_iff.mpr rfl)
  · intro lines trimmed lined each
    rw [← solid_eq_of_trims each, ← Text.lines_of_lined lined]
    exact firstOccurrences_firsts

/-- Lines with different ends and blanks; a carriage return within a line is no end. -/
def untidyList : List Char :=
  " 1/0/0\r\n\u3000\n1/0/1\r2\n\t1/0/0 ".toList

theorem untidyList_counted_once :
    FirstOccurrences ["1/0/0".toList, "1/0/1\r2".toList, "1/0/0".toList] (uniqueLines untidyList) ∧
      uniqueLines untidyList = ["1/0/0".toList, "1/0/1\r2".toList] ∧
      uniqueLines (untidyList ++ ['\n'] ++ joined ["\n 1/0/1\r2\r".toList, "1/0/0".toList]) =
        ["1/0/0".toList, "1/0/1\r2".toList] := by
  have counted : uniqueLines untidyList = ["1/0/0".toList, "1/0/1\r2".toList] := by decide
  obtain ⟨-, occurrences, -, more⟩ := lines_counted_once untidyList
  have lined : Text.Lined untidyList
      [" 1/0/0".toList, ['\u3000'], "1/0/1\r2".toList, "\t1/0/0 ".toList] :=
    Text.lined_iff.mpr (by decide)
  have trims {raw line : List Char} (trimmed : Text.trim raw = line) : Text.Trims raw line :=
    Text.trims_iff.mpr trimmed
  refine ⟨?_, counted, ?_⟩
  · exact occurrences _ ["1/0/0".toList, [], "1/0/1\r2".toList, "1/0/0".toList] lined
      (.cons (trims rfl) (.cons (trims rfl) (.cons (trims rfl) (.cons (trims rfl) .nil))))
  · rw [more _ _ .added, counted]
    rw [counted]
    refine List.forall_mem_cons.mpr ⟨?_, List.forall_mem_singleton.mpr ?_⟩
    · exact ⟨_, List.mem_cons_of_mem _ List.mem_cons_self, "\n ".toList, ['\r'], rfl,
        List.all_eq_true.mp rfl, List.all_eq_true.mp rfl⟩
    · exact ⟨_, List.mem_cons_self, [], [], rfl, nofun, nofun⟩

end MapReplica.Expiry
