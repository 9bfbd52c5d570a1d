import MapReplica.Text.Lines

/-!
# Where lines end

A line ends at a line feed, or at a carriage return and a line feed; the last line may also end
with the text. Every text falls into such lines in exactly one way, and these are its lines.
-/

namespace MapReplica.Text

/--
The lines that a text falls into. A line holds no line feed, and it does not end in a carriage
return if a line feed alone ends it, since that return belongs to the end then. The last line
may have no end, unless it is empty.
-/
inductive Lined : List Char → List (List Char) → Prop
  | nothing : Lined [] []
  | unended {line : List Char} (flat : '\n' ∉ line) (nonempty : line ≠ []) : Lined line [line]
  | feed {line rest : List Char} {lines : List (List Char)} (flat : '\n' ∉ line)
      (noReturn : line.getLast? ≠ some '\r') (later : Lined rest lines) :
      Lined (line ++ '\n' :: rest) (line :: lines)
  | returnFeed {line rest : List Char} {lines : List (List Char)} (flat : '\n' ∉ line)
      (later : Lined rest lines) : Lined (line ++ '\r' :: '\n' :: rest) (line :: lines)

variable {text line rest : List Char} {found : List (List Char)} {c : Char}

/-- A line holds no line feed, and nothing that does not stand in the text. -/
theorem Lined.of_mem (lined : Lined text found) (member : line ∈ found) :
    '\n' ∉ line ∧ ∀ c ∈ line, c ∈ text := by
  induction lined with
  | nothing => cases member
  | unended flat _ =>
      obtain rfl := List.mem_singleton.mp member
      exact ⟨flat, fun _ among => among⟩
  | feed flat _ _ ih =>
      rcases List.mem_cons.mp member with rfl | later
      · exact ⟨flat, fun c among => List.mem_append_left _ among⟩
      · exact ⟨(ih later).1, fun c among => by simp [(ih later).2 c among]⟩
  | returnFeed flat _ ih =>
      rcases List.mem_cons.mp member with rfl | later
      · exact ⟨flat, fun c among => List.mem_append_left _ among⟩
      · exact ⟨(ih later).1, fun c among => by simp [(ih later).2 c among]⟩

/-! ## Reading the lines off -/

theorem lines_feed : lines ('\n' :: rest) = [] :: lines rest := by
  cases rest with
  | nil => rfl
  | cons c rest => simp [lines, linesBy]

theorem lines_returnFeed : lines ('\r' :: '\n' :: rest) = [] :: lines rest := by
  simp [lines, linesBy]

/-- A character that ends no line is the first of its line. -/
theorem lines_cons (inside : c ≠ '\n') (alone : c = '\r' → text.head? ≠ some '\n')
    (first : lines text = line :: found) : lines (c :: text) = (c :: line) :: found := by
  cases text with
  | nil => cases first
  | cons next rest =>
      have noEnd : ¬(c = '\r' ∧ next = '\n') := fun ⟨same, feed⟩ => alone same (by simp [feed])
      rw [lines] at first
      rw [lines, linesBy, if_neg inside, if_neg noEnd, first]

theorem head?_ne_feed (flat : '\n' ∉ line) : line.head? ≠ some '\n' :=
  fun first => flat (List.mem_of_head? first)

/-- Characters that end no line are the beginning of the line that they are followed by. -/
theorem lines_append (flat : '\n' ∉ line)
    (alone : line.getLast? = some '\r' → text.head? ≠ some '\n')
    (first : lines text = [] :: found) : lines (line ++ text) = line :: found := by
  induction line with
  | nil => exact first
  | cons c line ih =>
      obtain ⟨inside, others⟩ := not_or.mp (mt List.mem_cons.mpr flat)
      refine lines_cons (Ne.symm inside) ?_ (ih others ?_)
      · rintro rfl
        cases line with
        | nil => exact alone rfl
        | cons next line =>
            have alone' : (next :: line).head? ≠ some '\n' := head?_ne_feed others
            exact alone'
      · intro last
        apply alone
        rw [List.getLast?_cons, last]
        rfl

theorem lines_unended (flat : '\n' ∉ line) (nonempty : line ≠ []) : lines line = [line] := by
  induction line with
  | nil => exact (nonempty rfl).elim
  | cons c line ih =>
      obtain ⟨inside, others⟩ := not_or.mp (mt List.mem_cons.mpr flat)
      cases line with
      | nil => simp [lines, linesBy, Ne.symm inside]
      | cons next line =>
          have alone : (next :: line).head? ≠ some '\n' := head?_ne_feed others
          exact lines_cons (Ne.symm inside) (fun _ => alone) (ih others (List.cons_ne_nil next line))

theorem lines_of_lined (lined : Lined text found) : lines text = found := by
  induction lined with
  | nothing => rfl
  | unended flat nonempty => exact lines_unended flat nonempty
  | feed flat noReturn _ ih =>
      refine lines_append flat (fun closed => (noReturn closed).elim) ?_
      rw [lines_feed, ih]
  | returnFeed flat _ ih =>
      refine lines_append flat (fun _ => by simp) ?_
      rw [lines_returnFeed, ih]

/-- Every text falls into lines: it is cut at its first line feed, and what is left is shorter. -/
theorem exists_lined (text : List Char) : ∃ found, Lined text found := by
  induction size : text.length using Nat.strongRecOn generalizing text with
  | _ size ih =>
      by_cases fed : '\n' ∈ text
      case neg =>
        by_cases nonempty : text = []
        · exact ⟨[], nonempty ▸ .nothing⟩
        · exact ⟨[text], .unended fed nonempty⟩
      case pos =>
        obtain ⟨line, rest, rfl, flat⟩ := List.eq_append_cons_of_mem fed
        obtain ⟨later, lined⟩ := ih rest.length (by rw [← size]; simp; omega) rest rfl
        by_cases closed : line.getLast? = some '\r'
        · obtain ⟨front, rfl⟩ := List.getLast?_eq_some_iff.mp closed
          rw [List.append_assoc]
          exact ⟨front :: later, .returnFeed (fun member => flat (by simp [member])) lined⟩
        · exact ⟨line :: later, .feed flat closed lined⟩

/-- The lines of a text are those that it falls into. -/
theorem lined_iff : Lined text found ↔ lines text = found := by
  refine ⟨lines_of_lined, ?_⟩
  rintro rfl
  obtain ⟨found, lined⟩ := exists_lined text
  rwa [lines_of_lined lined]

end MapReplica.Text
