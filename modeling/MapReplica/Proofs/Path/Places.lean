import MapReplica.Path

/-!
# Places of files

A file with a plain name lies right below the place of its directory, whatever the
directory is. So files with different plain names lie at different places.
-/

namespace MapReplica.Path

/-- A name that is one part of a path: not empty, no dots alone, and without a slash. -/
structure IsPlain (name : String) : Prop where
  noSlash : '/' ∉ name.toList
  notEmpty : name.toList ≠ []
  notHere : name.toList ≠ ['.']
  notUp : name.toList ≠ ['.', '.']

variable {base : Path} {name : String} {text : List Char} {place : List String}

theorem segment?_plain (plain : IsPlain name) : segment? name.toList = some (.name name) := by
  unfold segment?
  rw [if_neg, if_neg plain.notUp, String.ofList_toList]
  exact not_or.mpr ⟨plain.notEmpty, plain.notHere⟩

theorem startsAtRoot_append (text more : List Char) :
    startsAtRoot (text ++ '/' :: more) = startsAtRoot (text ++ ['/']) := by
  cases text with
  | nil => rfl
  | cons c rest => rfl

theorem head?_splitOn_append (text last : List Char) :
    (text.splitOn '/' ++ [last]).head? = (text.splitOn '/').head? := by
  obtain ⟨first, rest, split⟩ := List.exists_cons_of_ne_nil (List.splitOn_ne_nil '/' text)
  rw [split]
  rfl

/-- The parts of a text between its slashes, as far as they count. -/
def segmentsOf (text : List Char) : List Component :=
  (text.splitOn '/').filterMap segment?

/-- What stands behind a slash counts by its segments, whatever stands before it. -/
theorem componentsOf_slash_append (text part : List Char) :
    componentsOf (text ++ '/' :: part) = componentsOf (text ++ ['/']) ++ segmentsOf part := by
  have first : (text ++ '/' :: part).splitOn '/' = text.splitOn '/' ++ part.splitOn '/' :=
    List.splitOn_append_cons_self ..
  have second : (text ++ ['/']).splitOn '/' = text.splitOn '/' ++ [[]] := by
    rw [List.splitOn_append_cons_self, List.splitOn_nil]
  have front : (text.splitOn '/' ++ part.splitOn '/').head? = (text.splitOn '/').head? := by
    obtain ⟨segment, rest, split⟩ := List.exists_cons_of_ne_nil (List.splitOn_ne_nil '/' text)
    rw [split]
    rfl
  have nothing : segment? [] = none := rfl
  simp only [componentsOf, segmentsOf, first, second, front, head?_splitOn_append,
    startsAtRoot_append text part, List.filterMap_append, List.filterMap_cons,
    List.filterMap_nil, nothing, List.append_nil, List.append_assoc]

theorem segmentsOf_plain (plain : IsPlain name) : segmentsOf name.toList = [.name name] := by
  simp [segmentsOf, List.splitOn_eq_singleton plain.noSlash, segment?_plain plain]

/-- A plain name behind a slash is one component more. -/
theorem componentsOf_slash_plain (text : List Char) (plain : IsPlain name) :
    componentsOf (text ++ '/' :: name.toList) = componentsOf (text ++ ['/']) ++ [.name name] := by
  rw [componentsOf_slash_append, segmentsOf_plain plain]

/-- A slash at the end of a text changes no component. -/
theorem componentsOf_slash (nonempty : text ≠ []) :
    componentsOf (text ++ ['/']) = componentsOf text := by
  have split : (text ++ ['/']).splitOn '/' = text.splitOn '/' ++ [[]] := by
    rw [List.splitOn_append_cons_self, List.splitOn_nil]
  have root : startsAtRoot (text ++ ['/']) = startsAtRoot text := by
    cases text with
    | nil => exact (nonempty rfl).elim
    | cons c rest => rfl
  have nothing : segment? [] = none := rfl
  simp only [componentsOf, split, head?_splitOn_append, root, List.filterMap_append,
    List.filterMap_cons,
    List.filterMap_nil, nothing, List.append_nil]

theorem startsAtRoot_plain (plain : IsPlain name) : startsAtRoot name.toList = false := by
  cases chars : name.toList with
  | nil => rfl
  | cons c rest =>
      have other : c ≠ '/' := by
        intro slash
        refine plain.noSlash ?_
        rw [chars, slash]
        exact List.mem_cons_self
      simp [startsAtRoot, other]

theorem componentsOf_plain (plain : IsPlain name) : componentsOf name.toList = [.name name] := by
  simp [componentsOf, startsAtRoot_plain plain, List.splitOn_eq_singleton plain.noSlash,
    segment?_plain plain, plain.notHere]

theorem components_join (plain : IsPlain name) :
    (base.join name).components = base.components ++ [.name name] := by
  unfold join components
  rw [startsAtRoot_plain plain]
  rcases List.eq_nil_or_concat base.text.toList with empty | ⟨front, last, ends⟩
  · have nothing : componentsOf [] = [] := rfl
    simp [empty, componentsOf_plain plain, nothing]
  · rw [List.concat_eq_append] at ends
    by_cases slash : last = '/'
    · subst slash
      simp [ends, componentsOf_slash_plain front plain]
    · have text : front ++ [last] ≠ [] := by simp
      have joined := componentsOf_slash_plain (front ++ [last]) plain
      rw [componentsOf_slash text] at joined
      simpa [ends, slash] using joined

/-- A file with a plain name lies right below the place of its directory. -/
theorem resolveFrom_join (plain : IsPlain name) :
    (base.join name).resolveFrom place = base.resolveFrom place ++ [name] := by
  rw [resolveFrom, components_join plain, List.foldl_append]
  exact List.reverse_cons

theorem resolveFrom_slash (text : String) (plain : IsPlain name) :
    (⟨text ++ "/" ++ name⟩ : Path).resolveFrom place =
      (⟨text ++ "/"⟩ : Path).resolveFrom place ++ [name] := by
  have more : (text ++ "/" ++ name).toList = text.toList ++ '/' :: name.toList := by simp
  have front : (text ++ "/").toList = text.toList ++ ['/'] := by simp
  simp only [resolveFrom, components, more, front, componentsOf_slash_plain text.toList plain,
    List.foldl_append]
  exact List.reverse_cons

/-- A file with a plain name in a part below a base lies right below the place of the part. -/
theorem resolveFrom_join_slash {part : String} (plain : IsPlain name) :
    (base.join (part ++ "/" ++ name)).resolveFrom place =
      (base.join (part ++ "/")).resolveFrom place ++ [name] := by
  have root : startsAtRoot (part ++ "/" ++ name).toList = startsAtRoot (part ++ "/").toList := by
    simpa using startsAtRoot_append part.toList name.toList
  unfold join
  rw [root]
  split
  case isTrue => exact resolveFrom_slash part plain
  case isFalse =>
    split
    case isTrue =>
      simp only [← String.append_assoc]
      exact resolveFrom_slash (base.text ++ part) plain
    case isFalse =>
      simp only [← String.append_assoc]
      exact resolveFrom_slash (base.text ++ "/" ++ part) plain

end MapReplica.Path
