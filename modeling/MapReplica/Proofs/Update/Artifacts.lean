import MapReplica.Proofs.Entity.Checking
import MapReplica.Proofs.Number.Numeral
import MapReplica.Proofs.Path.Places
import MapReplica.Update.Manager

/-!
# Places of artifacts

The names of the files of a cycle tell its number, and the diff, the merged diff and the
lists of expired tiles have different ends. So files of different numbers never share a
place, also if they belong to different projects in one work directory.
-/

namespace MapReplica

namespace Number

theorem numeral_injective {m n : Nat} (same : numeral m = numeral n) : m = n :=
  digits_injective (String.ofList_injective same)

/-- A character that is no decimal digit does not occur in a numeral. -/
theorem not_mem_numeral {n : Nat} {c : Char} (other : Text.isDecimalDigit c = false) :
    c ∉ (numeral n).toList := by
  rw [numeral, String.toList_ofList]
  exact not_mem_digits other

end Number

namespace Update

/-! ## Names -/

/-- The name of the diff of a number. -/
def diffName (sequence : Nat) : String :=
  Number.numeral sequence ++ "." ++ Diff.extension

/-- The name of the merged diff of a number. -/
def mergedName (sequence : Nat) : String :=
  Number.numeral sequence ++ ".simplified." ++ Diff.extension

variable {first second sequence : Nat} {entity other : String}

theorem toList_diffName :
    (diffName sequence).toList = (Number.numeral sequence).toList ++ ".osc.gz".toList := by
  simp [diffName, Diff.extension]

theorem toList_mergedName : (mergedName sequence).toList =
    (Number.numeral sequence).toList ++ ".simplified.osc.gz".toList := by
  simp [mergedName, Diff.extension]

theorem toList_listNameOf : (listNameOf entity sequence).toList =
    (entity.toList ++ '.' :: (Number.numeral sequence).toList) ++ ".expire.list".toList := by
  simp [listNameOf, Upload.listName]

theorem noSlash_numeral : '/' ∉ (Number.numeral sequence).toList :=
  Number.not_mem_numeral (by decide)

theorem noDot_numeral : '.' ∉ (Number.numeral sequence).toList :=
  Number.not_mem_numeral (by decide)

/-- A name with a long end and without a slash is plain. -/
theorem isPlain_of_end {name : String} {front back : List Char} (text : name.toList = front ++ back)
    (noFront : '/' ∉ front) (noBack : '/' ∉ back) (long : 2 < back.length) : Path.IsPlain name := by
  have length : name.toList.length = front.length + back.length := by
    rw [text, List.length_append]
  constructor
  · rw [text, List.mem_append]
    exact not_or.mpr ⟨noFront, noBack⟩
  · intro same
    rw [same, List.length_nil] at length
    omega
  · intro same
    rw [same, List.length_singleton] at length
    omega
  · intro same
    have two : ['.', '.'].length = 2 := rfl
    rw [same, two] at length
    omega

theorem isPlain_diffName : Path.IsPlain (diffName sequence) :=
  isPlain_of_end toList_diffName noSlash_numeral (by decide) (by decide)

theorem isPlain_mergedName : Path.IsPlain (mergedName sequence) :=
  isPlain_of_end toList_mergedName noSlash_numeral (by decide) (by decide)

theorem isPlain_listNameOf (flat : '/' ∉ entity.toList) :
    Path.IsPlain (listNameOf entity sequence) := by
  refine isPlain_of_end toList_listNameOf ?_ (by decide) (by decide)
  simp [flat, noSlash_numeral]

/-! ## Different names -/

theorem diffName_injective (same : diffName first = diffName second) : first = second := by
  have texts := congrArg String.toList same
  rw [toList_diffName, toList_diffName] at texts
  exact Number.numeral_injective (String.toList_injective (List.append_cancel_right texts))

theorem mergedName_injective (same : mergedName first = mergedName second) : first = second := by
  have texts := congrArg String.toList same
  rw [toList_mergedName, toList_mergedName] at texts
  exact Number.numeral_injective (String.toList_injective (List.append_cancel_right texts))

/-- What stands before and after the first mark of texts that are equal is equal. -/
theorem eq_of_first_mark {mark : Char} {front front' back back' : List Char}
    (noFront : mark ∉ front) (noFront' : mark ∉ front')
    (same : front ++ mark :: back = front' ++ mark :: back') : front = front' ∧ back = back' := by
  induction front generalizing front' with
  | nil =>
      cases front' with
      | nil =>
          cases same
          exact ⟨rfl, rfl⟩
      | cons c rest =>
          cases same
          exact (noFront' List.mem_cons_self).elim
  | cons c rest ih =>
      cases front' with
      | nil =>
          cases same
          exact (noFront List.mem_cons_self).elim
      | cons c' rest' =>
          obtain ⟨rfl, tails⟩ := List.cons.inj same
          obtain ⟨rfl, rfl⟩ := ih (fun member => noFront (List.mem_cons_of_mem _ member))
            (fun member => noFront' (List.mem_cons_of_mem _ member)) tails
          exact ⟨rfl, rfl⟩

/-- What stands before and after the last mark of texts that are equal is equal. -/
theorem eq_of_last_mark {mark : Char} {front front' back back' : List Char}
    (noBack : mark ∉ back) (noBack' : mark ∉ back')
    (same : front ++ mark :: back = front' ++ mark :: back') : front = front' ∧ back = back' := by
  have reversed := congrArg List.reverse same
  simp only [List.reverse_append, List.reverse_cons, List.append_assoc, List.singleton_append]
    at reversed
  obtain ⟨backs, fronts⟩ := eq_of_first_mark (by simpa using noBack) (by simpa using noBack')
    reversed
  exact ⟨List.reverse_inj.mp fronts, List.reverse_inj.mp backs⟩

theorem diffName_ne_mergedName : diffName first ≠ mergedName second := by
  intro same
  have texts := congrArg String.toList same
  rw [toList_diffName, toList_mergedName] at texts
  have backs := (eq_of_first_mark noDot_numeral noDot_numeral texts).2
  revert backs
  decide

theorem listNameOf_ne_of_end {name : String} {front : List Char}
    (text : name.toList = front ++ ".osc.gz".toList) : listNameOf entity sequence ≠ name := by
  intro same
  have texts := congrArg String.toList same
  rw [toList_listNameOf, text] at texts
  have list : ".expire.list".toList = ".expire.lis".toList ++ ['t'] := rfl
  have packed : ".osc.gz".toList = ".osc.g".toList ++ ['z'] := rfl
  rw [list, packed, ← List.append_assoc, ← List.append_assoc] at texts
  cases (List.append_inj' texts rfl).2

theorem listNameOf_ne_diffName : listNameOf entity first ≠ diffName second :=
  listNameOf_ne_of_end toList_diffName

theorem listNameOf_ne_mergedName : listNameOf entity first ≠ mergedName second := by
  have text : (mergedName second).toList =
      ((Number.numeral second).toList ++ ".simplified".toList) ++ ".osc.gz".toList := by
    rw [toList_mergedName, List.append_assoc]
    rfl
  exact listNameOf_ne_of_end text

/-- The number stands between the last two dots of the name of a list. -/
theorem listNameOf_injective (same : listNameOf entity first = listNameOf other second) :
    entity = other ∧ first = second := by
  have texts := congrArg String.toList same
  rw [toList_listNameOf, toList_listNameOf] at texts
  obtain ⟨entities, numerals⟩ :=
    eq_of_last_mark noDot_numeral noDot_numeral (List.append_cancel_right texts)
  exact ⟨String.toList_injective entities,
    Number.numeral_injective (String.toList_injective numerals)⟩

/-- The names that a file of a cycle can have. -/
inductive Names (sequence : Nat) : String → Prop where
  | diff : Names sequence (diffName sequence)
  | merged : Names sequence (mergedName sequence)
  | list (entity : String) : Names sequence (listNameOf entity sequence)

/-- A name tells the number of its cycle. -/
theorem Names.unique {name : String} (hfirst : Names first name) (hsecond : Names second name) :
    first = second := by
  generalize hname : name = same at hsecond
  cases hfirst with
  | diff =>
      cases hsecond with
      | diff => exact diffName_injective hname
      | merged => exact (diffName_ne_mergedName hname).elim
      | list other => exact (listNameOf_ne_diffName hname.symm).elim
  | merged =>
      cases hsecond with
      | diff => exact (diffName_ne_mergedName hname.symm).elim
      | merged => exact mergedName_injective hname
      | list other => exact (listNameOf_ne_mergedName hname.symm).elim
  | list entity =>
      cases hsecond with
      | diff => exact (listNameOf_ne_diffName hname).elim
      | merged => exact (listNameOf_ne_mergedName hname).elim
      | list other => exact (listNameOf_injective hname).2

/-- A name of a file of a cycle ends as a packed file or as a list does. -/
theorem Names.getLast? {name : String} (names : Names sequence name) :
    name.toList.getLast? = some 'z' ∨ name.toList.getLast? = some 't' := by
  cases names with
  | diff =>
      rw [toList_diffName, List.getLast?_append]
      exact .inl rfl
  | merged =>
      rw [toList_mergedName, List.getLast?_append]
      exact .inl rfl
  | list entity =>
      rw [toList_listNameOf, List.getLast?_append]
      exact .inr rfl

/-! ## Places -/

variable {workDirectory workDirectory' path path' : Path} {project project' : String}
    {directory : List String}
variable {entities entities' : List Entity}

/-- Entities whose ids are names of files. -/
def Flat (entities : List Entity) : Prop :=
  ∀ entity ∈ entities, '/' ∉ entity.id.toList

/-- Entities that were checked have ids that are names of files. -/
theorem flat_of_check (checked : Entity.check entities = .ok ()) : Flat entities := by
  intro entity among
  have sound := (Entity.check_eq_ok_iff.mp checked).sound entity among
  exact sound.single.1

/-- Entities that were checked have different ids. -/
theorem nodup_of_check (checked : Entity.check entities = .ok ()) :
    (entities.map Entity.id).Nodup :=
  (Entity.check_eq_ok_iff.mp checked).distinct

theorem place_diffPath : (diffPath workDirectory sequence).resolveFrom directory =
    workDirectory.resolveFrom directory ++ [diffName sequence] :=
  Path.resolveFrom_join isPlain_diffName

theorem place_mergedPath : (mergedPath workDirectory sequence).resolveFrom directory =
    workDirectory.resolveFrom directory ++ [mergedName sequence] :=
  Path.resolveFrom_join isPlain_mergedName

theorem place_listPath (flat : '/' ∉ entity.toList) :
    (listPath workDirectory project entity sequence).resolveFrom directory =
      (Progress.directoryOf workDirectory project).resolveFrom directory ++
        [listNameOf entity sequence] :=
  Path.resolveFrom_join (isPlain_listNameOf flat)

theorem entity_of_listPath (flat : '/' ∉ entity.toList) (flat' : '/' ∉ other.toList)
    (same : (listPath workDirectory project entity sequence).resolveFrom directory =
      (listPath workDirectory project other sequence).resolveFrom directory) : entity = other := by
  rw [place_listPath flat, place_listPath flat'] at same
  exact (listNameOf_injective (List.singleton_inj.mp (List.append_cancel_left same))).1

theorem listPath_ne_diffPath (flat : '/' ∉ entity.toList) :
    (listPath workDirectory project entity first).resolveFrom directory ≠
      (diffPath workDirectory second).resolveFrom directory := by
  intro same
  rw [place_listPath flat, place_diffPath] at same
  exact listNameOf_ne_diffName (List.singleton_inj.mp (List.append_inj' same rfl).2)

theorem listPath_ne_mergedPath (flat : '/' ∉ entity.toList) :
    (listPath workDirectory project entity first).resolveFrom directory ≠
      (mergedPath workDirectory second).resolveFrom directory := by
  intro same
  rw [place_listPath flat, place_mergedPath] at same
  exact listNameOf_ne_mergedName (List.singleton_inj.mp (List.append_inj' same rfl).2)

/-- Every file of a cycle lies in some directory under one of its names. -/
theorem place_of_mem_artifacts (directory : List String) (flat : Flat entities)
    (member : path ∈ artifacts workDirectory project entities sequence) :
    ∃ outer name, path.resolveFrom directory = outer ++ [name] ∧ Names sequence name := by
  rcases List.mem_cons.mp member with rfl | member
  · exact ⟨_, _, place_diffPath, .diff⟩
  rcases List.mem_cons.mp member with rfl | member
  · exact ⟨_, _, place_mergedPath, .merged⟩
  obtain ⟨entity, mem, rfl⟩ := List.mem_map.mp member
  exact ⟨_, _, place_listPath (flat entity mem), .list entity.id⟩

/-- Files of cycles of different numbers lie at different places. -/
theorem artifacts_disjoint (flat : Flat entities) (flat' : Flat entities')
    (different : first ≠ second)
    (member : path ∈ artifacts workDirectory project entities first)
    (member' : path' ∈ artifacts workDirectory' project' entities' second) :
    path.resolveFrom directory ≠ path'.resolveFrom directory := by
  intro same
  obtain ⟨outer, name, place, names⟩ := place_of_mem_artifacts directory flat member
  obtain ⟨outer', name', place', names'⟩ := place_of_mem_artifacts directory flat' member'
  rw [place, place'] at same
  obtain rfl := List.singleton_inj.mp (List.append_inj' same rfl).2
  exact different (names.unique names')

/-- A file whose name ends otherwise lies at the place of no file of a cycle. -/
theorem place_ne_of_getLast? {outer : List String} {name : String} (flat : Flat entities)
    (member : path ∈ artifacts workDirectory project entities sequence)
    (packed : name.toList.getLast? ≠ some 'z') (listed : name.toList.getLast? ≠ some 't') :
    path.resolveFrom directory ≠ outer ++ [name] := by
  intro same
  obtain ⟨front, own, place, names⟩ := place_of_mem_artifacts directory flat member
  rw [place] at same
  obtain rfl := List.singleton_inj.mp (List.append_inj' same rfl).2
  rcases names.getLast? with ends | ends
  · exact packed ends
  · exact listed ends

theorem diffPath_mem_artifacts :
    diffPath workDirectory sequence ∈ artifacts workDirectory project entities sequence :=
  List.mem_cons_self

theorem mergedPath_mem_artifacts :
    mergedPath workDirectory sequence ∈ artifacts workDirectory project entities sequence :=
  List.mem_cons_of_mem _ List.mem_cons_self

theorem listPath_mem_artifacts {entity : Entity} (member : entity ∈ entities) :
    listPath workDirectory project entity.id sequence ∈
      artifacts workDirectory project entities sequence :=
  List.mem_cons_of_mem _ (List.mem_cons_of_mem _ (List.mem_map_of_mem member))

end Update

end MapReplica
