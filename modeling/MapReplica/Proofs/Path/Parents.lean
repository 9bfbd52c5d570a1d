import MapReplica.Proofs.Path.Walks

/-!
# The directory of a path

The directory in which a path lies is written from all but the last component of the path,
and these components are read from it again. So if a path lies below a base, its directory
lies below the base as well, or on the way to it.
-/

namespace MapReplica.Path

variable {base path directory : Path} {text part : List Char} {component : Component}
  {components body : List Component} {place lower : List String}

/-! ## Components as they are read -/

/-- A component as it is read from between two slashes. -/
structure IsSegment (component : Component) : Prop where
  noSlash : '/' ∉ component.text.toList
  read : segment? component.text.toList = some component

theorem IsSegment.ne_root (segment : IsSegment component) : component ≠ .root := by
  rintro rfl
  cases segment.read

theorem isSegment_of_segment? (noSlash : '/' ∉ part) (read : segment? part = some component) :
    IsSegment component := by
  have again := read
  unfold segment? at read
  split at read
  case isTrue => cases read
  case isFalse =>
    split at read
    case isTrue =>
      cases read
      exact ⟨by decide, by decide⟩
    case isFalse =>
      cases read
      have same : (Component.name (String.ofList part)).text.toList = part := String.toList_ofList
      constructor
      · rwa [same]
      · rwa [same]

theorem noSlash_of_mem_splitOn (member : part ∈ text.splitOn '/') : '/' ∉ part := by
  induction text generalizing part with
  | nil =>
      rw [List.splitOn_nil, List.mem_singleton] at member
      rw [member]
      exact List.not_mem_nil
  | cons c rest ih =>
      rw [List.splitOn_cons_eq_if_modifyHead] at member
      split at member
      case isTrue =>
        rcases List.mem_cons.mp member with rfl | later
        · exact List.not_mem_nil
        · exact ih later
      case isFalse other =>
        obtain ⟨first, parts, split⟩ := List.exists_cons_of_ne_nil (List.splitOn_ne_nil '/' rest)
        rw [split] at ih member
        rcases List.mem_cons.mp member with rfl | later
        · rintro (_ | ⟨_, slash⟩)
          · exact other rfl
          · exact ih List.mem_cons_self slash
        · exact ih (List.mem_cons_of_mem first later)

theorem isSegment_of_mem (member : component ∈ segmentsOf text) : IsSegment component := by
  obtain ⟨part, among, read⟩ := List.mem_filterMap.mp member
  exact isSegment_of_segment? (noSlash_of_mem_splitOn among) read

/-- What stands in front of the segments of a path, by the parts between its slashes. -/
def leadOf : List (List Char) → List Component
  | [] :: _ :: _ => [.root]
  | ['.'] :: _ => [.here]
  | _ => []

theorem componentsOf_eq (text : List Char) :
    componentsOf text = leadOf (text.splitOn '/') ++ segmentsOf text := by
  unfold componentsOf segmentsOf
  refine congrArg (· ++ _) ?_
  cases text with
  | nil => rfl
  | cons c rest =>
      obtain ⟨first, parts, split⟩ := List.exists_cons_of_ne_nil (List.splitOn_ne_nil '/' rest)
      rw [List.splitOn_cons_eq_if_modifyHead, split]
      by_cases slash : c = '/'
      · simp [startsAtRoot, slash, leadOf]
      · by_cases alone : c = '.' ∧ first = []
        · simp [startsAtRoot, alone, leadOf]
        · have nothing : leadOf ((c :: first) :: parts) = [] := by
            unfold leadOf
            split
            case h_1 heq => cases heq
            case h_2 heq =>
              cases heq
              exact (alone ⟨rfl, rfl⟩).elim
            case h_3 => rfl
          simp [startsAtRoot, slash, alone, nothing]

/-! ## Components as they are written -/

/-- The parts of components, as they are written. -/
def partsOf (components : List Component) : List (List Char) :=
  components.map fun component => component.text.toList

theorem ofComponents_of_ne_root (other : components ≠ [.root]) :
    ofComponents components = ⟨"/".intercalate (components.map Component.text)⟩ := by
  unfold ofComponents
  split
  case h_1 => exact (other rfl).elim
  case h_2 => rfl

theorem splitOn_ofComponents (nonempty : components ≠ []) (other : components ≠ [.root])
    (noSlash : ∀ component ∈ components, '/' ∉ component.text.toList) :
    (ofComponents components).text.toList.splitOn '/' = partsOf components := by
  have slash : "/".toList = ['/'] := rfl
  rw [ofComponents_of_ne_root other, String.toList_intercalate, List.map_map, slash]
  refine List.splitOn_intercalate '/' ?_ (by simpa using nonempty)
  intro part member
  obtain ⟨component, among, rfl⟩ := List.mem_map.mp member
  exact noSlash component among

theorem filterMap_partsOf (segments : ∀ component ∈ body, IsSegment component) :
    (partsOf body).filterMap segment? = body := by
  induction body with
  | nil => rfl
  | cons component rest ih =>
      obtain ⟨own, others⟩ := List.forall_mem_cons.mp segments
      have parts : partsOf (component :: rest) = component.text.toList :: partsOf rest := rfl
      rw [parts, List.filterMap_cons_some own.read, ih others]

/-- What can stand in front of the segments of a path. -/
inductive IsLead : List Component → Prop where
  | nothing : IsLead []
  | root : IsLead [.root]
  | here : IsLead [.here]

theorem isLead_leadOf (parts : List (List Char)) : IsLead (leadOf parts) := by
  unfold leadOf
  split
  · exact .root
  · exact .here
  · exact .nothing

theorem IsLead.noSlash (lead : IsLead components) (member : component ∈ components) :
    '/' ∉ component.text.toList := by
  cases lead with
  | nothing => cases member
  | root =>
      rw [List.mem_singleton.mp member]
      decide
  | here =>
      rw [List.mem_singleton.mp member]
      decide

theorem IsLead.filterMap_partsOf (lead : IsLead components) :
    (partsOf components).filterMap segment? = [] := by
  cases lead with
  | nothing => rfl
  | root => decide
  | here => decide

/-- What stands in front of segments is read again, unless it is the root alone. -/
theorem IsLead.leadOf_partsOf (lead : IsLead components)
    (segments : ∀ component ∈ body, IsSegment component) (other : components ++ body ≠ [.root]) :
    leadOf (partsOf (components ++ body)) = components := by
  cases lead with
  | nothing =>
      cases body with
      | nil => rfl
      | cons first rest =>
          have read := (segments first List.mem_cons_self).read
          have empty : first.text.toList ≠ [] := by
            intro empty
            rw [empty] at read
            cases read
          have dot : first.text.toList ≠ ['.'] := by
            intro dot
            rw [dot] at read
            cases read
          simp [partsOf, leadOf, empty, dot]
  | root =>
      cases body with
      | nil => exact (other rfl).elim
      | cons first rest => rfl
  | here => rfl

/-- Components that a path can have are read from the path that is written of them. -/
theorem components_ofComponents (lead : IsLead components)
    (segments : ∀ component ∈ body, IsSegment component) :
    (ofComponents (components ++ body)).components = components ++ body := by
  by_cases empty : components ++ body = []
  · rw [empty]
    rfl
  by_cases root : components ++ body = [.root]
  · rw [root]
    decide
  have noSlash : ∀ component ∈ components ++ body, '/' ∉ component.text.toList := by
    intro component member
    rcases List.mem_append.mp member with front | later
    · exact lead.noSlash front
    · exact (segments component later).noSlash
  have parts : partsOf (components ++ body) = partsOf components ++ partsOf body := List.map_append
  rw [Path.components, componentsOf_eq, segmentsOf, splitOn_ofComponents empty root noSlash,
    lead.leadOf_partsOf segments root, parts, List.filterMap_append, lead.filterMap_partsOf,
    filterMap_partsOf segments, List.nil_append]

/-! ## The directory -/

/-- The components of the directory of a path are those of the path without the last one. -/
theorem components_of_parent? (outer : path.parent? = some directory) :
    ∃ last, path.components = directory.components ++ [last] := by
  have split : path.components = leadOf (path.text.toList.splitOn '/') ++
      segmentsOf path.text.toList := componentsOf_eq path.text.toList
  have lead := isLead_leadOf (path.text.toList.splitOn '/')
  have segments : ∀ component ∈ segmentsOf path.text.toList, IsSegment component :=
    fun _ => isSegment_of_mem
  generalize leadOf (path.text.toList.splitOn '/') = front at split lead
  generalize segmentsOf path.text.toList = body at split segments
  unfold parent? at outer
  rcases List.eq_nil_or_concat body with rfl | ⟨inner, last, rfl⟩
  · -- A path without segments lies in a directory only if it is the dot.
    rw [split] at outer ⊢
    cases lead with
    | nothing => cases outer
    | root => cases outer
    | here =>
        cases outer
        exact ⟨.here, rfl⟩
  · rw [List.concat_eq_append] at split segments
    obtain ⟨before, final⟩ := List.forall_mem_append.mp segments
    have written : ofComponents (front ++ inner) = directory := by
      rw [split, ← List.append_assoc, List.reverse_append] at outer
      have other := (final last (List.mem_singleton_self last)).ne_root
      cases last with
      | root => exact (other rfl).elim
      | here => simpa using outer
      | up => simpa using outer
      | name text => simpa using outer
    refine ⟨last, ?_⟩
    rw [split, ← written, components_ofComponents lead before, List.append_assoc]

/-- A path leads to the place of a base, below it, or on the way to it. -/
def Along (base path : Path) : Prop :=
  ∀ place, base.resolveFrom place <+: path.resolveFrom place ∨
    path.resolveFrom place <+: base.resolveFrom place

theorem Within.along (within : base.Within path) : base.Along path := fun place =>
  .inl (within place)

/-- A place from which one step leads below a base is below the base or on the way to it. -/
theorem suffix_of_descend (below : lower <:+ descend place component) :
    lower <:+ place ∨ place <:+ lower := by
  cases component with
  | root =>
      rw [List.suffix_nil.mp below]
      exact .inl List.nil_suffix
  | here => exact .inl below
  | up => exact .inl (below.trans (List.tail_suffix place))
  | name text =>
      rcases List.suffix_cons_iff.mp below with rfl | inner
      · exact .inr (List.suffix_cons text place)
      · exact .inl inner

/-- The directory of a path below a base lies below the base or on the way to it. -/
theorem along_of_parent? (within : base.Within path) (outer : path.parent? = some directory) :
    base.Along directory := by
  intro place
  obtain ⟨last, components⟩ := components_of_parent? outer
  have below := within place
  simp only [resolveFrom, components, List.foldl_append, List.foldl_cons, List.foldl_nil,
    List.reverse_prefix] at below ⊢
  exact suffix_of_descend below

end MapReplica.Path
