import MapReplica.Proofs.Path.Places
import Mathlib.Data.Set.Finite.Basic

/-!
# Walks that stay below their start

A part of a path is followed from the place of its base, one component after the other.
It leads to a place at or below the base, whatever the base is, exactly if it does not
start at the root and never goes up further than it went down before.
-/

namespace MapReplica.Path

variable {base path : Path} {part name : String} {text : List Char} {components : List Component}
  {place lower stack : List String}

/-- A path leads to the place of a base or below it, wherever the program runs. -/
def Within (base path : Path) : Prop :=
  ∀ directory, base.resolveFrom directory <+: path.resolveFrom directory

theorem Within.trans {middle : Path} (first : base.Within middle) (second : middle.Within path) :
    base.Within path := fun directory => (first directory).trans (second directory)

/-- A file with a plain name lies below its directory. -/
theorem within_join_plain (base : Path) (plain : IsPlain name) : base.Within (base.join name) := by
  intro directory
  rw [resolveFrom_join plain]
  exact List.prefix_append ..

/-- Whether components never lead above the start of a walk that is some levels below it. -/
def staysBelow : Nat → List Component → Bool
  | _, [] => true
  | _, .root :: _ => false
  | depth, .here :: rest => staysBelow depth rest
  | 0, .up :: _ => false
  | depth + 1, .up :: rest => staysBelow depth rest
  | depth, .name _ :: rest => staysBelow (depth + 1) rest

/-- A part of a path that leads to its start or below it. -/
def Descends (part : String) : Prop :=
  staysBelow 0 (componentsOf part.toList) = true

instance (part : String) : Decidable (Descends part) :=
  inferInstanceAs (Decidable (_ = true))

/-! ## Parts behind a base -/

/-- A dot at the front leads nowhere. -/
theorem foldl_componentsOf (relative : startsAtRoot text = false) (place : List String) :
    (componentsOf text).foldl descend place = (segmentsOf text).foldl descend place := by
  simp only [componentsOf, relative]
  split
  case isTrue root => cases root
  case isFalse =>
    split
    case isTrue => rfl
    case isFalse => rfl

theorem staysBelow_componentsOf (relative : startsAtRoot text = false) (depth : Nat) :
    staysBelow depth (componentsOf text) = staysBelow depth (segmentsOf text) := by
  simp only [componentsOf, relative]
  split
  case isTrue root => cases root
  case isFalse =>
    split
    case isTrue => rfl
    case isFalse => rfl

theorem components_join_relative (relative : startsAtRoot part.toList = false)
    (nonempty : base.text.toList ≠ []) :
    (base.join part).components = base.components ++ segmentsOf part.toList := by
  obtain ⟨front, last, ends⟩ := (List.eq_nil_or_concat base.text.toList).resolve_left nonempty
  rw [List.concat_eq_append] at ends
  unfold join Path.components
  rw [relative]
  by_cases slash : last = '/'
  · subst slash
    simpa [ends] using componentsOf_slash_append front part.toList
  · have joined := componentsOf_slash_append (front ++ [last]) part.toList
    rw [componentsOf_slash (by simp)] at joined
    simpa [ends, slash] using joined

theorem foldl_join (relative : startsAtRoot part.toList = false) (place : List String) :
    (base.join part).components.foldl descend place =
      (segmentsOf part.toList).foldl descend (base.components.foldl descend place) := by
  by_cases empty : base.text.toList = []
  · have nothing : base.components = [] := by
      rw [Path.components, empty]
      rfl
    have alone : (base.join part).components = componentsOf part.toList := by
      simp [join, Path.components, relative, empty]
    rw [alone, nothing, foldl_componentsOf relative]
    rfl
  · rw [components_join_relative relative empty, List.foldl_append]

/-- An absolute part is followed from the root. -/
theorem foldl_join_absolute (absolute : startsAtRoot part.toList = true) (place : List String) :
    (base.join part).components.foldl descend place =
      (segmentsOf part.toList).foldl descend [] := by
  simp [join, Path.components, componentsOf, segmentsOf, absolute, descend]

/-! ## Walks that stay below -/

/-- A walk that stays below its start ends below it. -/
theorem suffix_of_staysBelow (lower : List String)
    (stays : staysBelow lower.length components = true) :
    stack <:+ components.foldl descend (lower ++ stack) := by
  induction components generalizing lower with
  | nil => exact List.suffix_append lower stack
  | cons component rest ih =>
      cases component with
      | root => cases stays
      | here => exact ih lower stays
      | up =>
          cases lower with
          | nil => cases stays
          | cons inner outer => exact ih outer stays
      | name text => exact ih (text :: lower) stays

/-- A part that descends leads to the place of its base or below it, whatever the base is. -/
theorem within_join (base : Path) (descends : Descends part) : base.Within (base.join part) := by
  intro directory
  have relative : startsAtRoot part.toList = false := by
    cases absolute : startsAtRoot part.toList with
    | false => rfl
    | true => simp [Descends, componentsOf, absolute, staysBelow] at descends
  rw [Descends, staysBelow_componentsOf relative] at descends
  rw [resolveFrom, resolveFrom, foldl_join relative, List.reverse_prefix]
  exact suffix_of_staysBelow [] descends

/-! ## Keys behind a part -/

/-- Components that neither start at the root nor go up. -/
def IsLevel (components : List Component) : Prop :=
  ∀ component ∈ components, component ≠ .root ∧ component ≠ .up

theorem staysBelow_level (level : IsLevel components) (depth : Nat) :
    staysBelow depth components = true := by
  induction components generalizing depth with
  | nil => rfl
  | cons component rest ih =>
      obtain ⟨own, others⟩ := List.forall_mem_cons.mp level
      cases component with
      | root => exact (own.1 rfl).elim
      | here => exact ih others depth
      | up => exact (own.2 rfl).elim
      | name text => exact ih others (depth + 1)

/-- Whether a walk stays below its start is not changed by going on without going up. -/
theorem staysBelow_append {more : List Component} (level : IsLevel more) (depth : Nat) :
    staysBelow depth (components ++ more) = staysBelow depth components := by
  induction components generalizing depth with
  | nil => exact staysBelow_level level depth
  | cons component rest ih =>
      cases component with
      | root => rfl
      | here => exact ih depth
      | up =>
          cases depth with
          | zero => rfl
          | succ depth => exact ih depth
      | name text => exact ih (depth + 1)

/-- A key that does not go up, behind a part and a slash, descends exactly if the part does. -/
theorem descends_slash_iff {key : String} (level : IsLevel (segmentsOf key.toList)) :
    Descends (part ++ "/" ++ key) ↔ part ≠ "" ∧ Descends part := by
  have text : (part ++ "/" ++ key).toList = part.toList ++ '/' :: key.toList := by simp
  unfold Descends
  rw [text, componentsOf_slash_append, staysBelow_append level]
  by_cases empty : part = ""
  · -- Behind an empty part the slash is the root.
    subst empty
    simp [componentsOf, startsAtRoot, staysBelow]
  · have nonempty : part.toList ≠ [] := by simpa using empty
    rw [componentsOf_slash nonempty]
    simp [empty]

/-! ## Walks that leave -/

/-- A walk goes through the names of its components only. -/
theorem not_mem_foldl (fresh : .name name ∉ components) (absent : name ∉ stack) :
    name ∉ components.foldl descend stack := by
  induction components generalizing stack with
  | nil => exact absent
  | cons component rest ih =>
      have other := List.ne_of_not_mem_cons fresh
      have later := List.not_mem_of_not_mem_cons fresh
      refine ih later ?_
      cases component with
      | root => exact List.not_mem_nil
      | here => exact absent
      | up => exact fun member => absent (List.mem_of_mem_tail member)
      | name text =>
          refine List.not_mem_cons_of_ne_of_not_mem ?_ absent
          rintro rfl
          exact other rfl

/-- A walk that leaves its start does not come back to a start whose name it does not know. -/
theorem not_mem_of_leaves (lower : List String) (fresh : .name name ∉ components)
    (leaves : staysBelow lower.length components = false) (absent : name ∉ lower) :
    name ∉ components.foldl descend (lower ++ [name]) := by
  induction components generalizing lower with
  | nil => cases leaves
  | cons component rest ih =>
      have other := List.ne_of_not_mem_cons fresh
      have later := List.not_mem_of_not_mem_cons fresh
      cases component with
      | root =>
          rw [List.foldl_cons]
          exact not_mem_foldl later List.not_mem_nil
      | here => exact ih lower later leaves absent
      | up =>
          cases lower with
          | nil =>
              rw [List.foldl_cons]
              exact not_mem_foldl later List.not_mem_nil
          | cons inner outer => exact ih outer later leaves (List.not_mem_of_not_mem_cons absent)
      | name text =>
          refine ih (text :: lower) later leaves
            (List.not_mem_cons_of_ne_of_not_mem ?_ absent)
          rintro rfl
          exact other rfl

/-- Names of any length. -/
def nameOfLength (length : Nat) : String :=
  String.ofList (List.replicate (length + 1) 'k')

theorem isPlain_nameOfLength (length : Nat) : IsPlain (nameOfLength length) := by
  have text : (nameOfLength length).toList = 'k' :: List.replicate length 'k' :=
    String.toList_ofList
  constructor
  · rw [nameOfLength, String.toList_ofList]
    intro member
    cases List.eq_of_mem_replicate member
  · simp [text]
  · simp [text]
  · simp [text]

theorem nameOfLength_injective : Function.Injective nameOfLength := by
  intro first second same
  have lengths := congrArg List.length (String.ofList_injective same)
  simpa using lengths

/-- Some plain name is not among given components. -/
theorem exists_fresh (components : List Component) :
    ∃ name, IsPlain name ∧ .name name ∉ components := by
  have injective : Function.Injective fun length => Component.name (nameOfLength length) := by
    intro first second same
    exact nameOfLength_injective (Component.name.inj same)
  obtain ⟨_, ⟨length, rfl⟩, fresh⟩ :=
    (Set.infinite_range_of_injective injective).exists_notMem_finset components.toFinset
  exact ⟨nameOfLength length, isPlain_nameOfLength length, by simpa using fresh⟩

/-- A part that does not descend leads out of some base. -/
theorem exists_not_within (leaves : ¬ Descends part) :
    ∃ base : Path, ¬ base.Within (base.join part) := by
  obtain ⟨name, plain, fresh⟩ := exists_fresh (segmentsOf part.toList)
  have start (place : List String) :
      ((⟨"/"⟩ : Path).join name).components.foldl descend place = [name] := by
    have root : (⟨"/"⟩ : Path).components = [.root] := by decide
    rw [components_join plain, root]
    rfl
  refine ⟨(⟨"/"⟩ : Path).join name, fun within => ?_⟩
  have inside := within []
  rw [resolveFrom, resolveFrom, List.reverse_prefix, start] at inside
  have member : name ∈ (((⟨"/"⟩ : Path).join name).join part).components.foldl descend [] :=
    inside.subset (List.mem_singleton_self name)
  cases absolute : startsAtRoot part.toList with
  | true =>
      rw [foldl_join_absolute absolute] at member
      exact not_mem_foldl fresh List.not_mem_nil member
  | false =>
      rw [foldl_join absolute, start] at member
      refine not_mem_of_leaves [] fresh ?_ List.not_mem_nil member
      rw [Descends, staysBelow_componentsOf absolute] at leaves
      simpa using leaves

/-- A part leads to its base or below it, whatever the base is, exactly if it descends. -/
theorem descends_iff_within : Descends part ↔ ∀ base : Path, base.Within (base.join part) := by
  constructor
  · intro descends base
    exact within_join base descends
  · intro within
    by_contra leaves
    obtain ⟨base, outside⟩ := exists_not_within leaves
    exact outside (within base)

example : Descends "town/../lakes" ∧ ¬ Descends "town/../../lakes" ∧ ¬ Descends "/town" := by
  decide

end MapReplica.Path
