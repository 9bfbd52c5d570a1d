import Mathlib.Data.List.Forall2
import Mathlib.Data.List.Nodup
import MapReplica.Json.Record

/-!
# The fields that a record gives

An object gives the fields of its members, an array gives the first fields. A record is refused
for a member of another name, for a name that stands twice and for an item too many.
-/

namespace MapReplica.Json

variable {names needed : List String} {name : String} {members : List (String × Json)}
  {items : List Json} {fields : List (Option Json)} {value content : Json} {field : Option Json}

theorem distinct_iff : distinct names = true ↔ names.Nodup := by
  induction names with
  | nil => simp [distinct]
  | cons name rest ih => simp [distinct, ih, List.nodup_cons]

/-- Where no name stands twice, the last member of a name is the only one. -/
theorem lookup?_eq_some_iff (once : (members.map Prod.fst).Nodup) :
    lookup? name members = some content ↔ (name, content) ∈ members := by
  rw [lookup?, Option.map_eq_some_iff]
  constructor
  · rintro ⟨⟨other, _⟩, found, rfl⟩
    have same : other = name := by simpa using List.find?_some found
    subst same
    simpa using List.mem_of_find?_eq_some found
  · intro among
    have present : (members.reverse.find? (·.1 = name)).isSome = true := by
      rw [List.find?_isSome]
      exact ⟨(name, content), List.mem_reverse.mpr among, by simp⟩
    obtain ⟨found, last⟩ := Option.isSome_iff_exists.mp present
    have same : found.1 = name := by simpa using List.find?_some last
    have member := List.mem_reverse.mp (List.mem_of_find?_eq_some last)
    refine ⟨found, last, ?_⟩
    rw [List.inj_on_of_nodup_map once member among same]

/-- The fields that a value gives for names, in the order of the names. -/
inductive Fields (names : List String) : Json → List (Option Json) → Prop
  | object {members : List (String × Json)} {fields : List (Option Json)}
      (known : ∀ member ∈ members, member.1 ∈ names) (once : (members.map Prod.fst).Nodup)
      (given : List.Forall₂
        (fun name field => ∀ content, field = some content ↔ (name, content) ∈ members)
        names fields) :
      Fields names (.object members) fields
  | array {items : List Json} {missing : Nat} (all : items.length + missing = names.length) :
      Fields names (.array items) (items.map some ++ List.replicate missing none)

theorem given_iff (once : (members.map Prod.fst).Nodup) :
    List.Forall₂ (fun name field => ∀ content, field = some content ↔ (name, content) ∈ members)
      names fields ↔ names.map (fun name => lookup? name members) = fields := by
  have each (name : String) (field : Option Json) :
      (∀ content, field = some content ↔ (name, content) ∈ members) ↔
        lookup? name members = field := by
    simp only [← lookup?_eq_some_iff once]
    exact ⟨fun same => Option.ext fun content => (same content).symm, fun same _ => by rw [same]⟩
  simp only [each]
  rw [← List.forall₂_map_left_iff, List.forall₂_eq_eq_eq]

/-- The names of an object pass if there are no others and each stands once. -/
theorem admitted_iff :
    (distinct ((members.map (·.1)).filter names.contains) &&
      (false || ((members.map (·.1)).filter names.contains).length == members.length)) = true ↔
      (∀ member ∈ members, member.1 ∈ names) ∧ (members.map Prod.fst).Nodup := by
  have length : members.length = (members.map Prod.fst).length := by rw [List.length_map]
  rw [Bool.and_eq_true, Bool.false_or, beq_iff_eq, distinct_iff, length,
    List.length_filter_eq_length_iff, List.forall_mem_map]
  simp only [List.contains_iff_mem]
  constructor
  · rintro ⟨once, known⟩
    rw [List.filter_eq_self.mpr (by simpa using known)] at once
    exact ⟨known, once⟩
  · rintro ⟨known, once⟩
    exact ⟨once.filter _, known⟩

theorem fields?_object : fields? names false (.object members) = some fields ↔
    Fields names (.object members) fields := by
  rw [fields?, Option.ite_none_right_eq_some, admitted_iff, Option.some.injEq]
  constructor
  · rintro ⟨⟨known, once⟩, given⟩
    exact .object known once ((given_iff once).mpr given)
  · rintro ⟨known, once, given⟩
    exact ⟨⟨known, once⟩, (given_iff once).mp given⟩

/-- The items of a short array are the first fields. -/
theorem map_zipIdx {missing : Nat} (all : items.length + missing = names.length) :
    (names.zipIdx.map fun (_, i) => items[i]?) = items.map some ++ List.replicate missing none := by
  refine List.ext_getElem (by simp [all]) fun i _ _ => ?_
  by_cases given : i < items.length
  · simp [given]
  · rw [List.getElem_append_right (by simpa using given)]
    simp [given]

theorem fields?_array : fields? names false (.array items) = some fields ↔
    Fields names (.array items) fields := by
  rw [fields?, Option.ite_none_right_eq_some, Option.some.injEq]
  constructor
  · rintro ⟨short, rfl⟩
    have all := Nat.add_sub_of_le short
    rw [map_zipIdx all]
    exact .array all
  · intro given
    cases given with
    | array all => exact ⟨by omega, map_zipIdx all⟩

/-- A record is read exactly as the fields that it gives. -/
theorem fields?_eq_some_iff :
    fields? names false value = some fields ↔ Fields names value fields := by
  cases value with
  | object members => exact fields?_object
  | array items => exact fields?_array
  | _ =>
      constructor
      · intro read
        cases read
      · intro given
        cases given

/-! ## Fields that may be missing -/

/-- A field that may be missing or `null` gives a value or none. -/
inductive Optional {α : Type} (Means : Json → α → Prop) : Option Json → Option α → Prop
  | missing : Optional Means none none
  | null : Optional Means (some .null) none
  | given {value : Json} {meaning : α} (means : Means value meaning) :
      Optional Means (some value) (some meaning)

theorem optional_eq_some_iff {α : Type} {Means : Json → α → Prop} {read : Json → Option α}
    {found : Option α} (means : ∀ value meaning, read value = some meaning ↔ Means value meaning)
    (noNull : read .null = none) :
    optional read field = some found ↔ Optional Means field found := by
  constructor
  · intro optionally
    unfold optional at optionally
    split at optionally
    case h_1 =>
      cases optionally
      exact .missing
    case h_2 =>
      cases optionally
      exact .null
    case h_3 value _ =>
      obtain ⟨meaning, given, rfl⟩ := Option.map_eq_some_iff.mp optionally
      exact .given ((means value meaning).mp given)
  · rintro (_ | _ | given)
    case missing => rfl
    case null => rfl
    case given value meaning =>
      have read := (means value meaning).mpr given
      have other : value ≠ .null := by
        rintro rfl
        cases noNull.symm.trans read
      simp [optional, read]

/-! ## Faults of objects -/

/-- What a strict object is refused for. -/
inductive Faulty (names needed : List String) (members : List (String × Json)) : Prop
  | unknown {member : String × Json} (among : member ∈ members) (other : member.1 ∉ names)
  | repeated (twice : ¬ (members.map Prod.fst).Nodup)
  | missing {name : String} (need : name ∈ needed) (absent : ∀ member ∈ members, member.1 ≠ name)

/-- A field of an object is what the member of its name holds. -/
theorem Fields.mem_iff (given : Fields names (.object members) fields)
    (named : (name, field) ∈ names.zip fields) :
    field = some content ↔ (name, content) ∈ members := by
  cases given with
  | object _ _ given => exact (List.forall₂_iff_zip.mp given).2 named content

/-- A field of an array is the item at its place. -/
theorem Fields.getElem?_eq {i : Nat} (given : Fields names (.array items) fields)
    (place : i < names.length) : fields[i]? = some items[i]? := by
  cases given with
  | array all =>
      by_cases among : i < items.length
      · rw [List.getElem?_append_left (by simpa using among)]
        simp [among]
      · rw [List.getElem?_append_right (by simpa using among)]
        rw [List.length_map, List.getElem?_replicate, if_pos (by omega),
          List.getElem?_eq_none (by omega)]

/-- An object whose fields are read is not faulty, unless a field that is needed is missing. -/
theorem Fields.not_faulty (given : Fields names (.object members) fields)
    (present : ∀ name ∈ needed, ∃ content, (name, some content) ∈ names.zip fields) :
    ¬ Faulty names needed members := by
  intro faulty
  cases faulty with
  | unknown among other =>
      cases given with
      | object known => exact other (known _ among)
  | repeated twice =>
      cases given with
      | object _ once => exact twice once
  | missing need absent =>
      obtain ⟨content, named⟩ := present _ need
      exact absent _ ((given.mem_iff named).mp rfl) rfl

end MapReplica.Json
