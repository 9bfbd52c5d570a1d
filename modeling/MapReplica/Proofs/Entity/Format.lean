import MapReplica.Entity.Format
import MapReplica.Proofs.Entity.Checking
import MapReplica.Proofs.Json.Record
import MapReplica.Proofs.Json.RoundTrip

/-!
# Configurations of entities

What a JSON value says about zooms and entities is stated as a relation, and the reading agrees
with it. Usable entities are read back from what is written for them, and whatever is read is
usable. Objects with unknown, repeated or missing members are refused.
-/

namespace MapReplica

open Json (Fields Optional Faulty)

/-- A value is a whole number of eight bits. -/
def IsOctet (value : Json) (n : Nat) : Prop :=
  value = .integer n ∧ n < 256

theorem natural?_eq_some_iff {value : Json} {n : Nat} :
    value.natural? = some n ↔ value = .integer n := by
  constructor
  · intro read
    unfold Json.natural? at read
    split at read
    case h_1 => cases read; rfl
    case h_2 => cases read
  · rintro rfl
    rfl

theorem octet?_eq_some_iff (value : Json) (n : Nat) : value.octet? = some n ↔ IsOctet value n := by
  rw [Json.octet?, Option.filter_eq_some_iff, decide_eq_true_eq, natural?_eq_some_iff, IsOctet]

theorem text?_eq_some_iff (value : Json) (content : String) :
    value.text? = some content ↔ value = .text content := by
  cases value <;> simp [Json.text?]

namespace ZoomLevels

/-- A value gives zooms, of which the upper end may be left out. -/
def Describes (value : Json) (levels : ZoomLevels) : Prop :=
  ∃ min max, Fields ["min", "max"] value [some min, max] ∧ IsOctet min levels.min ∧
    Optional IsOctet max levels.max

theorem ofJson?_eq_some_iff (value : Json) (levels : ZoomLevels) :
    ofJson? value = some levels ↔ Describes value levels := by
  constructor
  · intro read
    obtain ⟨fields, given, read⟩ := Option.bind_eq_some_iff.mp read
    split at read
    case h_2 => cases read
    case h_1 min max =>
      obtain ⟨least, needed, read⟩ := Option.bind_eq_some_iff.mp read
      obtain ⟨greatest, upper, read⟩ := Option.bind_eq_some_iff.mp read
      cases read
      obtain ⟨min, rfl, lower⟩ := Option.bind_eq_some_iff.mp needed
      exact ⟨min, max, Json.fields?_eq_some_iff.mp given, (octet?_eq_some_iff _ _).mp lower,
        (Json.optional_eq_some_iff octet?_eq_some_iff rfl).mp upper⟩
  · rintro ⟨min, max, given, lower, upper⟩
    simp [ofJson?, Json.required, Json.fields?_eq_some_iff.mpr given,
      (octet?_eq_some_iff _ _).mpr lower,
      (Json.optional_eq_some_iff octet?_eq_some_iff rfl).mpr upper]

end ZoomLevels

namespace Entity

variable {content : String} {value item : Json} {items : List Json} {entity : Entity}
  {entities : List Entity} {members zooms : List (String × Json)}

/-- A value gives an entity, of which the zooms and the area may be left out. -/
def Describes (value : Json) (entity : Entity) : Prop :=
  ∃ zoomLevels areaKey,
    Fields ["id", "script", "zoomLevel", "geometryKey"] value
      [some (.text entity.id), some (.text entity.script), zoomLevels, areaKey] ∧
    Optional ZoomLevels.Describes zoomLevels entity.zoomLevels ∧
    Optional (fun value key => value = .text key) areaKey entity.areaKey

theorem ofJson?_eq_some_iff (value : Json) (entity : Entity) :
    ofJson? value = some entity ↔ Describes value entity := by
  constructor
  · intro read
    obtain ⟨fields, given, read⟩ := Option.bind_eq_some_iff.mp read
    split at read
    case h_2 => cases read
    case h_1 id script zoomLevels areaKey =>
      obtain ⟨_, named, read⟩ := Option.bind_eq_some_iff.mp read
      obtain ⟨_, scripted, read⟩ := Option.bind_eq_some_iff.mp read
      obtain ⟨levels, zooms, read⟩ := Option.bind_eq_some_iff.mp read
      obtain ⟨key, area, read⟩ := Option.bind_eq_some_iff.mp read
      cases read
      obtain ⟨_, rfl, named⟩ := Option.bind_eq_some_iff.mp named
      obtain ⟨_, rfl, scripted⟩ := Option.bind_eq_some_iff.mp scripted
      obtain rfl := (text?_eq_some_iff _ _).mp named
      obtain rfl := (text?_eq_some_iff _ _).mp scripted
      exact ⟨zoomLevels, areaKey, Json.fields?_eq_some_iff.mp given,
        (Json.optional_eq_some_iff ZoomLevels.ofJson?_eq_some_iff rfl).mp zooms,
        (Json.optional_eq_some_iff text?_eq_some_iff rfl).mp area⟩
  · rintro ⟨zoomLevels, areaKey, given, zooms, area⟩
    simp [ofJson?, Json.required, Json.text?, Json.fields?_eq_some_iff.mpr given,
      (Json.optional_eq_some_iff ZoomLevels.ofJson?_eq_some_iff rfl).mpr zooms,
      (Json.optional_eq_some_iff text?_eq_some_iff rfl).mpr area]

theorem mapM_ofJson?_eq_some_iff :
    items.mapM ofJson? = some entities ↔ List.Forall₂ Describes items entities := by
  induction items generalizing entities with
  | nil =>
      rw [List.mapM_nil, List.forall₂_nil_left_iff]
      exact ⟨fun same => (Option.some.inj same).symm, fun same => same ▸ rfl⟩
  | cons item rest ih =>
      rw [List.mapM_cons]
      constructor
      · intro read
        obtain ⟨entity, first, read⟩ := Option.bind_eq_some_iff.mp read
        obtain ⟨others, later, read⟩ := Option.bind_eq_some_iff.mp read
        cases read
        exact .cons ((ofJson?_eq_some_iff item entity).mp first) (ih.mp later)
      · rintro (_ | ⟨first, later⟩)
        simp [(ofJson?_eq_some_iff _ _).mpr first, ih.mpr later]

theorem listOfJson?_eq_some_iff : listOfJson? value = some entities ↔
    ∃ items, value = .array items ∧ List.Forall₂ Describes items entities := by
  cases value with
  | array items =>
      refine mapM_ofJson?_eq_some_iff.trans ⟨fun each => ⟨items, rfl, each⟩, ?_⟩
      rintro ⟨_, ⟨⟩, each⟩
      exact each
  | _ =>
      constructor
      · intro read
        cases read
      · rintro ⟨_, ⟨⟩, _⟩

/-- A value gives entities if each item of its array describes one and they are usable. -/
theorem decode_eq_ok_iff : decode value = .ok entities ↔
    (∃ items, value = .array items ∧ List.Forall₂ Describes items entities) ∧ Usable entities := by
  rw [← listOfJson?_eq_some_iff, ← check_eq_ok_iff, decode]
  cases listOfJson? value with
  | none => simp
  | some found =>
      cases passed : check found with
      | error fault =>
          simp only [passed, Option.some.injEq, reduceCtorEq, false_iff, not_and]
          rintro rfl checked
          cases passed.symm.trans checked
      | ok nothing =>
          simp only [passed, Option.some.injEq, Except.ok.injEq]
          exact ⟨fun same => ⟨same, same ▸ passed⟩, And.left⟩

/-- A configuration gives entities if its array describes them and they are usable. -/
theorem parse_eq_ok_iff : parse content = .ok entities ↔
    (∃ items, Json.read? content = some (.array items) ∧ List.Forall₂ Describes items entities) ∧
      Usable entities := by
  rw [parse]
  cases Json.read? content with
  | none => simp
  | some value => simp only [decode_eq_ok_iff, Option.some.injEq]

/-! ## Written configurations -/

/-- Zooms are described by what is written for them. -/
theorem describes_zooms {levels : ZoomLevels} (lower : levels.min < 256)
    (upper : ∀ max ∈ levels.max, max < 256) : ZoomLevels.Describes levels.toJson levels := by
  obtain ⟨min, max⟩ := levels
  cases max with
  | none =>
      refine ⟨.integer min, none, ?_, ⟨rfl, lower⟩, .missing⟩
      rw [← Json.fields?_eq_some_iff]
      rfl
  | some max =>
      refine ⟨.integer min, some (.integer max), ?_, ⟨rfl, lower⟩, .given ⟨rfl, upper max rfl⟩⟩
      rw [← Json.fields?_eq_some_iff]
      rfl

/-- An entity is described by what is written for it. -/
theorem describes_toJson
    (small : ∀ levels ∈ entity.zoomLevels, levels.min < 256 ∧ ∀ max ∈ levels.max, max < 256) :
    Describes entity.toJson entity := by
  obtain ⟨id, script, zoomLevels, areaKey⟩ := entity
  refine ⟨zoomLevels.map ZoomLevels.toJson, areaKey.map .text, ?_, ?_, ?_⟩
  · rw [← Json.fields?_eq_some_iff]
    cases zoomLevels <;> cases areaKey <;> rfl
  · cases zoomLevels with
    | none => exact .missing
    | some levels => exact .given (describes_zooms (small levels rfl).1 (small levels rfl).2)
  · cases areaKey with
    | none => exact .missing
    | some key => exact .given rfl

theorem Sound.small (sound : Sound entity) :
    ∀ levels ∈ entity.zoomLevels, levels.min < 256 ∧ ∀ max ∈ levels.max, max < 256 := by
  intro levels given
  obtain ⟨ordered, small⟩ := sound.zooms levels given
  refine ⟨by omega, fun max upper => ?_⟩
  rw [ZoomLevels.upper, Option.mem_def.mp upper, Option.getD_some] at small
  omega

theorem legible_zooms {levels : ZoomLevels} {depth : Nat} (lower : levels.min < 256)
    (upper : ∀ max ∈ levels.max, max < 256) : Json.Legible (depth + 1) levels.toJson := by
  have small {n : Nat} (octet : n < 256) : Json.Legible depth (.integer n) :=
    .natural (Nat.le_trans octet.le (by decide))
  refine .object fun member among => ?_
  rcases List.mem_cons.mp among with rfl | among
  · exact small lower
  · obtain ⟨max, given, rfl⟩ := List.mem_map.mp among
    exact small (upper max (Option.mem_toList.mp given))

theorem legible_toJson {depth : Nat}
    (small : ∀ levels ∈ entity.zoomLevels, levels.min < 256 ∧ ∀ max ∈ levels.max, max < 256) :
    Json.Legible (depth + 2) entity.toJson := by
  refine .object fun member among => ?_
  rcases List.mem_append.mp among with front | area
  · rcases List.mem_cons.mp front with rfl | front
    · exact .text entity.id
    rcases List.mem_cons.mp front with rfl | zooms
    · exact .text entity.script
    · obtain ⟨levels, given, rfl⟩ := List.mem_map.mp zooms
      obtain ⟨lower, upper⟩ := small levels (Option.mem_toList.mp given)
      exact legible_zooms lower upper
  · obtain ⟨key, -, rfl⟩ := List.mem_map.mp area
    exact .text key

/-- What is written for usable entities is read back as a value. -/
theorem read?_listToJson (usable : Usable entities) :
    Json.read? (listToJson entities).write = some (listToJson entities) := by
  have legible : Json.Legible (124 + 3) (listToJson entities) := by
    refine .array fun item among => ?_
    obtain ⟨entity, member, rfl⟩ := List.mem_map.mp among
    exact legible_toJson (usable.sound entity member).small
  exact Json.read?_write legible

/-- Usable entities are read from any text of the value that is written for them. -/
theorem parse_of_listToJson (usable : Usable entities)
    (read : Json.read? content = some (listToJson entities)) : parse content = .ok entities := by
  refine parse_eq_ok_iff.mpr ⟨⟨entities.map toJson, read, ?_⟩, usable⟩
  rw [List.forall₂_map_left_iff, List.forall₂_same]
  exact fun entity member => describes_toJson (usable.sound entity member).small

/-! ## Refused configurations -/

/-- An item with an object at fault: the entity itself, or its zooms by name or by place. -/
inductive Refused : Json → Prop
  | entity {members : List (String × Json)}
      (faulty : Faulty ["id", "script", "zoomLevel", "geometryKey"] ["id", "script"] members) :
      Refused (.object members)
  | zooms {members zooms : List (String × Json)} (among : ("zoomLevel", .object zooms) ∈ members)
      (faulty : Faulty ["min", "max"] ["min"] zooms) : Refused (.object members)
  | zoomsInPlace {items : List Json} {zooms : List (String × Json)}
      (third : items[2]? = some (.object zooms)) (faulty : Faulty ["min", "max"] ["min"] zooms) :
      Refused (.array items)

theorem not_describes_zooms {levels : Option ZoomLevels}
    (faulty : Faulty ["min", "max"] ["min"] zooms) :
    ¬ Optional ZoomLevels.Describes (some (.object zooms)) levels := by
  rintro (_ | _ | ⟨min, max, given, -⟩)
  exact given.not_faulty (by simp) faulty

theorem Refused.not_describes (refused : Refused item) : ¬ Describes item entity := by
  rintro ⟨zoomLevels, areaKey, given, described, -⟩
  cases refused with
  | entity faulty => exact given.not_faulty (by simp) faulty
  | zooms among faulty =>
      have named : zoomLevels = some (.object _) := (given.mem_iff (by simp)).mpr among
      exact not_describes_zooms faulty (named ▸ described)
  | zoomsInPlace third faulty =>
      have placed : some zoomLevels = some _ := given.getElem?_eq (i := 2) (by decide)
      rw [third, Option.some.injEq] at placed
      exact not_describes_zooms faulty (placed ▸ described)

/-- A configuration with an item at fault is malformed, whatever its other items are. -/
theorem parse_refused (read : Json.read? content = some (.array items)) (among : item ∈ items)
    (refused : Refused item) : parse content = .error .malformed := by
  have unread : listOfJson? (.array items) = none := by
    rw [Option.eq_none_iff_forall_ne_some]
    intro entities listed
    obtain ⟨_, ⟨⟩, each⟩ := listOfJson?_eq_some_iff.mp listed
    obtain ⟨⟨i, inside⟩, rfl⟩ := List.mem_iff_get.mp among
    exact refused.not_describes (each.get inside (each.length_eq ▸ inside))
  simp [parse, read, decode, unread]

/-! ## What configurations are accepted -/

/--
Usable entities are read back from what is written for them. A configuration is accepted exactly
if the items of its array describe entities and these are usable, as the check decides. An object
with an unknown, a repeated or a missing member is refused at either level.
-/
theorem configurations_read_exactly :
    (∀ entities, check entities = .ok () →
      parse (listToJson entities).write = .ok entities ∧
        ∀ content, Json.read? content = some (listToJson entities) →
          parse content = .ok entities) ∧
    (∀ entities, check entities = .ok () ↔ Usable entities) ∧
    (∀ content entities, parse content = .ok entities ↔
      (∃ items, Json.read? content = some (.array items) ∧
        List.Forall₂ Describes items entities) ∧ Usable entities) ∧
    ∀ content items item, Json.read? content = some (.array items) → item ∈ items →
      Refused item → parse content = .error .malformed := by
  refine ⟨fun entities checked => ?_, fun _ => check_eq_ok_iff, fun _ _ => parse_eq_ok_iff,
    fun _ _ _ => parse_refused⟩
  have usable := check_eq_ok_iff.mp checked
  exact ⟨parse_of_listToJson usable (read?_listToJson usable), fun _ => parse_of_listToJson usable⟩

/-- Entities with marks, quotes and control characters in their texts, and zooms at the ends. -/
def oddEntities : List Entity :=
  [{ id := "a \"b\"\n,", script := "./styles/roads.lua", zoomLevels := some ⟨0, some 20⟩,
     areaKey := some "geo\\\t.json" },
   { id := ".", script := ".", zoomLevels := some ⟨20, none⟩, areaKey := none }]

/-- Zooms with an upper end only. -/
def openZooms : List (String × Json) := [("max", .integer 5)]

/-- An entity with such zooms. -/
def openEntity : Json :=
  .object [("id", .text "a"), ("script", .text "a.lua"), ("zoomLevel", .object openZooms)]

theorem oddEntities_read_back :
    parse (listToJson oddEntities).write = .ok oddEntities ∧
      parse (Json.array [openEntity]).write = .error .malformed := by
  have faulty : Faulty ["min", "max"] ["min"] openZooms :=
    .missing (List.mem_singleton_self "min") (by simp [openZooms])
  have refused : Refused openEntity := .zooms (by simp) faulty
  exact ⟨(configurations_read_exactly.1 oddEntities rfl).1,
    configurations_read_exactly.2.2.2 _ _ _ rfl List.mem_cons_self refused⟩

end Entity

end MapReplica
