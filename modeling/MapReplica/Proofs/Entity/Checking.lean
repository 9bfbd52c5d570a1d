import Mathlib.Data.List.Nodup
import MapReplica.Entity.Basic

/-!
# Usable entities

The check of a list of entities lets exactly the usable lists pass. It stops at the first fault,
and it knows the ids of the entities before the one that it looks at.
-/

namespace MapReplica.Entity

variable {id key : String} {earlier : List String} {entity : Entity} {entities : List Entity}
  {levels : ZoomLevels}

/-- An entity that is usable by itself. -/
structure Sound (entity : Entity) : Prop where
  named : entity.id ≠ ""
  single : '/' ∉ entity.id.toList ∧ '\\' ∉ entity.id.toList
  notUp : entity.id ≠ ".."
  scripted : entity.script ≠ ""
  nested : Path.Component.root ∉ Path.componentsOf entity.script.toList ∧
    Path.Component.up ∉ Path.componentsOf entity.script.toList
  zooms : ∀ levels ∈ entity.zoomLevels, levels.min ≤ levels.upper ∧ levels.upper ≤ 20

/-- A list of entities that is usable: there are some, and their ids are different. -/
structure Usable (entities : List Entity) : Prop where
  some : entities ≠ []
  distinct : (entities.map Entity.id).Nodup
  sound : ∀ entity ∈ entities, Sound entity

/-- A check that refuses for a reason passes if the reason does not hold and the rest passes. -/
theorem refuses_eq_ok_iff {reason : Prop} [Decidable reason] {fault : Fault}
    {rest : Except Fault Unit} :
    (if reason then .error fault else rest) = .ok () ↔ ¬ reason ∧ rest = .ok () := by
  split
  case isTrue holds => simp [holds]
  case isFalse fails => simp [fails]

theorem isPlainId_iff : isPlainId id = true ↔ ('/' ∉ id.toList ∧ '\\' ∉ id.toList) ∧ id ≠ ".." := by
  rw [isPlainId, Bool.and_eq_true, Bool.not_eq_true', List.any_eq_false, bne_iff_ne]
  simp only [Bool.or_eq_true, beq_iff_eq, not_or, imp_and, forall_and]
  exact and_congr_left' (and_congr List.forall_mem_ne' List.forall_mem_ne')

theorem isNestedKey_iff : isNestedKey key = true ↔
    Path.Component.root ∉ Path.componentsOf key.toList ∧
      Path.Component.up ∉ Path.componentsOf key.toList := by
  rw [isNestedKey, List.all_eq_true]
  constructor
  · intro inside
    exact ⟨fun root => Bool.false_ne_true (inside .root root),
      fun up => Bool.false_ne_true (inside .up up)⟩
  · rintro ⟨noRoot, noUp⟩ component among
    cases component with
    | root => exact absurd among noRoot
    | up => exact absurd among noUp
    | here => rfl
    | name => rfl

theorem checkZooms_eq_ok_iff :
    checkZooms id levels = .ok () ↔ levels.min ≤ levels.upper ∧ levels.upper ≤ 20 := by
  rw [checkZooms, refuses_eq_ok_iff, refuses_eq_ok_iff, greatestZoom]
  constructor
  · rintro ⟨small, ordered, -⟩
    omega
  · rintro ⟨ordered, small⟩
    exact ⟨by omega, by omega, rfl⟩

/-- An entity passes if its id is new and it is usable by itself. -/
theorem checkOne_eq_ok_iff :
    checkOne earlier entity = .ok () ↔ entity.id ∉ earlier ∧ Sound entity := by
  obtain ⟨id, script, zoomLevels, areaKey⟩ := entity
  simp only [checkOne, refuses_eq_ok_iff, String.isEmpty_iff, Bool.not_eq_true',
    Bool.not_eq_false, isPlainId_iff, isNestedKey_iff]
  constructor
  · rintro ⟨named, fresh, ⟨single, notUp⟩, scripted, nested, passed⟩
    refine ⟨fresh, named, single, notUp, scripted, nested, ?_⟩
    rintro levels ⟨⟩
    exact checkZooms_eq_ok_iff.mp passed
  · rintro ⟨fresh, named, single, notUp, scripted, nested, within⟩
    refine ⟨named, fresh, ⟨single, notUp⟩, scripted, nested, ?_⟩
    cases zoomLevels with
    | none => rfl
    | some levels => exact checkZooms_eq_ok_iff.mpr (within levels rfl)

theorem checkEach_cons_eq_ok_iff : checkEach earlier (entity :: entities) = .ok () ↔
    checkOne earlier entity = .ok () ∧ checkEach (entity.id :: earlier) entities = .ok () := by
  rw [checkEach]
  cases checkOne earlier entity with
  | error fault =>
      constructor
      · intro refused
        cases refused
      · rintro ⟨refused, -⟩
        cases refused
  | ok nothing => exact ⟨fun others => ⟨rfl, others⟩, And.right⟩

/-- Entities pass if their ids are different and new and each is usable by itself. -/
theorem checkEach_eq_ok_iff : checkEach earlier entities = .ok () ↔
    (entities.map Entity.id).Nodup ∧ ∀ entity ∈ entities, entity.id ∉ earlier ∧ Sound entity := by
  induction entities generalizing earlier with
  | nil => simp [checkEach]
  | cons entity rest ih =>
      rw [checkEach_cons_eq_ok_iff, checkOne_eq_ok_iff, ih, List.map_cons, List.nodup_cons,
        List.forall_mem_cons, List.mem_map]
      constructor
      · rintro ⟨first, distinct, others⟩
        refine ⟨⟨?_, distinct⟩, first, fun other among => ?_⟩
        · rintro ⟨other, among, same⟩
          exact (others other among).1 (same ▸ List.mem_cons_self)
        · obtain ⟨fresh, sound⟩ := others other among
          exact ⟨fun known => fresh (List.mem_cons_of_mem _ known), sound⟩
      · rintro ⟨⟨alone, distinct⟩, first, others⟩
        refine ⟨first, distinct, fun other among => ?_⟩
        obtain ⟨fresh, sound⟩ := others other among
        exact ⟨List.not_mem_cons_of_ne_of_not_mem (fun same => alone ⟨other, among, same⟩) fresh,
          sound⟩

/-- The check passes exactly for the usable lists. -/
theorem check_eq_ok_iff : check entities = .ok () ↔ Usable entities := by
  rw [check, refuses_eq_ok_iff, checkEach_eq_ok_iff, List.isEmpty_iff]
  constructor
  · rintro ⟨some, distinct, each⟩
    exact ⟨some, distinct, fun entity among => (each entity among).2⟩
  · rintro ⟨some, distinct, sound⟩
    exact ⟨some, distinct, fun entity among => ⟨List.not_mem_nil, sound entity among⟩⟩

end MapReplica.Entity
