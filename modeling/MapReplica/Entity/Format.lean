import MapReplica.Entity.Basic
import MapReplica.Json.Reader
import MapReplica.Json.Record

/-!
# The configuration format of entities

A configuration is a JSON array of entities. Unknown, repeated and missing members
are refused; the zooms and the area may be left out or `null`.
-/

namespace MapReplica

/-- Reads zooms. -/
def ZoomLevels.ofJson? (value : Json) : Option ZoomLevels := do
  match ← value.fields? ["min", "max"] false with
  | [min, max] => some { min := ← Json.required Json.octet? min, max := ← Json.optional Json.octet? max }
  | _ => none

/-- Writes zooms; an absent upper end is left out. -/
def ZoomLevels.toJson (levels : ZoomLevels) : Json :=
  .object <|
    ("min", .integer levels.min) :: levels.max.toList.map fun (max : Nat) => ("max", .integer max)

namespace Entity

/-- Reads an entity. -/
def ofJson? (value : Json) : Option Entity := do
  match ← value.fields? ["id", "script", "zoomLevel", "geometryKey"] false with
  | [id, script, zoomLevels, areaKey] =>
      some
        { id := ← Json.required Json.text? id
          script := ← Json.required Json.text? script
          zoomLevels := ← Json.optional ZoomLevels.ofJson? zoomLevels
          areaKey := ← Json.optional Json.text? areaKey }
  | _ => none

/-- Writes an entity; what is absent is left out. -/
def toJson (entity : Entity) : Json :=
  .object <|
    ("id", .text entity.id) :: ("script", .text entity.script) ::
      (entity.zoomLevels.toList.map fun levels => ("zoomLevel", levels.toJson)) ++
      entity.areaKey.toList.map fun key => ("geometryKey", .text key)

/-- Reads a list of entities, without checking it. -/
def listOfJson? (value : Json) : Option (List Entity) :=
  value.array?.bind fun items => items.mapM ofJson?

/-- Writes a list of entities. -/
def listToJson (entities : List Entity) : Json :=
  .array (entities.map toJson)

/-- Why a configuration is not usable. -/
inductive ConfigurationFault where
  | malformed
  | unusable (fault : Fault)
  deriving DecidableEq, Repr

/--
The wording of a fault. That of a malformed text ends at its colon; where and why a decoder
gives up is left out.
-/
def ConfigurationFault.message : ConfigurationFault → String
  | .malformed => "invalid append configuration: "
  | .unusable fault => fault.message

/-- The usable entities that a JSON value gives. -/
def decode (value : Json) : Except ConfigurationFault (List Entity) :=
  match listOfJson? value with
  | none => .error .malformed
  | some entities =>
      match check entities with
      | .ok () => .ok entities
      | .error fault => .error (.unusable fault)

/-- The usable entities that a configuration gives. -/
def parse (content : String) : Except ConfigurationFault (List Entity) :=
  match Json.read? content with
  | none => .error .malformed
  | some value => decode value

end Entity

end MapReplica
