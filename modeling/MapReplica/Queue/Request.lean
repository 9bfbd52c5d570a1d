import MapReplica.Digest.Md5
import MapReplica.Json.Record
import MapReplica.Json.Reader
import MapReplica.Json.Writer
import MapReplica.Tile

/-!
# Requests to the queue

A request asks for the tiles of some areas in a range of zooms. Its key is a digest
of its written form, so that an equal request can be recognised.
-/

namespace MapReplica.Queue

/-- The greatest zoom that a request may ask for. -/
def greatestZoom : Nat := 20

/-- The name of a queue and the zooms of the requests to it. -/
structure Settings where
  name : String
  minZoom : Nat
  maxZoom : Nat
  deriving DecidableEq, Repr

/-- Why settings are not usable. -/
inductive SettingsFault where
  | emptyName
  | zoomOutOfRange
  | zoomsReversed (min max : Nat)
  deriving DecidableEq, Repr

/-- The wording of a fault. -/
def SettingsFault.message : SettingsFault → String
  | .emptyName => "queue name cannot be empty"
  | .zoomOutOfRange => "queue zoom levels must be between 0 and " ++ Number.numeral greatestZoom
  | .zoomsReversed min max =>
      "queue min zoom " ++ Number.numeral min ++ " is greater than max zoom " ++ Number.numeral max

/-- Usable settings. -/
def Settings.make (name : String) (minZoom maxZoom : Nat) : Except SettingsFault Settings :=
  if name.isEmpty then .error .emptyName
  else if greatestZoom < minZoom ∨ greatestZoom < maxZoom then .error .zoomOutOfRange
  else if maxZoom < minZoom then .error (.zoomsReversed minZoom maxZoom)
  else .ok ⟨name, minZoom, maxZoom⟩

/-- An area and the zooms for which its tiles are wanted. -/
structure Item where
  area : Box
  minZoom : Nat
  maxZoom : Nat

/-- A request for tiles. -/
structure Request where
  items : List Item
  source : String

/-- The source that requests name. -/
def expiredTiles : String := "expiredTiles"

/-- The request for areas whose tiles have expired. -/
def Request.ofAreas (areas : List Box) (settings : Settings) : Request :=
  { items := areas.map fun area => ⟨area, settings.minZoom, settings.maxZoom⟩
    source := expiredTiles }

/-! ## The written form -/

/-- Writes a box. -/
def areaToJson (area : Box) : Json :=
  .object
    [("west", .float area.west), ("south", .float area.south), ("east", .float area.east),
     ("north", .float area.north)]

/-- Writes an item. -/
def Item.toJson (item : Item) : Json :=
  .object
    [("area", areaToJson item.area), ("minZoom", .integer item.minZoom),
     ("maxZoom", .integer item.maxZoom)]

/-- Writes a request. -/
def Request.toJson (request : Request) : Json :=
  .object [("items", .array (request.items.map Item.toJson)), ("source", .text request.source)]

/-- The written form of a request. -/
def Request.text (request : Request) : String :=
  request.toJson.write

/-- The digest by which equal requests are recognised. -/
def Request.key (request : Request) : String :=
  Md5.digest (Utf8.encode request.text)

/-- Reads a box. -/
def areaOfJson? (value : Json) : Option Box := do
  match ← value.fields? ["west", "south", "east", "north"] true with
  | [west, south, east, north] =>
      some
        ⟨← Json.required Json.float? west, ← Json.required Json.float? south,
         ← Json.required Json.float? east, ← Json.required Json.float? north⟩
  | _ => none

/-- Reads an item. -/
def Item.ofJson? (value : Json) : Option Item := do
  match ← value.fields? ["area", "minZoom", "maxZoom"] true with
  | [area, minZoom, maxZoom] =>
      some
        ⟨← Json.required areaOfJson? area, ← Json.required Json.octet? minZoom,
         ← Json.required Json.octet? maxZoom⟩
  | _ => none

/-- Reads a request. -/
def Request.ofJson? (value : Json) : Option Request := do
  match ← value.fields? ["items", "source"] true with
  | [items, source] =>
      some
        ⟨← Json.required (fun items => items.array?.bind fun items => items.mapM Item.ofJson?) items,
         ← Json.required Json.text? source⟩
  | _ => none

/-- Whether two areas have equal sides. -/
def sameArea (a b : Box) : Bool :=
  a.west == b.west && a.south == b.south && a.east == b.east && a.north == b.north

/-- Whether two items are equal. -/
def Item.same (a b : Item) : Bool :=
  sameArea a.area b.area && a.minZoom == b.minZoom && a.maxZoom == b.maxZoom

/-- Whether two requests are equal. -/
def Request.same (a b : Request) : Bool :=
  a.items.length == b.items.length && (a.items.zip b.items).all (fun (a, b) => a.same b) &&
    a.source == b.source

end MapReplica.Queue
