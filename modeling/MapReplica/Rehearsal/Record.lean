import MapReplica.Json.Octets
import MapReplica.Number.Fixed
import MapReplica.Rehearsal.World

/-!
# Records of rehearsals

The events of a rehearsal in JSON. The sides of boxes have nine decimal places, and a
content that cannot be read is `null`.
-/

namespace MapReplica.Rehearsal

/-- Writes a box as the list of its sides. -/
def boxToJson (box : Box) : Json :=
  .ofTexts ([box.west, box.south, box.east, box.north].map (Number.fixed 9))

/-- Writes a path. -/
def pathToJson (path : Path) : Json := .text path.text

/-- Writes an item of a request. -/
def itemToJson (item : Queue.Item) : Json :=
  .object
    [("area", boxToJson item.area), ("min_zoom", .integer item.minZoom),
     ("max_zoom", .integer item.maxZoom)]

/-- Writes a content that may be unreadable. -/
def contentToJson (content : Option Bytes) : Json :=
  .ofOption Json.ofOctets content

/-- Writes an event. -/
def Event.toJson : Event → Json
  | fetched url headers =>
      .object
        [("http", .text "GET"), ("url", .text url),
         ("headers", .object (headers.map fun header => (header.name, .text header.value)))]
  | put key body => .object [("put", .text key), ("body", .ofOctets body)]
  | putFailed key => .object [("put_failed", .text key)]
  | merged input output body =>
      .object
        [("tool", .text "merge"), ("input", pathToJson input), ("output", pathToJson output),
         ("body", contentToJson body)]
  | applied arguments body =>
      .object
        [("tool", .text "append"), ("args", .ofTexts arguments.toList), ("body", contentToJson body)]
  | imported style styleBody dump dumpBody =>
      .object
        [("tool", .text "create"), ("style", pathToJson style), ("style_body", contentToJson styleBody),
         ("dump", pathToJson dump), ("dump_body", contentToJson dumpBody)]
  | terminated => .object [("tool", .text "terminate_all")]
  | queueStarted => .object [("queue", .text "start")]
  | queueStopped => .object [("queue", .text "stop")]
  | pushed request =>
      .object
        [("queue", .text "push"),
         ("payload", .object
           [("items", .array (request.items.map itemToJson)), ("source", .text request.source)])]
  | pushedAgain => .object [("queue", .text "duplicate")]
  | pushFailed => .object [("queue", .text "push_failed")]
  | reserved project => .object [("lock", .text "reserve"), ("project", .text project)]
  | released project => .object [("lock", .text "release"), ("project", .text project)]

/-- Writes the events since the last call, in order, and forgets them. -/
def World.takeEvents (world : World) : Json × World :=
  (.array (world.events.reverse.map Event.toJson), { world with events := [] })

end MapReplica.Rehearsal
