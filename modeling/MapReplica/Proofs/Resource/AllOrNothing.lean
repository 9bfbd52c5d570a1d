import MapReplica.Proofs.Dialogue.Failures
import MapReplica.Proofs.Dialogue.Weaving
import MapReplica.Proofs.Resource.Loading

/-!
# All or nothing

Loading asks for every id of its list at most once, in the order in which the ids come
first. It fails only with what one of the answers makes of it, and then the cache is as it
was. Otherwise the cache holds every id of the list as what its first resource is for, and
all others as before. This does not depend on whether the resources are fetched one after
the other or all at the same time.
-/

namespace MapReplica.Resource

open Dialogue

variable {workDirectory : Path} {resources : List Resource} {resource : Resource}
variable {exchanges : List (Exchange collaborators)} {id : String} {failure : Failure}

/-! ## Failures -/

/-- A text describes an area: a shape in GeoJSON, or an array of four sides. -/
def DescribesArea (text : String) : Prop :=
  ∃ value, Json.read? text = some value ∧
    ((∃ figure, Geometry.ofGeoJson? value = some figure) ∨ ∃ sides, Area.sides? value = some sides)

/--
The failure that an answer of the object store comes to. What it does not give, or gives as
no text, is a missing resource.
-/
inductive Unreceived (id : String) : Except Failure Bytes → Failure → Prop where
  | unread {cause : Failure} (other : ∀ named message, cause ≠ .resourceMissing named message) :
      Unreceived id (.error cause) (.resourceMissing id cause.message)
  | missing (named message : String) :
      Unreceived id (.error (.resourceMissing named message)) (.resourceMissing named message)
  | noText {body : Bytes} (undecodable : Utf8.decode? body = none) :
      Unreceived id (.ok body) (.resourceMissing id "content is not valid UTF-8: ")

/--
What an answer makes of the loading of resources: the text of each has to be received, that
of an area has to describe one, and a script needs its directory and its file.
-/
inductive Fails (resources : List Resource) : Exchange collaborators → Failure → Prop where
  | unreceived {id : String} {answer : Except Failure Bytes} {failure : Failure}
      (unreceived : Unreceived id answer failure) :
      Fails resources (Inquiry.answered (.getObject id) answer) failure
  | noArea {id : String} {body : Bytes} {text : String}
      (area : first? resources id = some ⟨id, .area⟩) (decoded : Utf8.decode? body = some text)
      (nothing : ¬ DescribesArea text) :
      Fails resources (Inquiry.answered (.getObject id) (Except.ok body)) (.unusableArea id)
  | directory (path : Path) (fault : FileFault) :
      Fails resources (Inquiry.answered (.createDirectory path) (Except.error fault)) fault.failure
  | file (path : Path) (content : Bytes) (fault : FileFault) :
      Fails resources (Inquiry.answered (.writeFile path content) (Except.error fault))
        fault.failure

theorem describesArea_iff {text : String} :
    DescribesArea text ↔ ∃ area, Area.parse? text = some area := by
  unfold DescribesArea Area.parse?
  cases Json.read? text with
  | none => simp
  | some value =>
      cases shape : Geometry.ofGeoJson? value with
      | some figure => simp [shape]
      | none => simp [shape]

theorem areaOf_eq_error_iff {text : String} :
    areaOf id text = .error failure ↔ ¬ DescribesArea text ∧ failure = .unusableArea id := by
  rw [describesArea_iff, areaOf]
  cases Area.parse? text with
  | none => simp [eq_comm]
  | some area => simp

theorem missing_of_other
    (other : ∀ named message, failure ≠ .resourceMissing named message) :
    missing id failure = .resourceMissing id failure.message := by
  unfold missing
  split
  case h_1 named message => exact (other named message rfl).elim
  case h_2 => rfl

/-- What the answer of the object store comes to as the text of a resource. -/
def received (id : String) : Except Failure Bytes → Except Failure String
  | .error failure => .error (missing id failure)
  | .ok body => textOf id body

theorem received_eq_error_iff {answer : Except Failure Bytes} :
    received id answer = .error failure ↔ Unreceived id answer failure := by
  constructor
  · intro failed
    cases answer with
    | error cause =>
        cases failed
        cases cause with
        | resourceMissing named message => exact .missing named message
        | _ => exact .unread nofun
    | ok body =>
        simp only [received, textOf] at failed
        split at failed
        case h_1 => cases failed
        case h_2 undecodable =>
          cases failed
          exact .noText undecodable
  · intro unreceived
    cases unreceived with
    | unread other => exact congrArg Except.error (missing_of_other other)
    | missing named message => rfl
    | noText undecodable => simp [received, textOf, undecodable]

theorem received_eq_ok_iff {answer : Except Failure Bytes} {text : String} :
    received id answer = .ok text ↔ ∃ body, answer = .ok body ∧ Utf8.decode? body = some text := by
  cases answer with
  | error cause => simp [received]
  | ok body =>
      rw [received, textOf]
      cases decoded : Utf8.decode? body with
      | none => simp [decoded]
      | some found => simp [decoded]

/-- What the object store makes of the loading of a script. -/
theorem fails_script_iff (first : first? resources id = some ⟨id, .script⟩)
    {answer : Except Failure Bytes} :
    Fails resources (Inquiry.answered (.getObject id) answer) failure ↔
      received id answer = .error failure := by
  rw [received_eq_error_iff]
  constructor
  · intro fails
    cases fails with
    | unreceived unreceived => exact unreceived
    | noArea area =>
        cases first.symm.trans area
  · exact .unreceived

/-- What the object store makes of the loading of an area. -/
theorem fails_area_iff (first : first? resources id = some ⟨id, .area⟩)
    {answer : Except Failure Bytes} :
    Fails resources (Inquiry.answered (.getObject id) answer) failure ↔
      (received id answer >>= areaOf id) = .error failure := by
  constructor
  · intro fails
    cases fails with
    | unreceived unreceived =>
        rw [received_eq_error_iff.mpr unreceived]
        rfl
    | noArea area decoded nothing =>
        rw [received_eq_ok_iff.mpr ⟨_, rfl, decoded⟩]
        exact areaOf_eq_error_iff.mpr ⟨nothing, rfl⟩
  · intro failed
    cases content : received id answer with
    | error cause =>
        rw [content] at failed
        cases failed
        exact .unreceived (received_eq_error_iff.mp content)
    | ok text =>
        rw [content] at failed
        obtain ⟨body, rfl, decoded⟩ := received_eq_ok_iff.mp content
        obtain ⟨nothing, rfl⟩ := areaOf_eq_error_iff.mp failed
        exact .noArea first decoded nothing

/-! ### Work that fails with what its answers make of it -/

section Reports

variable {α β : Type}

/-- Work that ends with a failure exactly if one of its answers makes it that. -/
def Reports (resources : List Resource) (task : Task α) : Prop :=
  ∀ exchanges outcome, Ends task.run exchanges outcome → ∀ failure,
    outcome = .error failure ↔ ∃ exchange ∈ exchanges, Fails resources exchange failure

theorem reports_pure {value : α} : Reports resources (pure value : Task α) := by
  intro exchanges outcome ends failure
  obtain ⟨rfl, rfl⟩ := ends_done_iff.mp (show Ends (.done _) exchanges outcome from ends)
  simp

theorem reports_bind {first : Task α} {rest : α → Task β} (hfirst : Reports resources first)
    (hrest : ∀ value, Reports resources (rest value)) : Reports resources (first >>= rest) := by
  intro exchanges outcome ends failure
  rcases Task.ends_bind_iff.mp ends with ⟨cause, rfl, front⟩ | ⟨front, value, back, rfl, well, later⟩
  · rw [← hfirst _ _ front failure, Except.error.injEq, Except.error.injEq]
  · have fine : ∀ exchange ∈ front, ¬ Fails resources exchange failure := by
      intro exchange member fails
      cases (hfirst _ _ well failure).mpr ⟨exchange, member, fails⟩
    rw [hrest value _ _ later failure]
    constructor
    · rintro ⟨exchange, member, fails⟩
      exact ⟨exchange, List.mem_append_right _ member, fails⟩
    · rintro ⟨exchange, member, fails⟩
      rcases List.mem_append.mp member with early | late
      · exact (fine exchange early fails).elim
      · exact ⟨exchange, late, fails⟩

/-- A question whose answer is an outcome. -/
theorem reports_ask (inquiry : Inquiry) (make : inquiry.Answer → Except Failure α) {task : Task α}
    (runs : task.run = .ask (P := collaborators) inquiry fun answer => .done (make answer))
    (same : ∀ answer failure, make answer = .error failure ↔
      Fails resources (inquiry.answered answer) failure) :
    Reports resources task := by
  intro exchanges outcome ends failure
  rw [runs] at ends
  obtain ⟨answer, rfl, rfl⟩ := ends_answer_iff.mp ends
  rw [same answer failure]
  simp [Inquiry.answered]

theorem mapError_eq_error_iff {answer : Except FileFault Unit} :
    answer.mapError FileFault.failure = .error failure ↔
      ∃ fault, answer = .error fault ∧ fault.failure = failure := by
  cases answer with
  | error fault => simp [Except.mapError]
  | ok _ => simp [Except.mapError]

theorem reports_createDirectory {path : Path} :
    Reports resources (Task.createDirectory path) := by
  refine reports_ask (.createDirectory path)
    (fun answer : Except FileFault Unit => answer.mapError FileFault.failure) rfl ?_
  intro answer failure
  refine mapError_eq_error_iff.trans ⟨?_, fun fails => ?_⟩
  · rintro ⟨fault, rfl, rfl⟩
    exact .directory path fault
  · cases fails with
    | directory _ fault => exact ⟨fault, rfl, rfl⟩

theorem reports_writeFile {path : Path} {content : Bytes} :
    Reports resources (Task.writeFile path content) := by
  refine reports_ask (.writeFile path content)
    (fun answer : Except FileFault Unit => answer.mapError FileFault.failure) rfl ?_
  intro answer failure
  refine mapError_eq_error_iff.trans ⟨?_, fun fails => ?_⟩
  · rintro ⟨fault, rfl, rfl⟩
    exact .file path content fault
  · cases fails with
    | file _ _ fault => exact ⟨fault, rfl, rfl⟩

theorem run_fetchText :
    (fetchText id).run =
      .ask (P := collaborators) (.getObject id) fun answer => .done (received id answer) := by
  refine congrArg (Dialogue.ask (P := collaborators) _) (funext fun answer => ?_)
  cases answer with
  | error failure => rfl
  | ok body => rfl

/-- An area is what its text describes; nothing is asked but for the text. -/
theorem run_fetch_area :
    (fetch workDirectory ⟨id, .area⟩).run =
      .ask (P := collaborators) (.getObject id) fun answer =>
        .done ((received id answer >>= areaOf id).map Loaded.area) := by
  unfold fetch
  rw [ExceptT.run_bind, run_fetchText]
  refine congrArg (Dialogue.ask (P := collaborators) _) (funext fun answer => ?_)
  change (Dialogue.done (received id answer)).bind _ = _
  cases received id answer with
  | error failure => rfl
  | ok text =>
      change (Task.ofExcept (areaOf id text) >>= fun area => pure (.area area) : Task Loaded).run =
        Dialogue.done ((areaOf id text).map Loaded.area)
      cases areaOf id text with
      | error failure => rfl
      | ok area => rfl

theorem reports_fetch (first : first? resources resource.id = some resource) :
    Reports resources (fetch workDirectory resource) := by
  obtain ⟨id, kind⟩ := resource
  cases kind with
  | script =>
      have receives : Reports resources (fetchText id) :=
        reports_ask _ _ run_fetchText fun _ _ => (fails_script_iff first).symm
      refine reports_bind receives fun text => reports_bind (reports_bind ?_ ?_) ?_
      · unfold Feed.makeParent
        split
        case h_1 => exact reports_pure
        case h_2 => exact reports_createDirectory
      · exact fun _ => reports_writeFile
      · exact fun _ => reports_pure
  | area =>
      refine reports_ask _ _ run_fetch_area fun answer failure => ?_
      refine Iff.trans ?_ (fails_area_iff first).symm
      cases received id answer >>= areaOf id with
      | error cause => simp [Except.map]
      | ok area => simp [Except.map]

end Reports

theorem first?_of_pairwise (distinct : resources.Pairwise fun first second => first.id ≠ second.id)
    (member : resource ∈ resources) : first? resources resource.id = some resource := by
  induction resources with
  | nil => cases member
  | cons first rest ih =>
      obtain ⟨others, distinct⟩ := List.pairwise_cons.mp distinct
      rcases List.mem_cons.mp member with rfl | later
      · simp [first?]
      · have other := others resource later
        have found := ih distinct later
        simp only [first?] at found
        simp [first?, other, found]

/-- A resource that is loaded is the one that counts for its id. -/
theorem first?_of_mem_firstsById (member : resource ∈ firstsById [] resources) :
    first? resources resource.id = some resource := by
  rw [← first?_firstsById List.not_mem_nil]
  exact first?_of_pairwise pairwise_firstsById member

/-! ## At the same time -/

/-- Fetches a resource as an entry of the cache. -/
def fetchEntry (workDirectory : Path) (resource : Resource) : Task (String × Loaded) := do
  let loaded ← fetch workDirectory resource
  return (resource.id, loaded)

/-- The runs in which the resources that count for their ids are fetched at the same time. -/
def Fetching (workDirectory : Path) (resources : List Resource)
    (events : List (Event collaborators)) (fetched : Except Failure Cache) : Prop :=
  Joined [] ((firstsById [] resources).map fun resource =>
    (fetchEntry workDirectory resource).run) events fetched

/-- Resources are fetched in order. -/
theorem run_fetchAll :
    (fetchAll workDirectory resources).run =
      inOrder (resources.map fun resource => (fetchEntry workDirectory resource).run) := by
  induction resources with
  | nil => rfl
  | cons resource rest ih =>
      have one : fetchAll workDirectory (resource :: rest) =
          fetchEntry workDirectory resource >>= fun entry =>
            fetchAll workDirectory rest >>= fun others => pure (entry :: others) := by
        simp only [fetchAll, fetchEntry, LawfulMonad.bind_assoc, pure_bind]
      rw [one, ExceptT.run_bind, List.map_cons, inOrder, ← ih]
      refine congrArg _ (funext fun outcome => ?_)
      cases outcome with
      | error failure => rfl
      | ok entry => exact Task.run_bind_pure

/-- Fetching one after the other is a way to fetch at the same time. -/
theorem exists_fetching_of_ends {fetched : Except Failure Cache}
    (ends : Ends (fetchAll workDirectory (firstsById [] resources)).run exchanges fetched) :
    ∃ events, Fetching workDirectory resources events fetched ∧ answers events = exchanges :=
  exists_joined_iff_woven.mpr ⟨_, woven_inOrder _, run_fetchAll ▸ ends⟩

/-! ## What is asked for -/

/-- The key that an inquiry to the object store asks for. -/
def keyOf? : Inquiry → Option String
  | .getObject key => some key
  | _ => none

/-- The keys that the object store was asked for. -/
def requested (events : List (Event collaborators)) : List String :=
  (questions events).filterMap keyOf?

/-- A resource is asked for first, and only then. -/
theorem opens_fetchEntry :
    Opens (P := collaborators) keyOf? (fetchEntry workDirectory resource).run resource.id := by
  rw [fetchEntry, Task.run_bind_pure, fetch, ExceptT.run_bind, run_fetchText]
  refine ⟨.getObject resource.id, _, rfl, rfl, fun answer => Asks.bind ?_ fun _ => trivial⟩
  have none : Asks (P := collaborators) (fun later => keyOf? later = none)
      (.done (received resource.id answer)) := trivial
  refine none.bind fun content => ?_
  cases content with
  | error failure => trivial
  | ok text =>
      simp only
      split
      case h_1 => exact Task.asks_bind (asks_place (fun _ _ => rfl) rfl) fun _ => trivial
      case h_2 => exact Task.asks_ofExcept_bind fun _ _ => trivial

/-- The ids of the resources that are loaded: each once, in the order in which they come first. -/
theorem ids_firstsById {seen : List String} :
    (firstsById seen resources).map Resource.id =
      ((resources.map Resource.id).filter (· ∉ seen)).eraseDups := by
  induction resources generalizing seen with
  | nil => rfl
  | cons resource rest ih =>
      unfold firstsById
      split
      case isTrue old => simp [old, ih]
      case isFalse new =>
        have others : ∀ id : String, decide (id ∉ resource.id :: seen) =
            (!id == resource.id && decide (id ∉ seen)) := by
          intro id
          simp [beq_eq_decide]
        rw [List.map_cons, List.map_cons, ih, List.filter_cons_of_pos (by simpa using new),
          List.eraseDups_cons, List.filter_filter]
        simp only [others]

/-! ## The cache -/

theorem find?_eq_none_iff {cache : Cache} :
    cache.find? id = none ↔ ∀ entry ∈ cache, entry.1 ≠ id := by
  simp [Cache.find?]

/-- What the cache holds of other ids is not touched. -/
theorem find?_extend_of_none {cache fetched : Cache} (absent : fetched.find? id = none) :
    (cache.extend fetched).find? id = cache.find? id := by
  have other := find?_eq_none_iff.mp absent
  have kept : List.find? (·.1 == id)
        (cache.filter fun entry => !fetched.any fun found => found.1 == entry.1) =
      List.find? (·.1 == id) cache := by
    rw [List.find?_filter]
    refine congrArg (List.find? · cache) (funext fun entry => ?_)
    by_cases same : entry.1 = id
    · simpa [same] using other
    · simp [same]
  have none : List.find? (·.1 == id) fetched = none := by
    simpa using other
  rw [Cache.find?, Cache.extend, List.find?_append, none, kept]
  rfl

theorem find?_none_of_holds {cache : Cache}
    (each : List.Forall₂ (Holds workDirectory) resources cache)
    (other : ∀ resource ∈ resources, resource.id ≠ id) : cache.find? id = none := by
  refine find?_eq_none_iff.mpr fun entry member => ?_
  obtain ⟨resource, among, holds⟩ := Update.exists_of_forall₂ each.flip member
  rw [holds.id]
  exact other resource among

/-- What loading comes to: only when everything was fetched, the cache is extended. -/
def extended (cache : Cache) : Except Failure Cache → Except Failure Unit × Cache
  | .error failure => (.error failure, cache)
  | .ok fetched => (.ok (), cache.extend fetched)

theorem starting_load {cache : Cache} :
    (load workDirectory resources).starting cache =
      (fetchAll workDirectory (firstsById [] resources)).run >>= fun outcome =>
        .done (extended cache outcome) := by
  rw [load, Activity.starting_bind, Activity.starting_task, bind_assoc]
  refine congrArg _ (funext fun outcome => ?_)
  cases outcome with
  | error failure => rfl
  | ok fetched => rfl

/--
A cache after resources were loaded: every id is there as what its first resource is for,
the other ids are as before, and the object store was asked for each id once, in the order
in which the ids come first.
-/
structure Loads (resources : List Resource) (cache after : Cache)
    (events : List (Event collaborators)) : Prop where
  own : ∀ id first, first? resources id = some first →
    ∃ loaded, after.find? id = some loaded ∧ loaded.kind = first.kind
  others : ∀ id, first? resources id = none → after.find? id = cache.find? id
  requests : requested events = (resources.map Resource.id).eraseDups

/--
Either all resources were loaded or none. A failure is what some answer makes of it, and
an answer that makes it one is never passed over.
-/
structure AllOrNothing (resources : List Resource) (cache : Cache)
    (events : List (Event collaborators)) (result : Except Failure Unit × Cache) : Prop where
  loaded : result.1 = .ok () → Loads resources cache result.2 events
  kept : ∀ failure, result.1 = .error failure → result.2 = cache
  reported : ∀ failure, result.1 = .error failure →
    ∃ exchange ∈ answers events, Fails resources exchange failure
  noticed : ∀ exchange ∈ answers events, ∀ failure, Fails resources exchange failure →
    ∃ first, result.1 = .error first
  order : requested events <+: (resources.map Resource.id).eraseDups

theorem first?_eq_none_iff :
    first? resources id = none ↔ ∀ resource ∈ resources, resource.id ≠ id := by
  simp [first?]

theorem Holds.kind {entry : String × Loaded} (holds : Holds workDirectory resource entry) :
    entry.2.kind = resource.kind := by
  cases holds with
  | script id => rfl
  | area id area => rfl

theorem holds_of_ends_fetchEntry {entry : String × Loaded}
    (ends : Ends (fetchEntry workDirectory resource).run exchanges (.ok entry)) :
    Holds workDirectory resource entry := by
  rw [fetchEntry, Task.run_bind_pure] at ends
  obtain ⟨outcome, got, made⟩ := ends_make_iff.mp ends
  cases outcome with
  | error failure => cases made
  | ok loaded =>
      cases made
      exact holds_of_ends_fetch got

theorem reports_fetchEntry (member : resource ∈ firstsById [] resources) :
    Reports resources (fetchEntry workDirectory resource) :=
  reports_bind (reports_fetch (first?_of_mem_firstsById member)) fun _ => reports_pure

/-- What was fetched is what the cache is extended with. -/
theorem loads_of_holds {cache fetched : Cache} {events : List (Event collaborators)}
    (each : List.Forall₂ (Holds workDirectory) (firstsById [] resources) fetched)
    (requests : requested events = (resources.map Resource.id).eraseDups) :
    Loads resources cache (cache.extend fetched) events := by
  refine ⟨fun id first own => ?_, fun id none => ?_, requests⟩
  · rw [← first?_firstsById List.not_mem_nil] at own
    obtain ⟨loaded, there, held⟩ := find?_of_holds each own
    exact ⟨loaded, find?_extend there, held.kind⟩
  · rw [← first?_firstsById List.not_mem_nil] at none
    exact find?_extend_of_none (find?_none_of_holds each (first?_eq_none_iff.mp none))

/-- Whatever the order of the answers is. -/
theorem allOrNothing_of_fetching {cache : Cache} {events : List (Event collaborators)}
    {fetched : Except Failure Cache} (fetching : Fetching workDirectory resources events fetched) :
    AllOrNothing resources cache events (extended cache fetched) := by
  have opened : List.Forall₂ (Opens (P := collaborators) keyOf?)
      ((firstsById [] resources).map fun resource => (fetchEntry workDirectory resource).run)
      (resources.map Resource.id).eraseDups := by
    have ids : (firstsById [] resources).map Resource.id =
        (resources.map Resource.id).eraseDups := by
      rw [ids_firstsById]
      simp
    rw [← ids, List.forall₂_map_left_iff, List.forall₂_map_right_iff]
    exact List.forall₂_same.mpr fun _ _ => opens_fetchEntry
  obtain ⟨order, all⟩ := fetching.keys_prefix nofun opened
  cases fetched with
  | error failure =>
      refine ⟨nofun, fun _ _ => rfl, fun failure failed => ?_, fun _ _ _ _ => ⟨_, rfl⟩, order⟩
      cases failed
      obtain ⟨dialogue, member, said, ends, among⟩ := fetching.exists_failed rfl
      obtain ⟨resource, among', rfl⟩ := List.mem_map.mp member
      obtain ⟨exchange, there, fails⟩ :=
        (reports_fetchEntry among' said _ ends failure).mp rfl
      exact ⟨exchange, among exchange there, fails⟩
  | ok entries =>
      obtain ⟨parts, rfl, each, came⟩ := fetching.exists_parts rfl
      rw [List.nil_append, List.forall₂_map_left_iff] at each
      have holds : List.Forall₂ (Holds workDirectory) (firstsById [] resources)
          (parts.map Prod.snd) :=
        List.forall₂_map_right_iff.mpr (each.imp fun _ _ => holds_of_ends_fetchEntry)
      refine ⟨fun _ => loads_of_holds holds (all _ rfl), nofun, nofun, ?_, order⟩
      · intro exchange answered failure fails
        obtain ⟨part, among, there⟩ := came exchange answered
        obtain ⟨resource, member, ends⟩ := Update.exists_of_forall₂ each.flip among
        cases (reports_fetchEntry member _ _ ends failure).mpr ⟨exchange, there, fails⟩

/--
Loading is all or nothing, whatever was cached before and however the object store and the
disk answer. This holds of every way to fetch the resources at the same time, and fetching
them one after the other is one of these. What the object store refuses comes to a missing
resource, and a text that describes no area to an area that cannot be used.
-/
theorem loads_all_or_nothing (cache : Cache) :
    (∀ exchanges result, Ends ((load workDirectory resources).starting cache) exchanges result →
      ∃ events fetched, Fetching workDirectory resources events fetched ∧
        answers events = exchanges ∧ result = extended cache fetched) ∧
    (∀ events fetched, Fetching workDirectory resources events fetched →
      AllOrNothing resources cache events (extended cache fetched)) ∧
    ∀ id cause failure, Fails resources (Inquiry.answered (.getObject id) (Except.error cause))
      failure → ∃ named message, failure = .resourceMissing named message := by
  refine ⟨fun exchanges result ends => ?_, fun _ _ => allOrNothing_of_fetching, ?_⟩
  · rw [starting_load, ends_make_iff] at ends
    obtain ⟨fetched, fetches, rfl⟩ := ends
    obtain ⟨events, joined, came⟩ := exists_fetching_of_ends fetches
    exact ⟨events, fetched, joined, came, rfl⟩
  · intro id cause failure fails
    cases fails with
    | unreceived unreceived =>
        cases unreceived with
        | unread _ => exact ⟨_, _, rfl⟩
        | missing named message => exact ⟨named, message, rfl⟩

/-! ## Two loads -/

/-- A cache that holds a script from before. -/
def oldCache : Cache := [("old.lua", .script ⟨"work/old.lua"⟩)]

/-- An empty script is loaded; its id comes again, for an area. -/
def scriptLoad : List (Exchange collaborators) :=
  [Inquiry.answered (.getObject "roads.lua") (Except.ok []),
    Inquiry.answered (.createDirectory ⟨"work"⟩) (Except.ok ()),
    Inquiry.answered (.writeFile ⟨"work/roads.lua"⟩ []) (Except.ok ())]

theorem ends_scriptLoad :
    Ends ((load ⟨"work"⟩ [⟨"roads.lua", .script⟩, ⟨"roads.lua", .area⟩]).starting oldCache)
      scriptLoad (.ok (), oldCache.extend [("roads.lua", .script ⟨"work/roads.lua"⟩)]) :=
  .ask (.ask (.ask (.done _)))

/-- It is known that an area is missing while a script that was asked for before is awaited. -/
def overtakenLoad : List (Event collaborators) :=
  [.asked (.getObject "roads.lua"), .asked (.getObject "town.json"),
    .answered (Inquiry.answered (.getObject "town.json")
      (Except.error (Failure.objectUnread "town.json" "NoSuchKey")))]

theorem fetching_overtakenLoad :
    Fetching ⟨"work"⟩ [⟨"roads.lua", .script⟩, ⟨"town.json", .area⟩] overtakenLoad
      (.error (.resourceMissing "town.json" "Failed to get object 'town.json': NoSuchKey")) := by
  refine .start (.start (.answer _ (.failed ?_)))
  exact List.mem_append_right _ List.mem_cons_self

/-- The script is loaded and no area; an area that is missing takes back what else was asked. -/
theorem overtakenLoad_all_or_nothing :
    (∃ events, answers events = scriptLoad ∧
      Loads [⟨"roads.lua", .script⟩, ⟨"roads.lua", .area⟩] oldCache
        (oldCache.extend [("roads.lua", .script ⟨"work/roads.lua"⟩)]) events) ∧
      AllOrNothing [⟨"roads.lua", .script⟩, ⟨"town.json", .area⟩] oldCache overtakenLoad
        (.error (.resourceMissing "town.json" "Failed to get object 'town.json': NoSuchKey"),
          oldCache) ∧
      requested overtakenLoad = ["roads.lua", "town.json"] := by
  refine ⟨?_, (loads_all_or_nothing oldCache).2.1 _ _ fetching_overtakenLoad, rfl⟩
  obtain ⟨events, fetched, fetching, came, result⟩ :=
    (loads_all_or_nothing oldCache).1 _ _ ends_scriptLoad
  have whole := (loads_all_or_nothing oldCache).2.1 events fetched fetching
  rw [← result] at whole
  exact ⟨events, came, whole.loaded rfl⟩

end MapReplica.Resource
