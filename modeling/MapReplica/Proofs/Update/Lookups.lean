import MapReplica.Proofs.Dialogue.Failures
import MapReplica.Proofs.Update.Calls
import MapReplica.Proofs.Update.CommitSafety
import MapReplica.Proofs.Update.Preparation

/-!
# Lookups of a prepared manager

A cycle looks up the script and the area of each entity in one cache, whose entries are
told apart by their keys alone. After a preparation every lookup is answered exactly if
no entity has for an area what is the script of one. Then no cycle of any later call
fails with a lookup.
-/

namespace MapReplica.Update

open Dialogue

/-- A manager whose cache answers every lookup of its cycles. -/
structure Equipped (manager : Manager) : Prop where
  scripts : ∀ entity ∈ manager.entities, ∃ style,
    manager.resources.scriptPath (entity.scriptKey manager.progress.project) = .ok style
  areas : ∀ entity ∈ manager.entities, ∀ key, entity.areaKey = some key →
    ∃ area, manager.resources.area key = .ok area

/-- No entity has for an area what is the script of one. -/
def Separate (project : String) (entities : List Entity) : Prop :=
  ∀ entity ∈ entities, ∀ other ∈ entities, entity.areaKey ≠ some (other.scriptKey project)

/-! ## The cache after a preparation -/

section Kinds

variable {project : String} {entities : List Entity} {entity : Entity} {resource : Resource}

theorem script_mem_resources (project : String) (member : entity ∈ entities) :
    ⟨entity.scriptKey project, .script⟩ ∈ entities.flatMap (resourcesOf project) :=
  List.mem_flatMap.mpr ⟨entity, member, List.mem_cons_self⟩

theorem area_mem_resources (project : String) {key : String} (member : entity ∈ entities)
    (own : entity.areaKey = some key) :
    ⟨key, .area⟩ ∈ entities.flatMap (resourcesOf project) := by
  apply List.mem_flatMap.mpr
  refine ⟨entity, member, List.mem_cons_of_mem _ ?_⟩
  rw [own]
  exact List.mem_singleton.mpr rfl

/-- A resource of entities is the script of one, or the area of one. -/
theorem mem_resources (member : resource ∈ entities.flatMap (resourcesOf project)) :
    (∃ entity ∈ entities, resource = ⟨entity.scriptKey project, .script⟩) ∨
      ∃ entity ∈ entities, ∃ key, entity.areaKey = some key ∧ resource = ⟨key, .area⟩ := by
  obtain ⟨entity, among, own⟩ := List.mem_flatMap.mp member
  rcases List.mem_cons.mp own with rfl | area
  · exact .inl ⟨entity, among, rfl⟩
  · obtain ⟨key, there, rfl⟩ := List.mem_map.mp area
    exact .inr ⟨entity, among, key, Option.mem_toList.mp there, rfl⟩

/-- Keys that are no scripts and areas at the same time have one kind each. -/
theorem kind_unique (separate : Separate project entities) {first second : Resource}
    (hfirst : first ∈ entities.flatMap (resourcesOf project))
    (hsecond : second ∈ entities.flatMap (resourcesOf project)) (same : first.id = second.id) :
    first.kind = second.kind := by
  rcases mem_resources hfirst with ⟨entity, among, rfl⟩ | ⟨entity, among, key, own, rfl⟩
  · rcases mem_resources hsecond with ⟨other, among', rfl⟩ | ⟨other, among', key, own, rfl⟩
    · rfl
    · exact (separate other among' entity among (own.trans (congrArg some same.symm))).elim
  · rcases mem_resources hsecond with ⟨other, among', rfl⟩ | ⟨other, among', key', own', rfl⟩
    · exact (separate entity among other among' (own.trans (congrArg some same))).elim
    · rfl

end Kinds

section Cache

variable {cache : Resource.Cache} {id : String}

theorem scriptPath_ok_iff {style : Path} :
    cache.scriptPath id = .ok style ↔ cache.find? id = some (.script style) := by
  unfold Resource.Cache.scriptPath
  split
  case h_1 path found => simp [found]
  case h_2 other =>
    constructor
    · intro impossible
      cases impossible
    · intro found
      exact (other style found).elim

theorem area_ok_iff {area : Area} :
    cache.area id = .ok area ↔ cache.find? id = some (.area area) := by
  unfold Resource.Cache.area
  split
  case h_1 there found => simp [found]
  case h_2 other =>
    constructor
    · intro impossible
      cases impossible
    · intro found
      exact (other area found).elim

end Cache

variable {setup : Setup} {project : String} {entities : List Entity}
variable {targets : List Upload.Target} {limit : Option Nat} {before manager order : Manager}
variable {exchanges : List (Exchange collaborators)}

/-- The resources that a preparation loads. -/
def loadedFor (project : String) (entities : List Entity) : List Resource :=
  Resource.firstsById [] (entities.flatMap (resourcesOf project))

/-- The cache of a prepared manager holds for every key the resource that is loaded for it. -/
theorem find?_of_prepares
    (prepares : Ends ((prepare setup project entities targets limit).starting before) exchanges
      (.ok (), manager)) {resource : Resource}
    (member : resource ∈ entities.flatMap (resourcesOf project)) :
    ∃ first loaded, first ∈ loadedFor project entities ∧ first.id = resource.id ∧
      manager.resources.find? resource.id = some loaded ∧
        Resource.Holds setup.workDirectory first (resource.id, loaded) := by
  obtain ⟨dispatcher, part, _, _, loads, _⟩ := of_ends_prepare prepares
  obtain ⟨first, found⟩ := Resource.exists_first? member
  obtain ⟨loaded, there, holds⟩ := Resource.find?_of_ends_load loads found
  rw [← Resource.first?_firstsById List.not_mem_nil] at found
  obtain ⟨among, same⟩ := Resource.id_of_first? found
  exact ⟨first, loaded, among, same, there, holds⟩

/-- After a preparation all lookups are answered exactly if no key is a script and an area. -/
theorem equipped_iff
    (prepares : Ends ((prepare setup project entities targets limit).starting before) exchanges
      (.ok (), manager)) :
    Equipped manager ↔ Separate project entities := by
  have prepared := (prepared_of_ends prepares).1
  constructor
  · rintro ⟨scripts, areas⟩ entity member other among coincide
    rw [prepared.entities] at scripts areas
    obtain ⟨style, script⟩ := scripts other among
    obtain ⟨area, found⟩ := areas entity member _ coincide
    rw [prepared.project] at script
    cases (scriptPath_ok_iff.mp script).symm.trans (area_ok_iff.mp found)
  · intro separate
    constructor
    · intro entity member
      rw [prepared.entities] at member
      have script := script_mem_resources project member
      obtain ⟨first, loaded, among, same, there, holds⟩ := find?_of_prepares prepares script
      have kind := kind_unique separate (Resource.mem_of_mem_firstsById among) script same
      cases holds with
      | script id =>
          rw [prepared.project]
          exact ⟨_, scriptPath_ok_iff.mpr there⟩
      | area id area => cases kind
    · intro entity member key own
      rw [prepared.entities] at member
      have area := area_mem_resources project member own
      obtain ⟨first, loaded, among, same, there, holds⟩ := find?_of_prepares prepares area
      have kind := kind_unique separate (Resource.mem_of_mem_firstsById among) area same
      cases holds with
      | script id => cases kind
      | area id area => exact ⟨_, area_ok_iff.mpr there⟩

/-! ## Failures of a cycle -/

/-- A failure that is none of a lookup. -/
def NoLookup (failure : Failure) : Prop :=
  ∀ id, failure ≠ .resourceNotLoaded id

theorem noLookup_file (fault : FileFault) : NoLookup fault.failure := nofun

section Feed

variable {url feed : String} {path : Path}

theorem failsOnly_get {headers : List Http.Header} :
    Task.FailsOnly NoLookup (Feed.get url headers) := by
  apply Task.failsOnly_bind Task.failsOnly_fetch
  intro reply
  cases reply with
  | error fault => cases fault <;> exact Task.failsOnly_throw nofun
  | ok response =>
      simp only
      split
      case isTrue => exact Task.failsOnly_pure
      case isFalse => exact Task.failsOnly_throw nofun

theorem failsOnly_makeParent : Task.FailsOnly NoLookup (Feed.makeParent path) := by
  unfold Feed.makeParent
  split
  case h_1 => exact Task.failsOnly_pure
  case h_2 => exact Task.failsOnly_createDirectory noLookup_file

theorem failsOnly_downloadDiff {sequence : Nat} :
    Task.FailsOnly NoLookup (Feed.downloadDiff feed sequence path) := by
  apply Task.failsOnly_bind failsOnly_get
  intro response
  apply Task.failsOnly_bind failsOnly_makeParent
  intro _
  apply Task.failsOnly_bind (Task.failsOnly_writeFile noLookup_file)
  intro _
  split
  case isTrue => exact Task.failsOnly_throw nofun
  case isFalse => exact Task.failsOnly_pure

theorem failsOnly_state : Task.FailsOnly NoLookup (Feed.state feed) := by
  apply Task.failsOnly_bind failsOnly_get
  intro response
  refine Task.failsOnly_bind ?_ fun _ => Task.failsOnly_pure
  unfold Feed.bodyOf
  split
  case isTrue => exact Task.failsOnly_pure
  case isFalse => exact Task.failsOnly_throw nofun

end Feed

theorem failsOnly_pushBoxes {settings : Queue.Settings} {boxes : List Box} :
    Task.FailsOnly NoLookup (Upload.pushBoxes settings boxes) := by
  unfold Upload.pushBoxes
  split
  case isTrue => exact Task.failsOnly_pure
  case isFalse =>
    apply Task.failsOnly_outcome_bind Task.failsOnly_push
    intro outcome fits
    cases outcome with
    | ok _ => exact Task.failsOnly_pure
    | error failure =>
        simp only
        split
        case isTrue => exact Task.failsOnly_pure
        case isFalse => exact Task.failsOnly_throw (fits failure rfl)

theorem failsOnly_enqueue {dispatcher : Upload.Dispatcher} {areas : List Box} :
    Task.FailsOnly NoLookup (dispatcher.enqueue areas) := by
  unfold Upload.Dispatcher.enqueue
  split
  case h_1 => exact Task.failsOnly_pure
  case h_2 => exact failsOnly_pushBoxes

theorem failsOnly_serve {dispatcher : Upload.Dispatcher} {listing : Upload.Listing}
    {content : Bytes} : Task.FailsOnly NoLookup (dispatcher.serve listing content) := by
  rw [Upload.Dispatcher.serve_eq]
  split
  case isTrue => exact Task.failsOnly_pure
  case isFalse =>
    split
    case isTrue => exact Task.failsOnly_bind Task.failsOnly_putObject fun _ => failsOnly_enqueue
    case isFalse => exact failsOnly_enqueue

theorem failsOnly_dispatch {dispatcher : Upload.Dispatcher} {listing : Upload.Listing} :
    Task.FailsOnly NoLookup (dispatcher.dispatch listing) := by
  unfold Upload.Dispatcher.dispatch
  split
  case isTrue => exact Task.failsOnly_pure
  case isFalse =>
    apply Task.failsOnly_bind Task.failsOnly_readFile
    intro answer
    split
    case h_1 => exact Task.failsOnly_pure
    case h_2 fault _ => exact Task.failsOnly_throw (noLookup_file fault)
    case h_3 content => exact failsOnly_serve

theorem Equipped.listing (equipped : Equipped manager) {entity : Entity}
    (member : entity ∈ manager.entities) (sequence : Nat) :
    ∃ listing, listingOf setup manager sequence entity = .ok listing := by
  unfold listingOf
  cases own : entity.areaKey with
  | none => exact ⟨_, rfl⟩
  | some key =>
      obtain ⟨area, found⟩ := equipped.areas entity member key own
      simp only [found]
      exact ⟨_, rfl⟩

/-- The cycles of a manager that answers every lookup fail with none. -/
theorem Equipped.failsOnly_cycle (equipped : Equipped manager) {feed : String} {sequence : Nat} :
    Task.FailsOnly NoLookup (cycle setup manager feed sequence) := by
  apply Task.failsOnly_bind failsOnly_downloadDiff
  intro _
  apply Task.failsOnly_bind Task.failsOnly_merge
  intro _
  apply Task.failsOnly_bind
  · apply Task.failsOnly_forEach
    intro entity member
    obtain ⟨style, found⟩ := equipped.scripts entity member
    unfold applyTo
    rw [found]
    exact Task.failsOnly_bind Task.failsOnly_pure fun _ => Task.failsOnly_applyDiff
  · intro _
    split
    case isFalse => exact Task.failsOnly_pure
    case isTrue =>
      unfold uploadAll
      split
      case h_1 => exact Task.failsOnly_pure
      case h_2 dispatcher _ =>
        split
        case isTrue => exact Task.failsOnly_pure
        case isFalse =>
          obtain ⟨listings, made⟩ : ∃ listings, manager.entities.mapM
              (listingOf setup manager sequence) = .ok listings :=
            exists_mapM fun entity member => equipped.listing member sequence
          rw [made]
          apply Task.failsOnly_bind Task.failsOnly_pure
          intro _
          exact Task.failsOnly_forEach fun _ _ => failsOnly_dispatch

/-! ## Failures of calls -/

theorem SameOrder.equipped (same : SameOrder order manager) (equipped : Equipped order) :
    Equipped manager := by
  constructor
  · rw [same.entities, same.resources, same.project]
    exact equipped.scripts
  · rw [same.entities, same.resources]
    exact equipped.areas

theorem noLookup_sequenceOf {source : String} {content : List Char} {failure : Failure}
    (failed : Progress.sequenceOf source content = .error failure) : NoLookup failure := by
  unfold Progress.sequenceOf at failed
  split at failed
  case h_1 => cases failed
  case h_2 =>
    cases failed
    exact nofun

theorem noLookup_textOf {source : String} {body : Bytes} {failure : Failure}
    (failed : Progress.textOf source body = .error failure) : NoLookup failure := by
  unfold Progress.textOf at failed
  split at failed
  case h_1 => cases failed
  case h_2 =>
    cases failed
    exact nofun

theorem noLookup_readProject {progress : Progress} {answer : Except Failure Bytes}
    (fits : ∀ failure, answer = .error failure → NoLookup failure) {failure : Failure}
    (failed : (readProject progress answer).1 = .error failure) : NoLookup failure := by
  unfold readProject at failed
  split at failed
  case h_1 given =>
    cases failed
    exact fits _ rfl
  case h_2 body =>
    split at failed
    case h_1 given text =>
      cases failed
      exact noLookup_textOf text
    case h_2 content _ =>
      split at failed
      case h_1 given number =>
        cases failed
        exact noLookup_sequenceOf number
      case h_2 => cases failed

theorem noLookup_readFeed {feed : String} {progress : Progress}
    {fetched : Except Failure (List Char)}
    (fits : ∀ failure, fetched = .error failure → NoLookup failure) {failure : Failure}
    (failed : (readFeed feed progress fetched).1 = .error failure) : NoLookup failure := by
  unfold readFeed at failed
  split at failed
  case h_1 given =>
    cases failed
    exact fits _ rfl
  case h_2 content =>
    split at failed
    case h_1 given number =>
      cases failed
      exact noLookup_sequenceOf number
    case h_2 => cases failed

/-- What is kept by the calls of a manager that answers every lookup. -/
abbrev Unfailing {α : Type} (order : Manager) : Except Failure α × Manager → Unit → Prop :=
  Ended (fun manager _ => SameOrder order manager) (fun manager _ => SameOrder order manager)
    NoLookup

theorem Equipped.keeps_next (equipped : Equipped order) (same : SameOrder order manager)
    {feed : String} :
    ((appendNext setup feed).starting manager).Keeps (reporting NoLookup) (fun _ _ => True)
      (Unfailing order) () := by
  apply keeps_appendNext_of (fun outcome _ => ∀ failure, outcome = .error failure → NoLookup failure)
    (same.equipped equipped).failsOnly_cycle
  · intro outcome _ fits
    exact keeps_of_ends fun _ _ _ => fits
  · intro failure _ fits
    exact ⟨same, fits failure rfl⟩
  · intro _ _
    refine ⟨trivial, fun answer _ reports => ?_⟩
    cases answer with
    | error failure => exact ⟨same, reports failure rfl⟩
    | ok _ => exact same.advanced

theorem keeps_unfailing_load (same : SameOrder order manager) {feed : String} :
    ((loadBoth feed).starting manager).Keeps (reporting NoLookup) (fun _ _ => True)
      (Unfailing order) () := by
  have loads : ((onProgress Progress.load).starting manager).Keeps (reporting NoLookup)
      (fun _ _ => True) (Unfailing order) () := by
    rw [Activity.starting_onProgress, starting_load]
    refine ⟨trivial, fun answer _ reports => ?_⟩
    apply ended_of_holds (same.onProgress readProject_project)
    intro failure failed
    exact noLookup_readProject (fun given is => reports given (congrArg failure? is)) failed
  apply Custody.keeps_bind loads
  intro _ after _ same
  rw [Activity.starting_onProgress, starting_loadRemote, Dialogue.bind_assoc]
  apply Keeps.bind failsOnly_state
  intro fetched _ fits
  rw [done_bind]
  apply ended_of_holds
  · obtain ⟨outcome, remote, read, -⟩ := readFeed_eq feed after.progress fetched
    rw [read]
    exact same.onProgress rfl
  · intro failure failed
    exact noLookup_readFeed fits failed

/-- All that a drive is put together from keeps the order and fails with no lookup. -/
def unfailing (equipped : Equipped order) :
    Conduct (reporting NoLookup) (fun _ _ => True) setup order Set.univ where
  free manager _ := SameOrder order manager
  held manager _ := SameOrder order manager
  ready manager _ := SameOrder order manager
  fails := NoLookup
  same_of_free same := same
  same_of_held same := same
  held_of_ready same := same
  stopped same := ⟨same.project, same.resources, same.entities, same.dispatcher⟩
  idle := by
    intro manager _ inquiry _ same
    exact ⟨trivial, fun _ _ _ => same⟩
  reserve := by
    intro manager _ same
    refine ⟨trivial, fun answer _ reports => ⟨fun _ => same, fun failure failed => ?_⟩⟩
    exact ⟨same, reports failure (congrArg failure? failed)⟩
  release := by
    intro manager _ same
    refine ⟨trivial, fun answer _ reports => ⟨same, fun failure failed => ?_⟩⟩
    exact reports failure (congrArg failure? failed)
  load := by
    intro manager _ feed _ same
    exact keeps_unfailing_load same
  appendNext := by
    intro manager _ feed _ same _
    exact equipped.keeps_next same

theorem Equipped.keeps_call (equipped : Equipped order) (same : SameOrder order manager)
    {call : Call} (unprepared : call.assignment? = none) :
    ((call.work setup).starting manager).Keeps (reporting NoLookup) (fun _ _ => True)
      (Unfailing order) () := by
  cases call with
  | prepare assignment => cases unprepared
  | drive way => exact (unfailing equipped).keeps_work trivial same
  | next feed => exact equipped.keeps_next same
  | stop => exact (unfailing equipped).keeps_stop same

/--
After a preparation all lookups of cycles are answered exactly if no entity has for an
area what is the script of one. Then no cycle and no call fails with a lookup, whatever
calls that prepare nothing were made before.
-/
theorem lookups_answered_iff_separate
    (prepares : Ends ((prepare setup project entities targets limit).starting before) exchanges
      (.ok (), manager)) :
    (Equipped manager ↔ Separate project entities) ∧
      (Separate project entities →
        ∀ current, History (reporting NoLookup) setup Unpreparing manager () current () →
          (∀ feed sequence outcome, Leads (reporting NoLookup)
            (cycle setup current feed sequence).run () (.done outcome) () →
              ∀ id, outcome ≠ .error (.resourceNotLoaded id)) ∧
          ∀ call : Call, call.assignment? = none → ∀ outcome after, Leads (reporting NoLookup)
            ((call.work setup).starting current) () (.done (outcome, after)) () →
              ∀ id, outcome ≠ .error (.resourceNotLoaded id)) := by
  have answered := equipped_iff prepares
  refine ⟨answered, fun separate current history => ?_⟩
  have equipped : Equipped manager := answered.mpr separate
  have same : SameOrder manager current := history.sameOrder fun _ _ _ _ unprepared => unprepared
  constructor
  · intro feed sequence outcome run id failed
    have fits := (same.equipped equipped).failsOnly_cycle.leads run
    exact fits _ failed id rfl
  · rintro call unprepared _ after run id rfl
    have ended := (equipped.keeps_call same unprepared).leads run
    exact ended.2 id rfl

/-- An area that has no shape in it. -/
def wallText : Bytes :=
  Utf8.encode "\x7b\"type\":\"MultiPolygon\",\"coordinates\":[]\x7d"

/-- Two entities with the same area. -/
def walledEntities : List Entity :=
  [{ roads with areaKey := some "town/wall.json" }, { paths with areaKey := some "town/wall.json" }]

/-- The preparation for these entities, while every object is the area. -/
def walledPreparation :
    Dialogue collaborators (Except Failure Unit × Manager) × List (Exchange collaborators) :=
  ((prepare townSetup "town" walledEntities [.objectStore] none).starting .fresh).advance
    (P := collaborators) (noting [wallText]) 9 []

theorem walledPreparation_ended :
    walledPreparation.1.value?.map (fun result => result.1.toBool) = some true := by
  decide +kernel

theorem exists_walledManager : ∃ manager preparation,
    Ends ((prepare townSetup "town" walledEntities [.objectStore] none).starting .fresh)
      preparation (.ok (), manager) := by
  obtain ⟨⟨outcome, manager⟩, value, well⟩ := Option.map_eq_some_iff.mp walledPreparation_ended
  obtain ⟨preparation, _, ends⟩ :=
    ends_of_leads (leads_noting [wallText] 9 _ []) (eq_done_of_value? value)
  cases outcome with
  | error failure => cases well
  | ok done => exact ⟨manager, preparation, ends⟩

/-- A manager for two scripts and their area can be prepared, and its calls fail with no lookup. -/
theorem walledManager_lookups_answered :
    ∃ manager : Manager,
      (∃ preparation, Ends ((prepare townSetup "town" walledEntities [.objectStore] none).starting
        .fresh) preparation (.ok (), manager)) ∧
      Equipped manager ∧
      ∀ current, History (reporting NoLookup) townSetup Unpreparing manager () current () →
        ∀ call : Call, call.assignment? = none → ∀ outcome after, Leads (reporting NoLookup)
          ((call.work townSetup).starting current) () (.done (outcome, after)) () →
            ∀ id, outcome ≠ .error (.resourceNotLoaded id) := by
  obtain ⟨manager, preparation, prepares⟩ := exists_walledManager
  have separate : Separate "town" walledEntities := by
    unfold Separate
    decide
  obtain ⟨answered, fails⟩ := lookups_answered_iff_separate prepares
  exact ⟨manager, ⟨preparation, prepares⟩, answered.mpr separate,
    fun current history => (fails separate current history).2⟩

/-- An entity whose area is its script. -/
def enclosedRoads : Entity := { roads with areaKey := some "town/roads.lua" }

/-- The manager that is prepared for this entity. -/
def enclosedTown : Manager := { townManager with entities := [enclosedRoads] }

/-- A manager is prepared for an entity whose area is its script, and its first cycle fails. -/
theorem enclosedTown_fails_lookup :
    (∃ preparation, Ends ((prepare townSetup "town" [enclosedRoads] [.objectStore] none).starting
        .fresh) preparation (.ok (), enclosedTown)) ∧
      ∃ exchanges, Ends ((Call.work townSetup (.next "feed")).starting enclosedTown) exchanges
        (.error (.resourceNotLoaded "town/roads.lua"), enclosedTown) := by
  constructor
  · have run := leads_noting [firstText] 5
      ((prepare townSetup "town" [enclosedRoads] [.objectStore] none).starting .fresh) []
    obtain ⟨exchanges, _, ends⟩ := ends_of_leads run rfl
    exact ⟨exchanges, ends⟩
  · have run := leads_noting [firstText] 9
      ((Call.work townSetup (.next "feed")).starting enclosedTown) []
    obtain ⟨exchanges, _, ends⟩ := ends_of_leads run rfl
    exact ⟨exchanges, ends⟩

end MapReplica.Update
