import MapReplica.Proofs.Update.Unprepared

/-!
# Names that keep things apart

The key of an uploaded list names the project, the entity and the number, the local name of
a list names the entity and the number, and the names of the two diffs name their number.
Each name can be read back, because the id of an entity holds no slash and a numeral holds
neither a slash nor a dot. So what is uploaded for one entity and number replaces nothing
that belongs to others.
-/

namespace MapReplica

namespace Entity

/-- An id that an entity can have in a list of entities that passes its check. -/
def Admitted (id : String) : Prop :=
  ∃ entities, check entities = .ok () ∧ ∃ entity ∈ entities, entity.id = id

theorem Admitted.noSlash {id : String} (admitted : Admitted id) : '/' ∉ id.toList := by
  obtain ⟨entities, checked, entity, member, rfl⟩ := admitted
  exact Update.flat_of_check checked entity member

end Entity

namespace Update

open Dialogue

variable {workDirectory : Path} {directory : List String} {project entity other : String}
variable {first second : Nat}

/-- Keys of lists are equal only for the same project, entity and number. -/
theorem keyOf_eq_iff {project' : String} (admitted : Entity.Admitted entity)
    (admitted' : Entity.Admitted other) :
    Upload.keyOf project entity first = Upload.keyOf project' other second ↔
      project = project' ∧ entity = other ∧ first = second := by
  refine ⟨Upload.keyOf_injective admitted.noSlash admitted'.noSlash, ?_⟩
  rintro ⟨rfl, rfl, rfl⟩
  rfl

/-- Within a project, lists lie at one place only for the same entity and number. -/
theorem listPath_eq_iff (admitted : Entity.Admitted entity) (admitted' : Entity.Admitted other) :
    (listPath workDirectory project entity first).resolveFrom directory =
        (listPath workDirectory project other second).resolveFrom directory ↔
      entity = other ∧ first = second := by
  constructor
  · intro same
    rw [place_listPath admitted.noSlash, place_listPath admitted'.noSlash] at same
    exact listNameOf_injective (List.singleton_inj.mp (List.append_cancel_left same))
  · rintro ⟨rfl, rfl⟩
    rfl

theorem diffPath_eq_iff :
    (diffPath workDirectory first).resolveFrom directory =
      (diffPath workDirectory second).resolveFrom directory ↔ first = second := by
  constructor
  · intro same
    rw [place_diffPath, place_diffPath] at same
    exact diffName_injective (List.singleton_inj.mp (List.append_cancel_left same))
  · rintro rfl
    rfl

theorem mergedPath_eq_iff :
    (mergedPath workDirectory first).resolveFrom directory =
      (mergedPath workDirectory second).resolveFrom directory ↔ first = second := by
  constructor
  · intro same
    rw [place_mergedPath, place_mergedPath] at same
    exact mergedName_injective (List.singleton_inj.mp (List.append_cancel_left same))
  · rintro rfl
    rfl

theorem diffPath_ne_mergedPath :
    (diffPath workDirectory first).resolveFrom directory ≠
      (mergedPath workDirectory second).resolveFrom directory := by
  intro same
  rw [place_diffPath, place_mergedPath] at same
  exact diffName_ne_mergedName (List.singleton_inj.mp (List.append_cancel_left same))

/-! ## What is uploaded -/

variable {setup : Setup} {order manager : Manager} {sequence : Nat} {feed : String}
variable {past : List (Exchange collaborators)}

/--
What is put under a key is the next progress text, or the list of the entity and the number
that the key names, as it was just read.
-/
def Labelled (setup : Setup) (order : Manager) (past : List (Exchange collaborators)) :
    Inquiry → Prop
  | .putObject key body =>
      key = order.progress.key ∨ ∃ entity ∈ order.entities, ∃ sequence,
        key = Upload.keyOf order.progress.project entity.id sequence ∧
          past.getLast? = some (Inquiry.answered
            (.readFile (listPath setup.workDirectory order.progress.project entity.id sequence))
            (Except.ok body))
  | _ => True

/-- The inquiries that put nothing into the object store. -/
def Putless : Inquiry → Prop
  | .putObject _ _ => False
  | _ => True

theorem keeps_putless {α : Type} {dialogue : Dialogue collaborators α}
    (asks : dialogue.Asks Putless) :
    dialogue.Keeps recorded (Labelled setup order) (fun _ _ => True) past := by
  refine asks.keeps (fun front inquiry putless _ => ?_) fun _ _ _ _ => trivial
  cases inquiry with
  | putObject key body => exact putless.elim
  | _ => trivial

theorem keeps_labelled_enqueue {dispatcher : Upload.Dispatcher} {areas : List Box} :
    (dispatcher.enqueue areas).run.Keeps recorded (Labelled setup order) (fun _ _ => True)
      past :=
  keeps_putless (asks_enqueue fun _ => trivial)

/-- A list is put as it was read, right after it was read. -/
theorem keeps_labelled_serve {dispatcher : Upload.Dispatcher} {listing : Upload.Listing}
    {content : Bytes}
    (labelled : Labelled setup order past (.putObject listing.key content)) :
    (dispatcher.serve listing content).run.Keeps recorded (Labelled setup order)
      (fun _ _ => True) past := by
  rw [Upload.Dispatcher.serve_eq]
  split
  case isTrue => trivial
  case isFalse =>
    split
    case isFalse => exact keeps_labelled_enqueue
    case isTrue =>
      refine ⟨labelled, fun answer now _ => ?_⟩
      rcases answer with failure | ⟨⟩
      · trivial
      · exact keeps_labelled_enqueue

theorem keeps_labelled_dispatch {dispatcher : Upload.Dispatcher} {listing : Upload.Listing}
    (labelled : ∀ content, Labelled setup order
      (past ++ [Inquiry.answered (.readFile listing.list) (Except.ok content)])
      (.putObject listing.key content)) :
    (dispatcher.dispatch listing).run.Keeps recorded (Labelled setup order) (fun _ _ => True)
      past := by
  unfold Upload.Dispatcher.dispatch
  split
  case isTrue => trivial
  case isFalse =>
    refine ⟨trivial, ?_⟩
    rintro (fault | content) _ rfl
    · cases fault <;> trivial
    · exact keeps_labelled_serve (labelled content)

theorem keeps_labelled_uploadAll (same : SameOrder order manager) :
    (uploadAll setup manager sequence).run.Keeps recorded (Labelled setup order)
      (fun _ _ => True) past := by
  unfold uploadAll
  split
  case h_1 => trivial
  case h_2 dispatcher _ =>
    split
    case isTrue => trivial
    case isFalse =>
      refine Task.keeps_ofExcept_bind (fun listings made => ?_) fun _ => trivial
      -- Nothing is remembered from one list to the next.
      have each : ∀ listing ∈ listings, ∀ now : List (Exchange collaborators),
          (dispatcher.dispatch listing).run.Keeps recorded (Labelled setup order)
            (fun _ _ => True) now := by
        intro listing among now
        obtain ⟨entity, member, listed⟩ := exists_of_mapM made among
        obtain ⟨area, rfl⟩ := listing_of_listingOf listed
        apply keeps_labelled_dispatch
        intro content
        refine .inr ⟨entity, same.entities ▸ member, sequence, ?_, ?_⟩
        · exact congrArg (Upload.keyOf · entity.id sequence) same.project
        · rw [List.getLast?_append, ← same.project]
          rfl
      clear made
      induction listings generalizing past with
      | nil => trivial
      | cons listing rest ih =>
          refine Task.keeps_bind (each listing List.mem_cons_self past) ?_ fun _ _ _ => trivial
          intro _ now _
          exact ih fun later member => each later (List.mem_cons_of_mem _ member)

theorem keeps_labelled_cycle (same : SameOrder order manager) :
    (cycle setup manager feed sequence).run.Keeps recorded (Labelled setup order)
      (fun _ _ => True) past := by
  have downloads : (Feed.downloadDiff feed sequence
      (diffPath setup.workDirectory sequence)).run.Keeps recorded (Labelled setup order)
      (fun _ _ => True) past :=
    keeps_putless (asks_download trivial (fun _ _ => trivial) fun _ => trivial)
  refine Task.keeps_bind downloads (fun _ fetched _ => ?_) fun _ _ _ => trivial
  have merges : (Task.merge (diffPath setup.workDirectory sequence)
      (mergedPath setup.workDirectory sequence)).run.Keeps recorded (Labelled setup order)
      (fun _ _ => True) fetched :=
    keeps_putless ⟨trivial, fun _ => trivial⟩
  refine Task.keeps_bind merges (fun _ merged _ => ?_) fun _ _ _ => trivial
  have applies : (Task.forEach manager.entities (applyTo setup manager sequence
      (mergedPath setup.workDirectory sequence))).run.Keeps recorded (Labelled setup order)
      (fun _ _ => True) merged :=
    keeps_putless (Task.asks_forEach fun entity _ => asks_applyTo fun _ _ => trivial)
  refine Task.keeps_bind applies (fun _ applied _ => ?_) fun _ _ _ => trivial
  split
  case isFalse => trivial
  case isTrue => exact keeps_labelled_uploadAll same

theorem keeps_labelled_next (same : SameOrder order manager) :
    ((appendNext setup feed).starting manager).Keeps recorded (Labelled setup order)
      (fun _ _ => True) past := by
  apply keeps_appendNext_of (fun _ _ => True) (keeps_labelled_cycle same)
  · intro outcome now _
    exact keeps_putless (asks_cleanUp trivial fun _ _ => trivial)
  · exact fun _ _ _ => trivial
  · intro now _
    exact ⟨.inl (congrArg Progress.keyOf same.project), fun _ _ _ => trivial⟩

/-- What the keys of a manager's puts name, as it steers drives. -/
def labels (setup : Setup) (order : Manager) :
    Steering recorded (Labelled setup order) setup order Set.univ where
  outside _ := True
  inside _ := True
  known _ _ := True
  held _ _ := trivial
  idle idle _ := by
    refine ⟨?_, fun _ _ _ => trivial⟩
    cases idle <;> trivial
  reserve _ := ⟨trivial, fun _ _ _ => ⟨fun _ => trivial, fun _ => trivial⟩⟩
  release _ := ⟨trivial, fun _ _ _ => trivial⟩
  load _ _ := ⟨trivial, fun _ _ _ => ⟨trivial, fun _ _ => trivial⟩⟩
  fetch _ _ := ⟨trivial, fun _ _ _ => trivial⟩
  remote _ _ := trivial
  appendNext := by
    intro manager past feed _ same _ _ _
    apply ((keeps_labelled_next same).and (keeps_same_appendNext same)).mono
    rintro result now ⟨-, same, remote⟩
    exact ⟨same, trivial, fun _ _ => ⟨trivial, remote⟩⟩

/-- Every call that prepares nothing puts only what the key names. -/
theorem keeps_labelled_call {call : Call} (unprepared : call.assignment? = none)
    (same : SameOrder order manager) :
    ((call.work setup).starting manager).Keeps recorded (Labelled setup order)
      (fun _ _ => True) past := by
  cases call with
  | prepare assignment => cases unprepared
  | drive way =>
      apply ((labels setup order).keeps_work trivial same trivial).mono
      exact fun _ _ _ => trivial
  | next feed => exact keeps_labelled_next same
  | stop =>
      apply ((labels setup order).conduct.keeps_stop ⟨same, trivial⟩).mono
      exact fun _ _ _ => trivial

/-- After a preparation a call puts only the next progress text and lists that were just read. -/
theorem labelled_of_prepares {entities : List Entity} {targets : List Upload.Target}
    {limit : Option Nat} {before prepared : Manager}
    {preparation last : List (Exchange collaborators)}
    (prepares : Ends ((prepare setup project entities targets limit).starting before) preparation
      (.ok (), prepared))
    (history : History recorded setup Unpreparing prepared preparation manager past)
    {call : Call} (unprepared : call.assignment? = none) {key : String} {body : Bytes}
    {next : Except Failure Unit → Dialogue collaborators (Except Failure Unit × Manager)}
    (run : Leads recorded ((call.work setup).starting manager) past
      (.ask (P := collaborators) (.putObject key body) next) last) :
    key = Progress.keyOf project ∨
      ∃ entity ∈ entities, ∃ sequence, key = Upload.keyOf project entity.id sequence ∧
        last.getLast? = some (Inquiry.answered
          (.readFile (listPath setup.workDirectory project entity.id sequence))
          (Except.ok body)) := by
  have ready := (prepared_of_ends prepares).1
  have same : SameOrder prepared manager := history.sameOrder fun _ _ _ _ admitted => admitted
  have labelled := ((keeps_labelled_call unprepared same).leads run).1
  rwa [Labelled, Progress.key, ready.project, ready.entities] at labelled

/-! ## Names never collide -/

/--
Keys of lists are equal only for the same project, entity and number, and no key of a list is
the key of a progress text. Within a project, lists lie at the same place only for the same
entity and number, and diffs only for the same kind and number. So after a preparation,
whatever else was called, every put is the next progress text or a list, as it was read for an
entity and a number, under the key that names these and nothing that belongs to others.
-/
theorem names_never_collide (directory : List String) (workDirectory : Path) :
    (∀ entity entity' : String, Entity.Admitted entity → Entity.Admitted entity' →
      (∀ project project' first second,
        Upload.keyOf project entity first = Upload.keyOf project' entity' second ↔
          project = project' ∧ entity = entity' ∧ first = second) ∧
      ∀ project first second,
        (listPath workDirectory project entity first).resolveFrom directory =
            (listPath workDirectory project entity' second).resolveFrom directory ↔
          entity = entity' ∧ first = second) ∧
    (∀ project entity sequence project',
      Upload.keyOf project entity sequence ≠ Progress.keyOf project') ∧
    (∀ first second,
      ((diffPath workDirectory first).resolveFrom directory =
          (diffPath workDirectory second).resolveFrom directory ↔ first = second) ∧
      ((mergedPath workDirectory first).resolveFrom directory =
          (mergedPath workDirectory second).resolveFrom directory ↔ first = second) ∧
      (diffPath workDirectory first).resolveFrom directory ≠
        (mergedPath workDirectory second).resolveFrom directory) ∧
    ∀ (setup : Setup) (project : String) (entities : List Entity) (targets : List Upload.Target)
      (limit : Option Nat) (before prepared manager : Manager)
      (preparation past last : List (Exchange collaborators)),
      Ends ((prepare setup project entities targets limit).starting before) preparation
        (.ok (), prepared) →
      History recorded setup Unpreparing prepared preparation manager past →
      ∀ call : Call, call.assignment? = none → ∀ key body next,
        Leads recorded ((call.work setup).starting manager) past
          (.ask (P := collaborators) (.putObject key body) next) last →
        key = Progress.keyOf project ∨
          ∃ entity ∈ entities, ∃ sequence, key = Upload.keyOf project entity.id sequence ∧
            last.getLast? = some (Inquiry.answered
              (.readFile (listPath setup.workDirectory project entity.id sequence))
              (Except.ok body)) ∧
            (∀ project', key ≠ Progress.keyOf project') ∧
            ∀ project' entity' sequence', Entity.Admitted entity' →
              key = Upload.keyOf project' entity' sequence' →
                project' = project ∧ entity' = entity.id ∧ sequence' = sequence := by
  refine ⟨fun entity entity' admitted admitted' =>
      ⟨fun _ _ _ _ => keyOf_eq_iff admitted admitted',
        fun _ _ _ => listPath_eq_iff admitted admitted'⟩,
    fun _ _ _ _ => Upload.keyOf_ne_progress _ _ _ _,
    fun _ _ => ⟨diffPath_eq_iff, mergedPath_eq_iff, diffPath_ne_mergedPath⟩, ?_⟩
  intro setup project entities targets limit before prepared manager preparation past last
    prepares history call unprepared key body next run
  rcases labelled_of_prepares prepares history unprepared run with
    own | ⟨entity, member, sequence, rfl, read⟩
  · exact .inl own
  · refine .inr ⟨entity, member, sequence, rfl, read,
      fun other => Upload.keyOf_ne_progress _ _ other _, ?_⟩
    intro project' entity' sequence' admitted equal
    have own : Entity.Admitted entity.id :=
      ⟨entities, (prepared_of_ends prepares).1.checked, entity, member, rfl⟩
    exact (keyOf_eq_iff admitted own).mp equal.symm

/-- What was said when the town was prepared. -/
def townPreparation : List (Exchange collaborators) :=
  (((prepare townSetup "town" [roads] [.objectStore] none).starting {}).advance
    (P := collaborators) (noting [firstText]) 5 []).2

theorem ends_townPreparation :
    Ends ((prepare townSetup "town" [roads] [.objectStore] none).starting {}) townPreparation
      (.ok (), townManager) := by
  have run := leads_noting [firstText] 5
    ((prepare townSetup "town" [roads] [.objectStore] none).starting {}) []
  obtain ⟨exchanges, said, ends⟩ := ends_of_leads run rfl
  rw [townPreparation, said]
  exact ends

/-- A batch of the town up to its first upload. -/
def townUpload : Dialogue collaborators (Except Failure Unit × Manager) ×
    List (Exchange collaborators) :=
  (((Call.drive (.append "feed")).work townSetup).starting townManager).advance
    (P := collaborators) expiring 9 townPreparation

theorem townUpload_putting : putting? townUpload.1 =
    some ("town/roads/2/expire.list", Utf8.encode "1/0/0") := by
  decide +kernel

/-- Ids with dots and digits, a project with a slash, and the upload of a batch of the town. -/
theorem townUpload_collides_with_nothing :
    Entity.Admitted "roads.4" ∧ Entity.Admitted "roads" ∧
      Upload.keyOf "town" "roads.4" 2 ≠ Upload.keyOf "town/roads.4" "roads" 2 ∧
      (listPath ⟨"work"⟩ "town" "roads.4" 2).resolve ≠
        (listPath ⟨"work"⟩ "town" "roads" 42).resolve ∧
      ∃ entity ∈ [roads], ∃ sequence,
        "town/roads/2/expire.list" = Upload.keyOf "town" entity.id sequence ∧
          townUpload.2.getLast? = some (Inquiry.answered
            (.readFile (listPath ⟨"work"⟩ "town" entity.id sequence))
            (Except.ok (Utf8.encode "1/0/0"))) := by
  have dotted : Entity.Admitted "roads.4" :=
    ⟨[{ roads with id := "roads.4" }], by decide, _, List.mem_singleton_self _, rfl⟩
  have plain : Entity.Admitted "roads" := ⟨[roads], by decide, _, List.mem_singleton_self _, rfl⟩
  obtain ⟨names, -, -, uploads⟩ := names_never_collide [] ⟨"work"⟩
  obtain ⟨keys, places⟩ := names "roads.4" "roads" dotted plain
  refine ⟨dotted, plain, ?_, ?_, ?_⟩
  · rw [Ne, keys]
    decide
  · rw [Ne, Path.resolve, Path.resolve, places]
    decide
  · obtain ⟨next, asked⟩ := ask_of_putting? townUpload_putting
    have run : Leads recorded (((Call.drive (.append "feed")).work townSetup).starting townManager)
        townPreparation townUpload.1 townUpload.2 :=
      leads_expiring 9 _ _
    rw [asked] at run
    rcases uploads townSetup "town" [roads] [.objectStore] none {} townManager townManager _ _ _
        ends_townPreparation .start _ rfl _ _ _ run with
      own | ⟨entity, member, sequence, key, read, -⟩
    · exact absurd own (by decide)
    · exact ⟨entity, member, sequence, key, read⟩

end Update

end MapReplica
