import MapReplica.Proofs.Feed.Requests
import MapReplica.Proofs.Upload.Keys
import MapReplica.Update.Cycle

/-!
# Attempts

An attempt is what a cycle has to have done before its number may be committed: it
downloaded the diff of that number to its end, merged it once, applied the merged diff
to every entity, delivered the expired tiles of every entity where they are wanted, and
removed its files. A cycle that ends well and the removals after it make an attempt.
-/

namespace MapReplica

open Dialogue

/-- The inquiries that touch neither a lock nor the progress text of any project. -/
def Inquiry.SparesProgress : Inquiry → Prop
  | .reserve _ => False
  | .release _ => False
  | .getObject _ => False
  | .putObject key _ => ∀ project, key ≠ Progress.keyOf project
  | _ => True

variable {exchanges : List (Exchange collaborators)}

namespace Feed

/-- The exchanges in which a url was fetched to its end into a file. -/
def Downloaded (url : String) (destination : Path)
    (exchanges : List (Exchange collaborators)) : Prop :=
  ∃ response : Http.Response, Http.isSuccess response.status = true ∧ response.complete = true ∧
    exchanges =
      Inquiry.answered (.fetch url []) (Except.ok response) ::
        ((destination.parent?.toList.map fun directory =>
            Inquiry.answered (.createDirectory directory) (Except.ok ())) ++
          [Inquiry.answered (.writeFile destination response.body) (Except.ok ())])

/-- A file that was put in its place was written after its directory was made, if it has one. -/
theorem Placed.ok {path : Path} {content : Bytes} {outcome : Except Failure Unit}
    (placed : Placed path content exchanges outcome) (well : outcome = .ok ()) :
    exchanges = (path.parent?.toList.map fun directory =>
        Inquiry.answered (.createDirectory directory) (Except.ok ())) ++
      [Inquiry.answered (.writeFile path content) (Except.ok ())] := by
  cases placed with
  | noDirectory => cases well
  | inDirectory outer answer =>
      obtain fault | ⟨⟨⟩⟩ := answer
      · cases well
      · rw [outer]
        rfl
  | alone outer answer =>
      obtain fault | ⟨⟨⟩⟩ := answer
      · cases well
      · rw [outer]
        rfl

theorem downloaded_of_ends {url : String} {destination : Path}
    (ends : Ends (download url [] destination).run exchanges (.ok ())) :
    Downloaded url destination exchanges := by
  cases ends_download_iff.mp ends with
  | @whole _ response _ answered placed all =>
      cases answered with
      | accepted success =>
          obtain rfl := placed.ok rfl
          exact ⟨response, isSuccess_iff.mpr success, all, rfl⟩

end Feed

namespace Upload

/-- The answers after which a request counts as delivered. -/
def Accepted : Except Failure Unit → Prop
  | .ok _ => True
  | .error failure => failure.isAlreadyQueued = true

/-- What requesting areas comes to, by the answer to the push. -/
def pushed : Except Failure Unit → Except Failure Unit
  | .ok () => .ok ()
  | .error failure => if failure.isAlreadyQueued then .ok () else .error failure

theorem pushed_eq_ok_iff {answer : Except Failure Unit} : pushed answer = .ok () ↔ Accepted answer := by
  cases answer with
  | ok _ => simp [pushed, Accepted]
  | error failure => simp [pushed, Accepted]

/-- Areas are requested at once, if there are any, and the answer says what that comes to. -/
theorem run_pushBoxes {settings : Queue.Settings} {areas : List Box} :
    (pushBoxes settings areas).run =
      if areas.isEmpty then .done (.ok ())
      else .ask (P := collaborators) (.push (Queue.Request.ofAreas areas settings))
        fun answer => .done (pushed answer) := by
  unfold pushBoxes
  split
  case isTrue => rfl
  case isFalse =>
    refine congrArg (Dialogue.ask (P := collaborators) _) (funext fun answer => ?_)
    obtain failure | ⟨⟨⟩⟩ := answer
    · show ExceptT.run (if failure.isAlreadyQueued = true then pure () else throw failure) =
        Dialogue.done (if failure.isAlreadyQueued = true then .ok () else .error failure)
      cases failure.isAlreadyQueued with
      | true => rfl
      | false => rfl
    · rfl

/--
The exchanges in which areas were requested from the queue, if it is a target and there
are any.
-/
def Requested (target : Option Queue.Settings) (areas : List Box)
    (exchanges : List (Exchange collaborators)) : Prop :=
  match target with
  | none => exchanges = []
  | some settings =>
      if areas.isEmpty then exchanges = []
      else ∃ answer, Accepted answer ∧
        exchanges = [Inquiry.answered (.push (Queue.Request.ofAreas areas settings)) answer]

/-- The lines of a list of expired tiles. -/
def linesOf (content : Bytes) : List Expiry.Line :=
  Expiry.uniqueLines (Utf8.decodeLossy content)

/-- Requests areas from the queue, if it is a target. -/
def Dispatcher.enqueue (dispatcher : Dispatcher) (areas : List Box) : Task Unit :=
  match dispatcher.toQueue with
  | none => pure ()
  | some settings => pushBoxes settings areas

/-- A list that is not blank is put into the object store before its areas are requested. -/
theorem Dispatcher.serve_eq (dispatcher : Dispatcher) (listing : Listing) (content : Bytes) :
    dispatcher.serve listing content =
      if (linesOf content).isEmpty then pure ()
      else if dispatcher.toStore then do
        Task.putObject listing.key content
        dispatcher.enqueue (boxes listing.area (linesOf content))
      else dispatcher.enqueue (boxes listing.area (linesOf content)) := by
  simp only [Dispatcher.serve]
  rfl

/--
The exchanges in which the expired tiles of an entity were delivered: a missing or blank
list needs nothing, any other list was put into the object store as it is and its boxes
into the queue, as far as these are targets.
-/
inductive Delivered (dispatcher : Dispatcher) (listing : Listing) :
    List (Exchange collaborators) → Prop where
  | missing :
      Delivered dispatcher listing [Inquiry.answered (.readFile listing.list)
        (Except.error .notFound)]
  | blank (content : Bytes) (nothing : (linesOf content).isEmpty = true) :
      Delivered dispatcher listing [Inquiry.answered (.readFile listing.list) (Except.ok content)]
  | shipped (content : Bytes) (requested : List (Exchange collaborators))
      (something : (linesOf content).isEmpty = false)
      (request : Requested dispatcher.toQueue (boxes listing.area (linesOf content)) requested) :
      Delivered dispatcher listing
        (Inquiry.answered (.readFile listing.list) (Except.ok content) ::
          ((if dispatcher.toStore then
              [Inquiry.answered (.putObject listing.key content) (Except.ok ())]
            else []) ++ requested))

theorem requested_of_ends {settings : Queue.Settings} {areas : List Box}
    (ends : Ends (pushBoxes settings areas).run exchanges (.ok ())) :
    Requested (some settings) areas exchanges := by
  rw [run_pushBoxes] at ends
  simp only [Requested]
  split at ends
  case isTrue nothing =>
    rw [if_pos nothing]
    exact (ends_done_iff.mp ends).1
  case isFalse something =>
    obtain ⟨answer, rfl, settled⟩ := ends_answer_iff.mp ends
    rw [if_neg something]
    exact ⟨answer, pushed_eq_ok_iff.mp settled, rfl⟩

theorem requested_of_enqueue {dispatcher : Dispatcher} {areas : List Box}
    (ends : Ends (dispatcher.enqueue areas).run exchanges (.ok ())) :
    Requested dispatcher.toQueue areas exchanges := by
  unfold Dispatcher.enqueue at ends
  cases target : dispatcher.toQueue with
  | none =>
      rw [target] at ends
      exact (Task.ends_pure_ok_iff.mp ends).1
  | some settings =>
      rw [target] at ends
      exact requested_of_ends ends

/-- What is left to do once a list was read. -/
theorem delivered_of_serve {dispatcher : Dispatcher} {listing : Listing} {content : Bytes}
    (ends : Ends (dispatcher.serve listing content).run exchanges (.ok ())) :
    Delivered dispatcher listing
      (Inquiry.answered (.readFile listing.list) (Except.ok content) :: exchanges) := by
  rw [Dispatcher.serve_eq] at ends
  split at ends
  case isTrue nothing =>
    obtain ⟨rfl, _⟩ := Task.ends_pure_ok_iff.mp ends
    exact .blank content nothing
  case isFalse something =>
    have lines : (linesOf content).isEmpty = false := (Bool.not_eq_true _).mp something
    split at ends
    case isTrue wanted =>
      obtain ⟨stored, _, requested, rfl, hstore, hqueue⟩ := Task.ends_bind_ok_iff.mp ends
      cases ends_question_iff.mp hstore
      have shipped := Delivered.shipped content requested lines (requested_of_enqueue hqueue)
      rw [if_pos wanted] at shipped
      exact shipped
    case isFalse unwanted =>
      have shipped := Delivered.shipped content exchanges lines (requested_of_enqueue ends)
      rw [if_neg unwanted] at shipped
      exact shipped

theorem delivered_of_ends {dispatcher : Dispatcher} {listing : Listing}
    (targeted : dispatcher.targets.isEmpty = false)
    (ends : Ends (dispatcher.dispatch listing).run exchanges (.ok ())) :
    Delivered dispatcher listing exchanges := by
  rw [Dispatcher.dispatch, targeted] at ends
  obtain ⟨front, answer, back, rfl, read, rest⟩ := Task.ends_bind_ok_iff.mp ends
  cases Task.ends_lift_ask_iff.mp read
  split at rest
  case h_1 =>
    obtain ⟨rfl, _⟩ := Task.ends_pure_ok_iff.mp rest
    exact .missing
  case h_2 => exact (Task.ends_throw_ok_iff.mp rest).elim
  case h_3 content => exact delivered_of_serve rest

end Upload

namespace Update

variable (setup : Setup) (manager : Manager) (sequence : Nat)

/-- The exchange in which the merged diff was applied to an entity. -/
def Applied (entity : Entity) (exchange : Exchange collaborators) : Prop :=
  ∃ style, manager.resources.scriptPath (entity.scriptKey manager.progress.project) = .ok style ∧
    exchange =
      Inquiry.answered
        (.applyDiff
          (argumentsFor setup manager sequence (mergedPath setup.workDirectory sequence)
            entity style))
        (Except.ok ())

/--
The exchanges in which the expired tiles of all entities were delivered, if they are
listed and wanted.
-/
def Shipped (exchanges : List (Exchange collaborators)) : Prop :=
  match manager.dispatcher with
  | none => exchanges = []
  | some dispatcher =>
      if setup.listsTiles && !dispatcher.targets.isEmpty then
        ∃ parts, exchanges = parts.flatten ∧
          List.Forall₂
            (fun entity part => ∃ listing, listingOf setup manager sequence entity = .ok listing ∧
              Upload.Delivered dispatcher listing part)
            manager.entities parts
      else exchanges = []

/-- The exchanges in which all files of a cycle were removed as far as they existed. -/
def Cleared (exchanges : List (Exchange collaborators)) : Prop :=
  List.Forall₂ (fun path exchange =>
      ∃ answer, exchange = Inquiry.answered (.removeFile path) answer)
    (artifacts setup.workDirectory manager.progress.project manager.entities sequence) exchanges

/-- The exchanges in which a cycle did all of its work, in their order. -/
def Performed (feed : String) (exchanges : List (Exchange collaborators)) : Prop :=
  ∃ downloaded applied shipped,
    exchanges =
      downloaded ++
        Inquiry.answered
            (.merge (diffPath setup.workDirectory sequence)
              (mergedPath setup.workDirectory sequence))
            (Except.ok ()) ::
          (applied ++ shipped) ∧
    Feed.Downloaded (Diff.joinUrl feed (Diff.path sequence)) (diffPath setup.workDirectory sequence)
      downloaded ∧
    List.Forall₂ (Applied setup manager sequence) manager.entities applied ∧
    Shipped setup manager sequence shipped

/-- The exchanges of an attempt at a number: the work of its cycle and the removal of its files. -/
def Attempt (feed : String) (exchanges : List (Exchange collaborators)) : Prop :=
  ∃ performed cleared, exchanges = performed ++ cleared ∧
    Performed setup manager sequence feed performed ∧ Cleared setup manager sequence cleared

variable {setup manager sequence}

theorem applied_of_ends {entity : Entity}
    (ends : Ends (applyTo setup manager sequence
      (mergedPath setup.workDirectory sequence) entity).run
      exchanges (.ok ())) :
    ∃ exchange, exchanges = [exchange] ∧ Applied setup manager sequence entity exchange := by
  obtain ⟨front, style, back, rfl, hstyle, happly⟩ := Task.ends_bind_ok_iff.mp ends
  obtain ⟨rfl, found⟩ := Task.ends_ofExcept_ok_iff.mp hstyle
  exact ⟨_, ends_question_iff.mp happly, style, found, rfl⟩

theorem flatten_singletons {α β : Type} {relation : α → β → Prop} {items : List α}
    {parts : List (List β)}
    (each : List.Forall₂ (fun item part => ∃ only, part = [only] ∧ relation item only)
      items parts) :
    List.Forall₂ relation items parts.flatten := by
  induction each with
  | nil => exact .nil
  | cons head _ ih =>
      obtain ⟨only, rfl, related⟩ := head
      exact .cons related ih

theorem forall₂_of_mapM {α β : Type} {make : α → Except Failure β} {items : List α} {made : List β}
    (all : items.mapM make = .ok made) :
    List.Forall₂ (fun item result => make item = .ok result) items made := by
  induction items generalizing made with
  | nil =>
      cases all
      exact .nil
  | cons item rest ih =>
      rw [List.mapM_cons] at all
      obtain ⟨first, head, all⟩ := exists_of_bind_ok all
      obtain ⟨later, tail, all⟩ := exists_of_bind_ok all
      cases all
      exact .cons head (ih tail)

theorem mapM_of_forall₂ {α β : Type} {make : α → Except Failure β} {items : List α} {made : List β}
    (each : List.Forall₂ (fun item result => make item = .ok result) items made) :
    items.mapM make = .ok made := by
  induction each with
  | nil => rfl
  | cons head _ ih =>
      rw [List.mapM_cons, head]
      simp only [ih]
      rfl

/-- Everything that was made was made from one of the items. -/
theorem exists_of_mapM {α β : Type} {make : α → Except Failure β} {items : List α} {made : List β}
    (all : items.mapM make = .ok made) {result : β} (member : result ∈ made) :
    ∃ item ∈ items, make item = .ok result := by
  have each := forall₂_of_mapM all
  clear all
  induction each with
  | nil => cases member
  | cons head _ ih =>
      rcases List.mem_cons.mp member with rfl | later
      · exact ⟨_, List.mem_cons_self, head⟩
      · obtain ⟨item, among, well⟩ := ih later
        exact ⟨item, List.mem_cons_of_mem _ among, well⟩

/-- What can be made from each item can be made from all. -/
theorem exists_mapM {α β : Type} {make : α → Except Failure β} {items : List α}
    (each : ∀ item ∈ items, ∃ result, make item = .ok result) :
    ∃ made, items.mapM make = .ok made := by
  induction items with
  | nil => exact ⟨[], rfl⟩
  | cons item rest ih =>
      obtain ⟨first, head⟩ := each item List.mem_cons_self
      obtain ⟨later, tail⟩ := ih fun other member => each other (List.mem_cons_of_mem _ member)
      refine ⟨first :: later, ?_⟩
      rw [List.mapM_cons, head]
      simp only [tail]
      rfl

theorem exists_of_forall₂ {α β : Type} {related : α → β → Prop} {items : List α} {others : List β}
    (each : List.Forall₂ related items others) {item : α} (member : item ∈ items) :
    ∃ other ∈ others, related item other := by
  induction each with
  | nil => cases member
  | cons first _ ih =>
      rcases List.mem_cons.mp member with rfl | later
      · exact ⟨_, List.mem_cons_self, first⟩
      · obtain ⟨other, among, own⟩ := ih later
        exact ⟨other, List.mem_cons_of_mem _ among, own⟩

/--
What holds of entities and their listings, and of listings and their parts, joined over
the listings.
-/
theorem forall₂_join {α β γ : Type} {first : α → β → Prop} {second : β → γ → Prop} {items : List α}
    {middle : List β} {parts : List γ} (left : List.Forall₂ first items middle)
    (right : List.Forall₂ second middle parts) :
    List.Forall₂ (fun item part => ∃ between, first item between ∧ second between part)
      items parts := by
  induction left generalizing parts with
  | nil =>
      cases right
      exact .nil
  | cons head _ ih =>
      cases right with
      | cons next rest => exact .cons ⟨_, head, next⟩ (ih rest)

theorem shipped_of_ends
    (ends : Ends
      (if setup.listsTiles then uploadAll setup manager sequence else pure () : Task Unit).run
      exchanges (.ok ())) :
    Shipped setup manager sequence exchanges := by
  unfold Shipped
  split at ends
  case isFalse silent =>
    obtain ⟨rfl, _⟩ := Task.ends_pure_ok_iff.mp ends
    cases manager.dispatcher with
    | none => rfl
    | some dispatcher => simp [silent]
  case isTrue lists =>
    unfold uploadAll at ends
    cases served : manager.dispatcher with
    | none =>
        rw [served] at ends
        exact (Task.ends_pure_ok_iff.mp ends).1
    | some dispatcher =>
        simp only [served] at ends
        split at ends
        case isTrue empty =>
          simpa [empty] using (Task.ends_pure_ok_iff.mp ends).1
        case isFalse targeted =>
          have targets : dispatcher.targets.isEmpty = false := (Bool.not_eq_true _).mp targeted
          obtain ⟨front, listings, back, rfl, hlist, heach⟩ := Task.ends_bind_ok_iff.mp ends
          obtain ⟨rfl, made⟩ := Task.ends_ofExcept_ok_iff.mp hlist
          obtain ⟨parts, rfl, each⟩ := Task.ends_forEach_ok_iff.mp heach
          have delivered := each.imp fun _ _ part => Upload.delivered_of_ends targets part
          simp only [lists, targets]
          exact ⟨parts, rfl, forall₂_join (forall₂_of_mapM made) delivered⟩

/-- A cycle that ends well has done all of its work. -/
theorem performed_of_ends {feed : String}
    (ends : Ends (cycle setup manager feed sequence).run exchanges (.ok ())) :
    Performed setup manager sequence feed exchanges := by
  obtain ⟨downloaded, _, _, rfl, hdownload, ends⟩ := Task.ends_bind_ok_iff.mp ends
  obtain ⟨merged, _, _, rfl, hmerge, ends⟩ := Task.ends_bind_ok_iff.mp ends
  obtain ⟨applied, _, shipped, rfl, happly, hship⟩ := Task.ends_bind_ok_iff.mp ends
  obtain ⟨parts, rfl, each⟩ := Task.ends_forEach_ok_iff.mp happly
  cases ends_question_iff.mp hmerge
  refine ⟨downloaded, parts.flatten, shipped, rfl, Feed.downloaded_of_ends hdownload, ?_,
    shipped_of_ends hship⟩
  exact flatten_singletons (each.imp fun _ _ part => applied_of_ends part)

/-! ## Removals -/

/-- Removing the files of a cycle never fails. -/
theorem cleared_of_ends {outcome : Except Failure Unit}
    (ends : Ends (removeArtifacts setup manager sequence).run exchanges outcome) :
    outcome = .ok () ∧ Cleared setup manager sequence exchanges := by
  unfold removeArtifacts at ends
  unfold Cleared
  generalize artifacts setup.workDirectory manager.progress.project manager.entities
    sequence = paths
    at ends ⊢
  induction paths generalizing exchanges with
  | nil =>
      obtain ⟨rfl, rfl⟩ := ends_done_iff.mp ends
      exact ⟨rfl, .nil⟩
  | cons path rest ih =>
      obtain ⟨answer, later, rfl, hrest⟩ := ends_ask_iff.mp ends
      obtain ⟨well, removed⟩ := ih hrest
      exact ⟨well, .cons ⟨answer, rfl⟩ removed⟩

theorem removal_of_cleared (clears : Cleared setup manager sequence exchanges)
    {exchange : Exchange collaborators} (member : exchange ∈ exchanges) :
    ∃ path ∈ artifacts setup.workDirectory manager.progress.project manager.entities sequence,
      ∃ answer, exchange = Inquiry.answered (.removeFile path) answer :=
  exists_of_forall₂ (List.Forall₂.flip clears) member

/-! ## Questions -/

variable {permitted : Inquiry → Prop}

theorem asks_get {url : String} {headers : List Http.Header}
    (fetch : permitted (.fetch url headers)) :
    (Feed.get url headers).run.Asks permitted := by
  refine Task.asks_bind ⟨fetch, fun _ => trivial⟩ fun reply => ?_
  cases reply with
  | error fault => trivial
  | ok response =>
      simp only
      split
      case isTrue => trivial
      case isFalse => trivial

theorem asks_makeParent {path : Path}
    (directory : ∀ outer, path.parent? = some outer → permitted (.createDirectory outer)) :
    (Feed.makeParent path).run.Asks permitted := by
  unfold Feed.makeParent
  split
  case h_1 => trivial
  case h_2 outer found => exact ⟨directory outer found, fun _ => trivial⟩

theorem asks_download {url : String} {headers : List Http.Header} {destination : Path}
    (fetch : permitted (.fetch url headers))
    (directory : ∀ outer, destination.parent? = some outer → permitted (.createDirectory outer))
    (write : ∀ content, permitted (.writeFile destination content)) :
    (Feed.download url headers destination).run.Asks permitted := by
  refine Task.asks_bind (asks_get fetch) fun response => ?_
  refine Task.asks_bind (asks_makeParent directory) fun _ => ?_
  refine Task.asks_bind ⟨write _, fun _ => trivial⟩ fun _ => ?_
  split
  case isTrue => trivial
  case isFalse => trivial

theorem asks_pushBoxes {settings : Queue.Settings} {areas : List Box}
    (push : ∀ request, permitted (.push request)) :
    (Upload.pushBoxes settings areas).run.Asks permitted := by
  rw [Upload.run_pushBoxes]
  split
  case isTrue => trivial
  case isFalse => exact ⟨push _, fun _ => trivial⟩

theorem asks_enqueue {dispatcher : Upload.Dispatcher} {areas : List Box}
    (push : ∀ request, permitted (.push request)) :
    (dispatcher.enqueue areas).run.Asks permitted := by
  unfold Upload.Dispatcher.enqueue
  split
  case h_1 => trivial
  case h_2 => exact asks_pushBoxes push

/-- A dispatch reads one list, writes one object and pushes requests. -/
theorem asks_dispatch {dispatcher : Upload.Dispatcher} {listing : Upload.Listing}
    (read : permitted (.readFile listing.list))
    (put : ∀ content, permitted (.putObject listing.key content))
    (push : ∀ request, permitted (.push request)) :
    (dispatcher.dispatch listing).run.Asks permitted := by
  have asks_serve : ∀ content, (dispatcher.serve listing content).run.Asks permitted := by
    intro content
    rw [Upload.Dispatcher.serve_eq]
    split
    case isTrue => trivial
    case isFalse =>
      split
      case isTrue => exact Task.asks_bind ⟨put _, fun _ => trivial⟩ fun _ => asks_enqueue push
      case isFalse => exact asks_enqueue push
  unfold Upload.Dispatcher.dispatch
  split
  case isTrue => trivial
  case isFalse =>
    refine Task.asks_bind ⟨read, fun _ => trivial⟩ fun answer => ?_
    split
    case h_1 => trivial
    case h_2 => trivial
    case h_3 content => exact asks_serve content

/-- The inquiries of a cycle and of the removal of its files. -/
inductive OfCycle (setup : Setup) (manager : Manager) (feed : String) (sequence : Nat) :
    Inquiry → Prop where
  | fetch : OfCycle setup manager feed sequence (.fetch (Diff.joinUrl feed (Diff.path sequence)) [])
  | directory (path : Path) (outer : (diffPath setup.workDirectory sequence).parent? = some path) :
      OfCycle setup manager feed sequence (.createDirectory path)
  | write (content : Bytes) :
      OfCycle setup manager feed sequence
        (.writeFile (diffPath setup.workDirectory sequence) content)
  | merge :
      OfCycle setup manager feed sequence
        (.merge (diffPath setup.workDirectory sequence) (mergedPath setup.workDirectory sequence))
  | apply (entity : Entity) (style : Path) (member : entity ∈ manager.entities)
      (found : manager.resources.scriptPath (entity.scriptKey manager.progress.project) =
        .ok style) :
      OfCycle setup manager feed sequence
        (.applyDiff
          (argumentsFor setup manager sequence (mergedPath setup.workDirectory sequence)
            entity style))
  | read (entity : Entity) (member : entity ∈ manager.entities) :
      OfCycle setup manager feed sequence
        (.readFile (listPath setup.workDirectory manager.progress.project entity.id sequence))
  | put (entity : Entity) (content : Bytes) (member : entity ∈ manager.entities) :
      OfCycle setup manager feed sequence
        (.putObject (Upload.keyOf manager.progress.project entity.id sequence) content)
  | push (request : Queue.Request) : OfCycle setup manager feed sequence (.push request)
  | remove (path : Path)
      (member : path ∈
        artifacts setup.workDirectory manager.progress.project manager.entities sequence) :
      OfCycle setup manager feed sequence (.removeFile path)

variable {feed : String}

/-- What a cycle asks touches neither a lock nor the progress text of any project. -/
theorem OfCycle.spares {inquiry : Inquiry} (asked : OfCycle setup manager feed sequence inquiry) :
    inquiry.SparesProgress := by
  cases asked with
  | put entity content member => exact fun other => Upload.keyOf_ne_progress _ _ other _
  | _ => trivial

theorem spares_of_cleared (clears : Cleared setup manager sequence exchanges) :
    ∀ exchange ∈ exchanges, Inquiry.SparesProgress exchange.question := by
  intro exchange member
  obtain ⟨path, -, answer, rfl⟩ := removal_of_cleared clears member
  trivial

theorem listing_of_listingOf {entity : Entity} {listing : Upload.Listing}
    (listed : listingOf setup manager sequence entity = .ok listing) :
    ∃ area, listing =
      { project := manager.progress.project, entity := entity.id, sequence
        list := listPath setup.workDirectory manager.progress.project entity.id sequence,
          area } := by
  simp only [listingOf] at listed
  split at listed
  case h_1 =>
    cases listed
    exact ⟨none, rfl⟩
  case h_2 key _ =>
    cases found : manager.resources.area key with
    | error failure =>
        rw [found] at listed
        cases listed
    | ok area =>
        rw [found] at listed
        cases listed
        exact ⟨some area, rfl⟩

theorem asks_applyTo {entity : Entity}
    (apply : ∀ style,
      manager.resources.scriptPath (entity.scriptKey manager.progress.project) = .ok style →
        permitted (.applyDiff (argumentsFor setup manager sequence
          (mergedPath setup.workDirectory sequence) entity style))) :
    (applyTo setup manager sequence (mergedPath setup.workDirectory sequence) entity).run.Asks
      permitted :=
  Task.asks_ofExcept_bind fun style found => ⟨apply style found, fun _ => trivial⟩

theorem asks_uploadAll
    (read : ∀ entity ∈ manager.entities, permitted
      (.readFile (listPath setup.workDirectory manager.progress.project entity.id sequence)))
    (put : ∀ entity ∈ manager.entities, ∀ content, permitted
      (.putObject (Upload.keyOf manager.progress.project entity.id sequence) content))
    (push : ∀ request, permitted (.push request)) :
    (uploadAll setup manager sequence).run.Asks permitted := by
  unfold uploadAll
  split
  case h_1 => trivial
  case h_2 dispatcher _ =>
    split
    case isTrue => trivial
    case isFalse =>
      refine Task.asks_ofExcept_bind fun listings made => Task.asks_forEach fun listing among => ?_
      obtain ⟨entity, member, listed⟩ := exists_of_mapM made among
      obtain ⟨area, rfl⟩ := listing_of_listingOf listed
      exact asks_dispatch (read entity member) (put entity member) push

/-- A cycle asks nothing but what its download, its merge, its applications and its uploads ask. -/
theorem asks_cycle_of
    (fetch : permitted (.fetch (Diff.joinUrl feed (Diff.path sequence)) []))
    (directory : ∀ outer, (diffPath setup.workDirectory sequence).parent? = some outer →
      permitted (.createDirectory outer))
    (write : ∀ content, permitted (.writeFile (diffPath setup.workDirectory sequence) content))
    (merge : permitted (.merge (diffPath setup.workDirectory sequence)
      (mergedPath setup.workDirectory sequence)))
    (apply : ∀ entity ∈ manager.entities, ∀ style,
      manager.resources.scriptPath (entity.scriptKey manager.progress.project) = .ok style →
        permitted (.applyDiff (argumentsFor setup manager sequence
          (mergedPath setup.workDirectory sequence) entity style)))
    (read : ∀ entity ∈ manager.entities, permitted
      (.readFile (listPath setup.workDirectory manager.progress.project entity.id sequence)))
    (put : ∀ entity ∈ manager.entities, ∀ content, permitted
      (.putObject (Upload.keyOf manager.progress.project entity.id sequence) content))
    (push : ∀ request, permitted (.push request)) :
    (cycle setup manager feed sequence).run.Asks permitted := by
  refine Task.asks_bind (asks_download fetch directory write) fun _ => ?_
  refine Task.asks_bind ⟨merge, fun _ => trivial⟩ fun _ => ?_
  refine Task.asks_bind (Task.asks_forEach fun entity member =>
    asks_applyTo (apply entity member)) fun _ => ?_
  split
  case isFalse => trivial
  case isTrue => exact asks_uploadAll read put push

/-- What a cycle asks. -/
theorem asks_cycle :
    (cycle setup manager feed sequence).run.Asks (OfCycle setup manager feed sequence) :=
  asks_cycle_of .fetch .directory .write .merge
    (fun entity member style found => .apply entity style member found)
    (fun entity member => .read entity member)
    (fun entity member content => .put entity content member) .push

theorem spares_of_cycle {outcome : Except Failure Unit}
    (works : Ends (cycle setup manager feed sequence).run exchanges outcome) :
    ∀ exchange ∈ exchanges, Inquiry.SparesProgress exchange.question :=
  fun exchange member => (asks_cycle.of_ends works exchange member).spares

/-! ## A cycle with its commit -/

/-- What follows the work of a cycle: its tools are ended if it failed, and its files removed. -/
def cleanUp (setup : Setup) (manager : Manager) (outcome : Except Failure Unit) : Task Unit := do
  if outcome.toOption.isNone then Task.terminateTools
  removeArtifacts setup manager manager.progress.next

/-- What a cycle without a failure comes to, by the answer to its commit. -/
def committed (manager : Manager) : Except Failure Unit → Except Failure Unit × Manager
  | .error failure => (.error failure, manager)
  | .ok _ => (.ok (), { manager with progress := manager.progress.advanced.countDown })

theorem starting_appendNext :
    (appendNext setup feed).starting manager =
      (cycle setup manager feed manager.progress.next).run >>= fun worked =>
        (cleanUp setup manager worked).run >>= fun cleaned =>
          match cleaned, worked with
          | .error failure, _ => .done (.error failure, manager)
          | .ok _, .error failure => .done (.error failure, manager)
          | .ok _, .ok _ =>
              .ask (P := collaborators)
                (.putObject manager.progress.key (Utf8.encodeChars manager.progress.nextContent))
                fun answer => .done (committed manager answer) := by
  simp only [appendNext, Activity.starting_bind, Activity.starting_get, done_bind,
    Activity.starting_taskAttempt, bind_assoc]
  refine congrArg _ (funext fun worked => ?_)
  cases worked with
  | error failure =>
      simp only [cleanUp, Except.toOption, Option.isNone_none, if_true, Activity.starting_bind,
        Activity.starting_task, ExceptT.run_bind, bind_assoc, done_bind,
        Activity.starting_ofExcept]
      refine congrArg _ (funext fun ended => ?_)
      cases ended with
      | error failure => rfl
      | ok _ =>
          simp only
          refine congrArg _ (funext fun removed => ?_)
          cases removed <;> rfl
  | ok value =>
      simp only [cleanUp, Except.toOption, Option.isNone_some, Bool.false_eq_true, if_false,
        Activity.starting_bind, Activity.starting_task, bind_assoc, done_bind,
        Activity.starting_ofExcept]
      refine congrArg _ (funext fun removed => ?_)
      cases removed with
      | error failure => rfl
      | ok _ =>
          refine congrArg (Dialogue.ask (P := collaborators) _) (funext fun answer => ?_)
          cases answer <;> rfl

/-- Ending tools and removing files never fails. -/
theorem ok_of_ends_cleanUp {worked cleaned : Except Failure Unit}
    (ends : Ends (cleanUp setup manager worked).run exchanges cleaned) : cleaned = .ok () := by
  cases worked with
  | error failure =>
      obtain ⟨front, ended, back, rfl, hterminate, hremove⟩ := ends_bind_iff.mp ends
      obtain ⟨answer, rfl, rfl⟩ := ends_answer_iff.mp hterminate
      exact (cleared_of_ends hremove).1
  | ok value => exact (cleared_of_ends ends).1

/--
The complete runs of a cycle with its commit. If its work failed, its tools are ended and its
files removed; otherwise its files are removed, and the commit is the last exchange.
-/
inductive Cycled (setup : Setup) (manager : Manager) (feed : String) :
    List (Exchange collaborators) → Except Failure Unit × Manager → Prop where
  | failed {worked cleared : List (Exchange collaborators)} {failure : Failure}
      (works : Ends (cycle setup manager feed manager.progress.next).run worked (.error failure))
      (clears : Cleared setup manager manager.progress.next cleared) :
      Cycled setup manager feed (worked ++ Inquiry.answered .terminateTools () :: cleared)
        (.error failure, manager)
  | committed {worked cleared : List (Exchange collaborators)} (answer : Except Failure Unit)
      (works : Ends (cycle setup manager feed manager.progress.next).run worked (.ok ()))
      (clears : Cleared setup manager manager.progress.next cleared) :
      Cycled setup manager feed
        (worked ++ cleared ++ [Inquiry.answered (.putObject manager.progress.key
          (Utf8.encodeChars manager.progress.nextContent)) answer])
        (committed manager answer)

theorem cycled_of_ends {result : Except Failure Unit × Manager}
    (ends : Ends ((appendNext setup feed).starting manager) exchanges result) :
    Cycled setup manager feed exchanges result := by
  rw [starting_appendNext] at ends
  obtain ⟨worked, outcome, _, rfl, works, rest⟩ := ends_bind_iff.mp ends
  obtain ⟨cleaned, _, _, rfl, cleans, commits⟩ := ends_bind_iff.mp rest
  obtain rfl := ok_of_ends_cleanUp cleans
  cases outcome with
  | error failure =>
      obtain ⟨_, _, cleared, rfl, terminates, removes⟩ := ends_bind_iff.mp cleans
      obtain ⟨⟨⟩, rfl, rfl⟩ := ends_answer_iff.mp terminates
      obtain ⟨rfl, rfl⟩ := ends_done_iff.mp commits
      rw [List.append_nil]
      exact .failed works (cleared_of_ends removes).2
  | ok value =>
      obtain ⟨answer, rfl, rfl⟩ := ends_answer_iff.mp commits
      rw [← List.append_assoc]
      exact .committed answer works (cleared_of_ends cleans).2

/-- A cycle that ended well did all of its work, removed its files and was committed. -/
theorem Cycled.of_ok {after : Manager}
    (cycled : Cycled setup manager feed exchanges (.ok (), after)) :
    after = { manager with progress := manager.progress.advanced.countDown } ∧
      ∃ worked cleared,
        Ends (cycle setup manager feed manager.progress.next).run worked (.ok ()) ∧
          Cleared setup manager manager.progress.next cleared ∧
          exchanges = worked ++ cleared ++ [Inquiry.answered (.putObject manager.progress.key
            (Utf8.encodeChars manager.progress.nextContent)) (Except.ok ())] := by
  generalize reached : ((.ok () : Except Failure Unit), after) = result at cycled
  cases cycled with
  | failed _ _ => cases reached
  | committed answer works clears =>
      cases answer with
      | error failure => cases reached
      | ok _ =>
          cases reached
          exact ⟨rfl, _, _, works, clears, rfl⟩

/-- A cycle that failed left its manager as it was: its work failed, or its commit. -/
theorem Cycled.of_error {after : Manager} {failure : Failure}
    (cycled : Cycled setup manager feed exchanges (.error failure, after)) :
    after = manager ∧ ∃ worked cleared, Cleared setup manager manager.progress.next cleared ∧
      ((Ends (cycle setup manager feed manager.progress.next).run worked (.error failure) ∧
          exchanges = worked ++ Inquiry.answered .terminateTools () :: cleared) ∨
        (Ends (cycle setup manager feed manager.progress.next).run worked (.ok ()) ∧
          exchanges = worked ++ cleared ++ [Inquiry.answered (.putObject manager.progress.key
            (Utf8.encodeChars manager.progress.nextContent)) (Except.error failure)])) := by
  generalize reached : ((.error failure : Except Failure Unit), after) = result at cycled
  cases cycled with
  | failed works clears =>
      cases reached
      exact ⟨rfl, _, _, clears, .inl ⟨works, rfl⟩⟩
  | committed answer works clears =>
      cases answer with
      | ok _ => cases reached
      | error failure =>
          cases reached
          exact ⟨rfl, _, _, clears, .inr ⟨works, rfl⟩⟩

theorem asks_cleanUp {worked : Except Failure Unit} (terminate : permitted .terminateTools)
    (remove : ∀ path ∈ artifacts setup.workDirectory manager.progress.project manager.entities
      manager.progress.next, permitted (.removeFile path)) :
    (cleanUp setup manager worked).run.Asks permitted := by
  have removes : (removeArtifacts setup manager manager.progress.next).run.Asks permitted :=
    Task.asks_forEach fun path member => ⟨remove path member, fun _ => trivial⟩
  cases worked with
  | error failure => exact Task.asks_bind ⟨terminate, fun _ => trivial⟩ fun _ => removes
  | ok value => exact removes

section Rule

variable {σ : Type} {world : Surroundings collaborators σ} {allows : σ → Inquiry → Prop}
variable {state : σ} {middle : Except Failure Unit → σ → Prop}
variable {wanted : Except Failure Unit × Manager → σ → Prop}

/-- A cycle is its work, what follows it in either case, and its commit if nothing failed. -/
theorem keeps_appendNext_of (settled : Except Failure Unit → σ → Prop)
    (works : (cycle setup manager feed manager.progress.next).run.Keeps world allows middle state)
    (cleans : ∀ outcome now, middle outcome now →
      (cleanUp setup manager outcome).run.Keeps world allows (fun _ after => settled outcome after)
        now)
    (fails : ∀ failure now, settled (.error failure) now → wanted (.error failure, manager) now)
    (commits : ∀ now, settled (.ok ()) now →
      allows now (.putObject manager.progress.key
        (Utf8.encodeChars manager.progress.nextContent)) ∧
      ∀ answer after, world now (.putObject manager.progress.key
        (Utf8.encodeChars manager.progress.nextContent)) answer after →
          wanted (committed manager answer) after) :
    ((appendNext setup feed).starting manager).Keeps world allows wanted state := by
  rw [starting_appendNext]
  apply works.bind
  intro worked now reached
  have never : (cleanUp setup manager worked).run.Keeps world (fun _ _ => True)
      (fun cleaned _ => cleaned = .ok ()) now :=
    keeps_of_ends fun _ _ => ok_of_ends_cleanUp
  apply ((cleans worked now reached).and never).bind
  rintro cleaned last ⟨hsettled, rfl⟩
  cases worked with
  | error failure => exact fails failure last hsettled
  | ok value => exact commits last hsettled

end Rule

end Update

end MapReplica
