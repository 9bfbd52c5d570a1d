import MapReplica.Proofs.Update.Applying

/-!
# Cycles under steady conditions

A cycle changes what lasts by some of the uploads of its number, in any order, and by all of
them if it ends well. After the removals there is no file of a cycle left.
-/

namespace MapReplica.Update

open Dialogue

namespace Conditions

variable {conditions : Conditions} {order : Manager} {number : Nat} {ground after : Ground}
variable {question : Inquiry} {answer : question.Answer} {entity : Entity}

/-! ## Uploads -/

theorem shipment_of_blank {dispatcher : Upload.Dispatcher} {listing : Upload.Listing}
    {content : Bytes} (nothing : (Upload.linesOf content).isEmpty = true) :
    shipment dispatcher listing (some content) = [] :=
  if_pos nothing

theorem shipment_of_lines {dispatcher : Upload.Dispatcher} {listing : Upload.Listing}
    {content : Bytes} (something : ¬ (Upload.linesOf content).isEmpty = true) :
    shipment dispatcher listing (some content) =
      (if dispatcher.toStore then [.put listing.key content] else []) ++
        requestOf dispatcher.toQueue (Upload.boxes listing.area (Upload.linesOf content)) :=
  if_neg something

/-- What the uploads of an entity put is the list of the entity, under its key. -/
theorem of_put_mem_uploadOf {dispatcher : Upload.Dispatcher} {key : String} {body : Bytes}
    (member : .put key body ∈ conditions.uploadOf order dispatcher number entity) :
    key = Upload.keyOf order.progress.project entity.id number ∧
      conditions.listed order number entity = some body := by
  unfold uploadOf at member
  split at member
  case h_2 => cases member
  case h_1 listing found =>
    obtain ⟨area, rfl⟩ := listing_of_listingOf found
    unfold shipment at member
    split at member
    case h_1 => cases member
    case h_2 content list =>
      split at member
      case isTrue => cases member
      case isFalse =>
        rcases List.mem_append.mp member with put | pushed
        · split at put
          case isTrue =>
            cases List.mem_singleton.mp put
            exact ⟨rfl, list⟩
          case isFalse => cases put
        · unfold requestOf at pushed
          split at pushed
          case h_1 => cases pushed
          case h_2 =>
            split at pushed
            case isTrue => cases pushed
            case isFalse => cases List.mem_singleton.mp pushed

theorem exists_uploadOf_of_mem_effects {effect : Effect}
    (member : effect ∈ conditions.effects order number) :
    ∃ dispatcher, order.dispatcher = some dispatcher ∧ ∃ entity ∈ conditions.entities,
      effect ∈ conditions.uploadOf order dispatcher number entity := by
  unfold effects at member
  split at member
  case h_1 => cases member
  case h_2 dispatcher served =>
    split at member
    case isTrue => exact ⟨dispatcher, served, List.mem_flatMap.mp member⟩
    case isFalse => cases member

/-- No two contents are put under one key in a cycle. -/
theorem body_of_put_mem_effects (serves : conditions.Serves order) {key : String}
    {body other : Bytes} (member : .put key body ∈ conditions.effects order number)
    (member' : .put key other ∈ conditions.effects order number) : other = body := by
  obtain ⟨dispatcher, served, entity, among, own⟩ := exists_uploadOf_of_mem_effects member
  obtain ⟨_, served', entity', among', own'⟩ := exists_uploadOf_of_mem_effects member'
  obtain ⟨named, listed⟩ := of_put_mem_uploadOf own
  obtain ⟨named', listed'⟩ := of_put_mem_uploadOf own'
  have flat := flat_of_check serves.checked
  have ids := (Upload.keyOf_injective (flat entity among) (flat entity' among')
    (named.symm.trans named')).2.1
  cases List.inj_on_of_nodup_map (nodup_of_check serves.checked) among among' ids
  exact Option.some.inj (listed'.symm.trans listed)

/-- The uploads of a cycle spare the progress texts. -/
theorem put_not_mem_effects {project : String} {body : Bytes} :
    .put (Progress.keyOf project) body ∉ conditions.effects order number := by
  intro member
  obtain ⟨dispatcher, _, entity, _, own⟩ := exists_uploadOf_of_mem_effects member
  exact Upload.keyOf_ne_progress _ _ _ _ (of_put_mem_uploadOf own).1.symm

/-- Changes that may be made in any order: one content for each object, and no progress text. -/
structure Orderless (effects : List Effect) : Prop where
  body : ∀ {key body other}, .put key body ∈ effects → .put key other ∈ effects → other = body
  spares : ∀ {project body}, .put (Progress.keyOf project) body ∉ effects

theorem orderless_of_subset (serves : conditions.Serves order) {effects : List Effect}
    (sub : effects ⊆ conditions.effects order number) : Orderless effects :=
  ⟨fun put other => body_of_put_mem_effects serves (sub put) (sub other),
    fun put => put_not_mem_effects (sub put)⟩

/-- What uploads do at any time: they change no file and make some of their changes. -/
structure Uploading (effects : List Effect) (before after : Ground) : Prop where
  files : after.files = before.files
  durable : Durable.Partly effects before.durable after.durable

section Uploads

variable {effects : List Effect} {start middle last : Ground}

theorem Uploading.refl : Uploading effects ground ground :=
  ⟨rfl, .refl⟩

theorem Uploading.trans (front : Uploading effects ground middle)
    (back : Uploading effects middle after) : Uploading effects ground after :=
  ⟨back.files.trans front.files, front.durable.trans back.durable⟩

/-- A change that was made stays made while the uploads go on. -/
theorem Uploading.made (orderless : Orderless effects) (uploading : Uploading effects ground after)
    {effect : Effect} (member : effect ∈ effects) (made : ground.durable.Made effect) :
    after.durable.Made effect := by
  refine uploading.durable.made (fun key body other own put => ?_) made
  subst own
  exact orderless.body member put

/-- The inquiries of uploads. -/
inductive OfUploads (effects : List Effect) : Inquiry → Prop where
  | read (path : Path) : OfUploads effects (.readFile path)
  | change {effect : Effect} (member : effect ∈ effects) : OfUploads effects effect.inquiry

theorem OfUploads.spares (orderless : Orderless effects) (asked : OfUploads effects question) :
    question.SparesProgress := by
  cases asked with
  | read path => exact trivial
  | @change effect member =>
      cases effect with
      | put key body =>
          rintro project rfl
          exact orderless.spares member
      | push request => exact trivial

theorem OfUploads.uploading (asked : OfUploads effects question)
    (step : conditions.world ground question answer after) : Uploading effects ground after := by
  cases asked with
  | read path =>
      have same : after.durable = ground.durable := step.1
      exact ⟨files_of_nothing step rfl, same ▸ .refl⟩
  | @change effect member =>
      cases effect with
      | put key body =>
          refine ⟨files_of_nothing step rfl, ?_⟩
          have put : after.durable = if Except.toBool answer then ground.durable.put key body
            else ground.durable := step.1
          rw [put]
          split
          case isTrue => exact Durable.partly_put member
          case isFalse => exact .refl
      | push request =>
          refine ⟨files_of_nothing step rfl, ?_⟩
          obtain answered := step.1
          change Except Failure Unit at answer
          cases answer with
          | error failure =>
              obtain ⟨_, same⟩ := answered
              exact same ▸ .refl
          | ok _ =>
              obtain ⟨fresh, pushed⟩ := answered
              exact pushed ▸ Durable.partly_push member fresh

/-- The entities whose lists are uploaded at the same time. -/
def uploads (conditions : Conditions) (effects : List Effect) (start : Ground) :
    Neighbours conditions.world Entity :=
  .alike (OfUploads effects) (Uploading effects) (fun _ => .refl) (fun _ _ _ => .trans)
    (fun _ _ _ _ asked step => asked.uploading step) start

/-- Work that made some of the uploads, and certain changes if it ended well. -/
def Performs (effects changes : List Effect) (before : Ground) (outcome : Except Failure Unit)
    (after : Ground) : Prop :=
  Uploading effects before after ∧
    (outcome = .ok () → ∀ effect ∈ changes, after.durable.Made effect)

namespace Performs

variable {changes first second : List Effect} {failure : Failure} {outcome : Except Failure Unit}

theorem nothing : Performs effects changes ground (.error failure) ground :=
  ⟨.refl, nofun⟩

theorem none : Performs effects [] ground (.ok ()) ground :=
  ⟨.refl, fun _ _ => nofun⟩

/-- What was made stays made while the other entities are served. -/
theorem moved (orderless : Orderless effects) (within : changes ⊆ effects)
    (performs : Performs effects changes ground outcome after)
    (uploading : Uploading effects after last) : Performs effects changes ground outcome last :=
  ⟨performs.1.trans uploading, fun ok effect member =>
    uploading.made orderless (within member) (performs.2 ok effect member)⟩

/-- Changes in sequence. -/
theorem append (orderless : Orderless effects) (within : first ⊆ effects)
    (whole : Performs effects first ground (.ok ()) middle)
    (rest : Performs effects second middle outcome after) :
    Performs effects (first ++ second) ground outcome after := by
  refine ⟨whole.1.trans rest.1, fun ok effect member => ?_⟩
  rcases List.mem_append.mp member with early | late
  · exact rest.1.made orderless (within early) (whole.2 rfl effect early)
  · exact rest.2 ok effect late

theorem failed (performs : Performs effects first ground (.error failure) after) :
    Performs effects changes ground (.error failure) after :=
  ⟨performs.1, nofun⟩

end Performs

/-- An answer to one of the uploads, while the other entities are served before and after it. -/
theorem uploading_of_disturbed (asked : OfUploads effects question)
    (step : disturbed conditions.world (Uploading effects) ground question answer after) :
    Uploading effects ground after := by
  obtain ⟨before, answered, early, step, late⟩ := step
  exact (early.trans (asked.uploading step)).trans late

variable (orderless : Orderless effects)

include orderless

/-- The rule of sequence for changes. -/
theorem keeps_performs_bind {first second : List Effect} {work rest : Task Unit}
    (within : first ⊆ effects)
    (hwork : (uploads conditions effects start).Keeps (conditions.Settled order) entity
      (Performs effects first ground) work.run ground)
    (hrest : ∀ middle, Uploading effects ground middle →
      (uploads conditions effects start).Keeps (conditions.Settled order) entity
        (Performs effects second middle) rest.run middle) :
    (uploads conditions effects start).Keeps (conditions.Settled order) entity
      (Performs effects (first ++ second) ground) (work >>= fun _ => rest).run ground := by
  refine Task.keeps_bind hwork ?_ fun failure _ part _ later => (part _ later).failed
  intro _ middle whole
  have performed := whole middle .refl
  refine (hrest middle performed.1).mono fun outcome after part last later => ?_
  exact performed.append orderless within (part last later)

theorem performs_put {key : String} {content : Bytes} (member : .put key content ∈ effects) :
    (uploads conditions effects start).Keeps (conditions.Settled order) entity
      (Performs effects [.put key content] ground) (Task.putObject key content).run ground := by
  have asked : OfUploads effects (.putObject key content) := .change member
  refine ⟨⟨asked, fun _ _ => settled_of_spares (asked.spares orderless)⟩,
    fun answer after step last later => ?_⟩
  refine Performs.moved orderless (List.cons_subset.mpr ⟨member, List.nil_subset _⟩)
    ⟨uploading_of_disturbed asked step, fun ok effect own => ?_⟩ later
  obtain rfl := List.mem_singleton.mp own
  obtain ⟨before, answered, _, step, late⟩ := step
  refine late.made orderless member ?_
  cases ok
  have put : answered.durable = before.durable.put key content := step.1
  rw [put]
  exact Durable.objects_put_self

theorem performs_nothing :
    (uploads conditions effects start).Keeps (conditions.Settled order) entity
      (Performs effects [] ground) (pure () : Task Unit).run ground :=
  fun _ later => Performs.none.moved orderless (List.nil_subset _) later

/-- After the answer to a request, a job with its key waits unless the request was refused. -/
theorem keeps_push {request : Queue.Request} (member : .push request ∈ effects) :
    (uploads conditions effects start).Keeps (conditions.Settled order) entity
      (fun outcome after => Uploading effects ground after ∧
        ∃ answer : Except Failure Unit, outcome = .ok answer ∧
          ((∀ failure, answer = .error failure → failure.isAlreadyQueued = true) →
            after.durable.Made (.push request)))
      (Task.outcome (Task.push request)).run ground := by
  have asked : OfUploads effects (.push request) := .change member
  refine ⟨⟨asked, fun _ _ => settled_of_spares (asked.spares orderless)⟩,
    fun answer after step last later => ?_⟩
  refine ⟨(uploading_of_disturbed asked step).trans later, answer, rfl, fun well => ?_⟩
  obtain ⟨before, answered, _, step, late⟩ := step
  refine (late.trans later).made orderless member ?_
  obtain failure | ⟨⟨⟩⟩ := answer
  · obtain ⟨waits, same⟩ := step.1
    exact same ▸ waits (well failure rfl)
  · obtain ⟨_, pushed⟩ := step.1
    exact pushed ▸ Durable.queues_push_self

/-- A request counts as made whether it is taken or waits already. -/
theorem performs_push {settings : Queue.Settings} {areas : List Box}
    (within : requestOf (some settings) areas ⊆ effects) :
    (uploads conditions effects start).Keeps (conditions.Settled order) entity
      (Performs effects (requestOf (some settings) areas) ground)
      (Upload.pushBoxes settings areas).run ground := by
  have requests : requestOf (some settings) areas =
    if areas.isEmpty then [] else [.push (Queue.Request.ofAreas areas settings)] := rfl
  rw [requests] at within ⊢
  unfold Upload.pushBoxes
  cases nothing : areas.isEmpty with
  | true => exact performs_nothing orderless
  | false =>
    rw [nothing] at within
    have member := within List.mem_cons_self
    refine Task.keeps_bind (keeps_push orderless member) ?_ fun failure after reached last later => ?_
    · intro answer after reached
      obtain ⟨uploading, _, same, made⟩ := reached after .refl
      cases same
      have performed : (∀ failure, answer = .error failure → failure.isAlreadyQueued = true) →
          Performs effects [.push (Queue.Request.ofAreas areas settings)] ground (.ok ())
            after := by
        refine fun well => ⟨uploading, fun _ effect own => ?_⟩
        cases List.mem_singleton.mp own
        exact made well
      obtain failure | ⟨⟨⟩⟩ := answer
      · simp only
        split
        case isTrue queued =>
          have well := performed fun _ same => Except.error.inj same ▸ queued
          exact fun last later => well.moved orderless within later
        case isFalse => exact fun last later => ⟨uploading.trans later, nofun⟩
      · exact fun last later => (performed nofun).moved orderless within later
    · obtain ⟨_, _, impossible, _⟩ := reached last later
      cases impossible

theorem performs_enqueue {dispatcher : Upload.Dispatcher} {areas : List Box}
    (within : requestOf dispatcher.toQueue areas ⊆ effects) :
    (uploads conditions effects start).Keeps (conditions.Settled order) entity
      (Performs effects (requestOf dispatcher.toQueue areas) ground)
      (dispatcher.enqueue areas).run ground := by
  unfold Upload.Dispatcher.enqueue
  cases queue : dispatcher.toQueue with
  | none => exact performs_nothing orderless
  | some settings => exact performs_push orderless (queue ▸ within)

/-- Serving the targets with a list makes the changes of its shipment. -/
theorem performs_serve {dispatcher : Upload.Dispatcher} {listing : Upload.Listing} {content : Bytes}
    (within : shipment dispatcher listing (some content) ⊆ effects) :
    (uploads conditions effects start).Keeps (conditions.Settled order) entity
      (Performs effects (shipment dispatcher listing (some content)) ground)
      (dispatcher.serve listing content).run ground := by
  rw [Upload.Dispatcher.serve_eq]
  split
  case isTrue nothing =>
    rw [shipment_of_blank nothing]
    exact performs_nothing orderless
  case isFalse something =>
    rw [shipment_of_lines something] at within ⊢
    cases store : dispatcher.toStore with
    | true =>
        rw [store, if_pos rfl] at within
        have put := within (List.mem_append_left _ List.mem_cons_self)
        have pushed := (List.append_subset.mp within).2
        exact keeps_performs_bind orderless (List.cons_subset.mpr ⟨put, List.nil_subset _⟩)
          (performs_put orderless put) fun _ _ => performs_enqueue orderless pushed
    | false =>
        rw [store] at within
        exact performs_enqueue orderless within

/-- The list of an entity is read as it lies on the disk. -/
theorem keeps_readFile {path : Path} :
    (uploads conditions effects start).Keeps (conditions.Settled order) entity
      (fun outcome after => Uploading effects ground after ∧
        ∃ answer : Except FileFault Bytes, outcome = .ok answer ∧
          (∀ content, answer = .ok content →
            ground.files (conditions.place path) = some content) ∧
          (answer = .error .notFound → ground.files (conditions.place path) = none))
      (Task.readFile path).run ground := by
  have asked : OfUploads effects (.readFile path) := .read path
  refine ⟨⟨asked, fun _ _ => settled_of_spares (asked.spares orderless)⟩,
    fun answer after step last later => ?_⟩
  refine ⟨(uploading_of_disturbed asked step).trans later, answer, rfl, ?_⟩
  obtain ⟨before, answered, early, step, _⟩ := step
  rw [← early.files]
  exact ⟨step.2.1.2, step.2.2⟩

/-- A dispatch makes the changes of the list that lies on the disk. -/
theorem performs_dispatch {dispatcher : Upload.Dispatcher} {listing : Upload.Listing}
    (targeted : dispatcher.targets.isEmpty = false)
    (within : shipment dispatcher listing (ground.files (conditions.place listing.list)) ⊆
      effects) :
    (uploads conditions effects start).Keeps (conditions.Settled order) entity
      (Performs effects
        (shipment dispatcher listing (ground.files (conditions.place listing.list))) ground)
      (dispatcher.dispatch listing).run ground := by
  unfold Upload.Dispatcher.dispatch
  rw [targeted]
  refine Task.keeps_bind (keeps_readFile orderless) ?_ fun failure after reached last later => ?_
  · intro answer after reached
    obtain ⟨uploading, _, same, found, missing⟩ := reached after .refl
    cases same
    have onwards : ∀ {changes outcome last}, Performs effects changes after outcome last →
        Performs effects changes ground outcome last :=
      fun performs => ⟨uploading.trans performs.1, performs.2⟩
    split
    case h_1 =>
      rw [missing rfl]
      exact (performs_nothing orderless).mono fun _ _ part last later => onwards (part last later)
    case h_2 => exact fun last later => ⟨uploading.trans later, nofun⟩
    case h_3 content =>
      rw [found content rfl] at within ⊢
      exact (performs_serve orderless within).mono fun _ _ part last later =>
        onwards (part last later)
  · obtain ⟨_, _, impossible, _⟩ := reached last later
    cases impossible

end Uploads

theorem list_of_listing (serves : conditions.Serves order) {listing : Upload.Listing}
    (made : listingOf conditions.setup order number entity = .ok listing) :
    listing.list = conditions.listOf number entity := by
  obtain ⟨area, rfl⟩ := listing_of_listingOf made
  rw [listOf, serves.project]

/-- A dispatcher that uploads the lists of a cycle somewhere. -/
structure Delivers (conditions : Conditions) (order : Manager) (dispatcher : Upload.Dispatcher) :
    Prop where
  served : order.dispatcher = some dispatcher
  lists : conditions.setup.listsTiles = true
  targeted : dispatcher.targets.isEmpty = false

theorem Delivers.effects_eq {dispatcher : Upload.Dispatcher}
    (delivers : conditions.Delivers order dispatcher) :
    conditions.effects order number =
      conditions.entities.flatMap (conditions.uploadOf order dispatcher number) := by
  simp only [effects, delivers.served, delivers.lists, delivers.targeted, Bool.not_false,
    Bool.and_self, if_true]

/-- What some of the entities upload is uploaded in a cycle. -/
theorem Delivers.uploads_subset {dispatcher : Upload.Dispatcher}
    (delivers : conditions.Delivers order dispatcher) {entities : List Entity}
    (among : ∀ entity ∈ entities, entity ∈ conditions.entities) :
    entities.flatMap (conditions.uploadOf order dispatcher number) ⊆
      conditions.effects order number := by
  intro effect member
  obtain ⟨entity, own, change⟩ := List.mem_flatMap.mp member
  rw [delivers.effects_eq]
  exact List.mem_flatMap.mpr ⟨entity, among entity own, change⟩

/-- The uploads with which a cycle ends, if it lists tiles. -/
def lastPart (conditions : Conditions) (weaver : Weaver) (order : Manager) (number : Nat) :
    Task Unit :=
  if conditions.setup.listsTiles then uploadAllBy weaver conditions.setup order number
  else return ()

/-- A cycle ends with uploads of nothing, or with the lists of all entities. -/
theorem lastPart_cases (conditions : Conditions) (order : Manager) (number : Nat) :
    ((∀ dispatcher, ¬ conditions.Delivers order dispatcher) ∧
      conditions.effects order number = [] ∧
      ∀ weaver, conditions.lastPart weaver order number = pure ()) ∨
    ∃ dispatcher, conditions.Delivers order dispatcher ∧
      ∀ weaver, conditions.lastPart weaver order number =
        Task.ofExcept (order.entities.mapM (listingOf conditions.setup order number)) >>=
          fun listings => weaver.each listings dispatcher.dispatch := by
  cases lists : conditions.setup.listsTiles with
  | false =>
      refine .inl ⟨fun _ delivers => ?_, ?_, fun weaver => ?_⟩
      · cases lists.symm.trans delivers.lists
      · simp only [effects, lists, Bool.false_and, Bool.false_eq_true, if_false]
        cases order.dispatcher <;> rfl
      · simp only [lastPart, lists, Bool.false_eq_true, if_false]
  | true =>
      cases served : order.dispatcher with
      | none =>
          refine .inl ⟨fun _ delivers => ?_, by rw [effects, served], fun weaver => ?_⟩
          · cases served.symm.trans delivers.served
          · simp only [lastPart, lists, uploadAllBy, served, if_true]
      | some dispatcher =>
          cases targeted : dispatcher.targets.isEmpty with
          | true =>
              refine .inl ⟨fun _ delivers => ?_, ?_, fun weaver => ?_⟩
              · cases served.symm.trans delivers.served
                cases targeted.symm.trans delivers.targeted
              · simp only [effects, served, targeted, Bool.not_true, Bool.and_false,
                  Bool.false_eq_true, if_false]
              · simp only [lastPart, lists, uploadAllBy, served, targeted, if_true]
          | false =>
              refine .inr ⟨dispatcher, ⟨served, lists, targeted⟩, fun weaver => ?_⟩
              simp only [lastPart, lists, uploadAllBy, served, targeted, if_true,
                Bool.false_eq_true, if_false]

/-- The lists of some entities are delivered at the same time. -/
theorem performs_dispatches (weaver : Weaver) (serves : conditions.Serves order)
    {dispatcher : Upload.Dispatcher} (delivers : conditions.Delivers order dispatcher)
    {entities : List Entity} (among : ∀ entity ∈ entities, entity ∈ conditions.entities)
    (distinct : entities.Nodup) {listings : List Upload.Listing}
    (made : List.Forall₂
      (fun entity listing => listingOf conditions.setup order number entity = .ok listing)
      entities listings)
    (listed : ∀ entity ∈ entities, conditions.Listed order number entity ground) :
    (weaver.each listings dispatcher.dispatch).run.Keeps conditions.world
      (conditions.Settled order)
      (Performs (entities.flatMap (conditions.uploadOf order dispatcher number))
        (entities.flatMap (conditions.uploadOf order dispatcher number)) ground) ground := by
  have orderless : Orderless
      (entities.flatMap (conditions.uploadOf order dispatcher number)) :=
    orderless_of_subset serves (delivers.uploads_subset among)
  generalize whole : entities.flatMap (conditions.uploadOf order dispatcher number) = effects
    at orderless
  have each : List.Forall₂ (fun entity listing =>
      (uploads conditions effects ground).Keeps (conditions.Settled order) entity
        (Performs effects (conditions.uploadOf order dispatcher number entity) ground)
        (dispatcher.dispatch listing).run ground) entities listings := by
    refine (List.forall₂_and_left _ _ |>.mpr ⟨fun entity member => member, made⟩).imp ?_
    rintro entity listing ⟨member, found⟩
    have own : conditions.uploadOf order dispatcher number entity =
        shipment dispatcher listing (ground.files (conditions.place listing.list)) := by
      rw [list_of_listing serves found, (listed entity member).list delivers.lists, uploadOf,
        found]
    have within : conditions.uploadOf order dispatcher number entity ⊆ effects :=
      fun effect made => whole ▸ List.mem_flatMap.mpr ⟨entity, member, made⟩
    rw [own] at within ⊢
    exact performs_dispatch orderless delivers.targeted within
  refine (weaver.keeps_each _ distinct each .refl).mono ?_
  rintro outcome after ⟨uploading, all, _⟩
  refine ⟨uploading, fun ok effect member => ?_⟩
  rw [← whole] at member
  obtain ⟨entity, among, own⟩ := List.mem_flatMap.mp member
  exact (all ok entity among).2 rfl effect own

/-- The uploads of a cycle after its diff was applied to all entities. -/
theorem performs_lastPart (weaver : Weaver) (serves : conditions.Serves order)
    (listed : ∀ entity ∈ conditions.entities, conditions.Listed order number entity ground) :
    (conditions.lastPart weaver order number).run.Keeps conditions.world
      (conditions.Settled order)
      (fun outcome after =>
        Performs (conditions.effects order number) (conditions.effects order number) ground outcome
            after ∧
          (outcome = .ok () → ∀ dispatcher, conditions.Delivers order dispatcher →
            ∀ entity ∈ order.entities, ∃ listing,
              listingOf conditions.setup order number entity = .ok listing)) ground := by
  rcases conditions.lastPart_cases order number with
    ⟨silent, nothing, ends⟩ | ⟨dispatcher, delivers, ends⟩
  · rw [nothing, ends]
    exact Task.keeps_pure.mpr ⟨.none, fun _ dispatcher delivers => (silent _ delivers).elim⟩
  · rw [ends]
    refine Task.keeps_ofExcept_bind (fun listings made => ?_) fun failure =>
      ⟨.nothing, fun impossible => by cases impossible⟩
    have each := forall₂_of_mapM made
    rw [serves.entities] at each ⊢
    have dispatches := performs_dispatches weaver serves delivers (fun _ member => member)
      (nodup_entities serves) each listed
    rw [← delivers.effects_eq] at dispatches
    refine dispatches.mono fun outcome after performs =>
      ⟨performs, fun _ _ _ entity member => ?_⟩
    obtain ⟨listing, _, found⟩ := exists_of_forall₂ each member
    exact ⟨listing, found⟩

/-! ## Whole cycles -/

/-- A cycle comes to its uploads with the diff applied to all entities, or fails before them. -/
theorem keeps_cycle (weaver : Weaver) (serves : conditions.Serves order) {durable : Durable}
    (unapplied : conditions.Unapplied number durable ground)
    {wanted : Except Failure Unit → Ground → Prop}
    (failed : ∀ failure after, conditions.Spoilt number durable after →
      wanted (.error failure) after)
    (uploads : ∀ applied, conditions.Applied order number durable applied →
      (conditions.lastPart weaver order number).run.Keeps conditions.world
        (conditions.Settled order) wanted applied) :
    (cycleBy weaver conditions.setup order conditions.feed number).run.Keeps conditions.world
      (conditions.Settled order) wanted ground := by
  have downloads := keeps_unapplied serves (asks_download .fetch .directory .write) unapplied
  refine Task.keeps_bind (downloads.and keeps_diff) ?_ fun failure after reached =>
    failed failure after reached.1.spoilt
  intro _ fetched ⟨unapplied, there⟩
  have asks : (Task.merge (diffPath conditions.setup.workDirectory number)
      (mergedPath conditions.setup.workDirectory number)).run.Asks
        (conditions.Preparatory number) :=
    ⟨.merge, fun _ => trivial⟩
  have merges := keeps_unapplied serves asks unapplied
  refine Task.keeps_bind (merges.and (keeps_merged (there rfl))) ?_ fun failure after reached =>
    failed failure after reached.1.spoilt
  intro _ after ⟨unapplied, merged⟩
  refine Task.keeps_bind (keeps_applies weaver serves unapplied (merged rfl)) ?_
    fun failure after reached => failed failure after reached.1
  intro _ applied ⟨_, whole⟩
  exact uploads applied (whole rfl)

/--
What a cycle changed: some of the uploads of its number, in any order, and all of them if it
ended well, which it can only if all that it needs is there.
-/
structure Uploaded (conditions : Conditions) (order : Manager) (number : Nat) (durable : Durable)
    (outcome : Except Failure Unit) (after : Ground) : Prop where
  elsewhere : conditions.Elsewhere number after.files
  part : Durable.Partly (conditions.effects order number) durable after.durable
  all : outcome = .ok () →
    (∀ effect ∈ conditions.effects order number, after.durable.Made effect) ∧
      conditions.Feasible order number

theorem Spoilt.uploaded {durable : Durable} {failure : Failure}
    (spoilt : conditions.Spoilt number durable ground) :
    conditions.Uploaded order number durable (.error failure) ground :=
  ⟨spoilt.elsewhere, spoilt.same ▸ .refl, nofun⟩

/-- A cycle, however the work on its entities is interleaved. -/
theorem keeps_cycle_uploaded (weaver : Weaver) (serves : conditions.Serves order)
    {durable : Durable} (unapplied : conditions.Unapplied number durable ground) :
    (cycleBy weaver conditions.setup order conditions.feed number).run.Keeps conditions.world
      (conditions.Settled order) (conditions.Uploaded order number durable) ground := by
  refine keeps_cycle weaver serves unapplied (fun _ _ spoilt => spoilt.uploaded) ?_
  rintro applied ⟨spoilt, ⟨text, related, -⟩, listed⟩
  have styled : ∀ entity ∈ order.entities, ∃ style,
      order.resources.scriptPath (entity.scriptKey order.progress.project) = .ok style :=
    fun entity member => (listed entity (serves.entities ▸ member)).styled
  refine (performs_lastPart weaver serves listed).mono ?_
  rintro outcome after ⟨⟨uploading, made⟩, listings⟩
  refine ⟨uploading.files ▸ spoilt.elsewhere, spoilt.same ▸ uploading.durable, fun ok => ?_⟩
  exact ⟨made ok, ⟨text, related⟩, styled, fun dispatcher served lists targeted =>
    listings ok dispatcher ⟨served, lists, targeted⟩⟩

/-- What holds after some files of a cycle were removed. -/
structure Removed (conditions : Conditions) (number : Nat) (durable : Durable) (done : List Path)
    (ground : Ground) : Prop where
  same : ground.durable = durable
  elsewhere : conditions.Elsewhere number ground.files
  gone : ∀ path ∈ done, ground.files (conditions.place path) = none

/-- A removal takes the file away, and brings back none that was removed before. -/
theorem keeps_remove (serves : conditions.Serves order) {durable : Durable} {done : List Path}
    {path : Path} (member : path ∈ conditions.artifacts number)
    (removed : conditions.Removed number durable done ground) :
    (Task.removeFile path).run.Keeps conditions.world (conditions.Settled order)
      (fun outcome after =>
        (outcome = .ok () → conditions.Removed number durable (done ++ [path]) after) ∧
          (outcome.toBool = false → False)) ground := by
  have asked : OfCycle conditions.setup order conditions.feed number (.removeFile path) := by
    refine .remove path ?_
    rw [serves.project, serves.entities]
    exact member
  refine ⟨settled_of_spares asked.spares, fun answer after step => ?_⟩
  refine ⟨fun _ => ⟨Eq.trans step.1 removed.same,
    elsewhere_of_step serves step asked removed.elsewhere, ?_⟩,
      fun impossible => by cases impossible⟩
  intro other among
  have gone : after.files (conditions.place path) = none := step.2.2
  by_cases here : conditions.place path = conditions.place other
  · rw [← here, gone]
  · rcases List.mem_append.mp among with earlier | last
    · rw [files_of_spares step, removed.gone other earlier]
      intro written among
      obtain rfl := List.mem_singleton.mp among
      exact here
    · obtain rfl := List.mem_singleton.mp last
      exact gone

theorem keeps_removes (serves : conditions.Serves order)
    (elsewhere : conditions.Elsewhere number ground.files) :
    (removeArtifacts conditions.setup order number).run.Keeps conditions.world
      (conditions.Settled order)
      (fun outcome after =>
        (outcome = .ok () →
          conditions.Removed number ground.durable (conditions.artifacts number) after) ∧
        (outcome.toBool = false → False)) ground := by
  unfold removeArtifacts
  rw [serves.project, serves.entities]
  refine Task.keeps_forEach ⟨rfl, elsewhere, fun _ impossible => by cases impossible⟩ ?_
  intro done path rest split state removed
  refine keeps_remove serves ?_ removed
  rw [artifacts, split]
  exact List.mem_append_right _ List.mem_cons_self

/-- After the removals, which never fail, there is no file of a cycle left. -/
theorem keeps_swept (serves : conditions.Serves order)
    (elsewhere : conditions.Elsewhere number ground.files) :
    (removeArtifacts conditions.setup order number).run.Keeps conditions.world
      (conditions.Settled order)
      (fun outcome after => outcome = .ok () ∧ after.durable = ground.durable ∧
        conditions.Swept after.files) ground := by
  refine (keeps_removes serves elsewhere).mono ?_
  rintro (failure | ⟨⟩) after ⟨well, never⟩
  · exact (never rfl).elim
  · have removed := well rfl
    refine ⟨rfl, removed.same, fun other path member => ?_⟩
    by_cases own : other = number
    · subst own
      exact removed.gone path member
    · exact removed.elsewhere other own path member

end Conditions

end MapReplica.Update
