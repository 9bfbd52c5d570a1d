import Mathlib.Data.List.Perm.Basic
import MapReplica.Proofs.Update.Performing

/-!
# Favoured requests

The key of a request is a digest, so two requests may have the same one. Then only the one
that is pushed first comes to wait, and which one this is depends on the order in which the
entities are served. Whichever requests came to wait, they do so again in a cycle that serves
their entities before all others.
-/

namespace MapReplica.Update

open Dialogue

namespace Conditions

variable {conditions : Conditions} {order : Manager} {number : Nat} {ground after : Ground}
variable {entity : Entity} {dispatcher : Upload.Dispatcher} {request other : Queue.Request}

/-! ## The request of an entity -/

theorem eq_of_push_mem_requestOf {target : Option Queue.Settings} {areas : List Box}
    (member : .push request ∈ requestOf target areas) :
    requestOf target areas = [.push request] := by
  unfold requestOf at member ⊢
  cases target with
  | none => cases member
  | some settings =>
      simp only at member ⊢
      split at member
      case isTrue => cases member
      case isFalse something => rw [if_neg something, List.mem_singleton.mp member]

theorem exists_of_push_mem_shipment {listing : Upload.Listing} {content : Option Bytes}
    (member : .push request ∈ shipment dispatcher listing content) :
    ∃ puts, shipment dispatcher listing content = puts ++ [.push request] ∧
      ∀ request, .push request ∉ puts := by
  cases content with
  | none => cases member
  | some content =>
      by_cases nothing : (Upload.linesOf content).isEmpty = true
      · rw [shipment_of_blank nothing] at member
        cases member
      · rw [shipment_of_lines nothing] at member ⊢
        have puts : ∀ request, .push request ∉
            (if dispatcher.toStore then [Effect.put listing.key content] else []) := by
          cases dispatcher.toStore <;> simp
        have own := (List.mem_append.mp member).resolve_left (puts request)
        exact ⟨_, by rw [eq_of_push_mem_requestOf own], puts⟩

/-- An entity has at most one request. -/
theorem eq_of_push_mem_uploadOf
    (member : .push request ∈ conditions.uploadOf order dispatcher number entity)
    (also : .push other ∈ conditions.uploadOf order dispatcher number entity) :
    other = request := by
  unfold uploadOf at member also
  split at member
  case h_2 => cases member
  case h_1 listing found =>
    obtain ⟨puts, same, none⟩ := exists_of_push_mem_shipment member
    simp only [found, same] at also
    have own := (List.mem_append.mp also).resolve_left (none other)
    exact Effect.push.inj (List.mem_singleton.mp own)

/-! ## Favoured entities first -/

section Favoured

variable {before uploaded : Durable}

/-- What lists the tiles of an entity stays while no file is written. -/
theorem Listed.of_files (listed : conditions.Listed order number entity ground)
    (same : after.files = ground.files) : conditions.Listed order number entity after :=
  ⟨listed.styled, fun lists => same ▸ listed.list lists⟩

theorem exists_perm_of_pred {α : Type} (items : List α) (wanted : α → Prop) :
    ∃ front back : List α, (front ++ back).Perm items ∧ (∀ item ∈ front, wanted item) ∧
      ∀ item ∈ back, ¬ wanted item := by
  classical
  refine ⟨items.filter fun item => decide (wanted item),
    items.filter fun item => !decide (wanted item), List.filter_append_perm _ items, ?_, ?_⟩
  · exact fun item member => of_decide_eq_true (List.mem_filter.mp member).2
  · intro item member holds
    have not := (List.mem_filter.mp member).2
    rw [decide_eq_true holds] at not
    cases not

/--
The entities in an order in which those come first whose requests wait after some uploads, or
that have none.
-/
structure Favours (conditions : Conditions) (order : Manager) (dispatcher : Upload.Dispatcher)
    (number : Nat) (uploaded : Durable) (front back : List Entity) : Prop where
  perm : (front ++ back).Perm conditions.entities
  waiting : ∀ entity ∈ front, ∀ request,
    .push request ∈ conditions.uploadOf order dispatcher number entity → request ∈ uploaded.jobs
  refused : ∀ entity ∈ back, ¬ ∀ request,
    .push request ∈ conditions.uploadOf order dispatcher number entity → request ∈ uploaded.jobs

theorem exists_favours (conditions : Conditions) (order : Manager)
    (dispatcher : Upload.Dispatcher) (number : Nat) (uploaded : Durable) :
    ∃ front back, conditions.Favours order dispatcher number uploaded front back := by
  obtain ⟨front, back, perm, waiting, refused⟩ := exists_perm_of_pred conditions.entities _
  exact ⟨front, back, perm, waiting, refused⟩

section Order

variable {front back : List Entity}
variable (favours : conditions.Favours order dispatcher number uploaded front back)

include favours

theorem Favours.early : ∀ entity ∈ front, entity ∈ conditions.entities :=
  fun _ member => favours.perm.subset (List.mem_append_left _ member)

theorem Favours.late : ∀ entity ∈ back, entity ∈ conditions.entities :=
  fun _ member => favours.perm.subset (List.mem_append_right _ member)

theorem Favours.nodup (serves : conditions.Serves order) : front.Nodup ∧ back.Nodup := by
  have distinct : (front ++ back).Nodup := favours.perm.nodup_iff.mpr (nodup_entities serves)
  exact ⟨(List.nodup_append.mp distinct).1, (List.nodup_append.mp distinct).2.1⟩

/-- The requests of the first entities are those that wait. -/
theorem Favours.push_mem_iff (delivers : conditions.Delivers order dispatcher)
    (request : Queue.Request) :
    .push request ∈ front.flatMap (conditions.uploadOf order dispatcher number) ↔
      .push request ∈ conditions.effects order number ∧ request ∈ uploaded.jobs := by
  constructor
  · intro member
    obtain ⟨entity, own, pushed⟩ := List.mem_flatMap.mp member
    exact ⟨delivers.uploads_subset favours.early member,
      favours.waiting entity own request pushed⟩
  · rintro ⟨member, waits⟩
    rw [delivers.effects_eq] at member
    obtain ⟨entity, own, pushed⟩ := List.mem_flatMap.mp member
    refine List.mem_flatMap.mpr ⟨entity, ?_, pushed⟩
    refine (List.mem_append.mp (favours.perm.symm.subset own)).resolve_right fun unwanted => ?_
    exact favours.refused entity unwanted fun other also =>
      eq_of_push_mem_uploadOf pushed also ▸ waits

/-- The uploads of the entities in this order. -/
theorem Favours.exists_listings {listings : List Upload.Listing}
    (listed : conditions.entities.mapM (listingOf conditions.setup order number) = .ok listings) :
    ∃ first second, listings.Perm (first ++ second) ∧
      List.Forall₂ (fun entity listing => listingOf conditions.setup order number entity =
        .ok listing) front first ∧
      List.Forall₂ (fun entity listing => listingOf conditions.setup order number entity =
        .ok listing) back second := by
  have each := forall₂_of_mapM listed
  have listing : ∀ entity ∈ conditions.entities, ∃ listing,
      listingOf conditions.setup order number entity = .ok listing := by
    intro entity member
    obtain ⟨listing, _, found⟩ := exists_of_forall₂ each member
    exact ⟨listing, found⟩
  obtain ⟨first, firstMade⟩ :=
    exists_mapM fun entity member => listing entity (favours.early entity member)
  obtain ⟨second, secondMade⟩ :=
    exists_mapM fun entity member => listing entity (favours.late entity member)
  have firstEach := forall₂_of_mapM firstMade
  have secondEach := forall₂_of_mapM secondMade
  obtain ⟨all, allEach, same⟩ :=
    List.perm_comp_forall₂ favours.perm.symm (List.rel_append firstEach secondEach)
  obtain rfl : all = listings := Except.ok.inj ((mapM_of_forall₂ allEach).symm.trans listed)
  exact ⟨first, second, same, firstEach, secondEach⟩

end Order

/--
The lists of all entities, with those whose requests wait delivered first; when the others
come, their requests find their keys in the queue.
-/
theorem exists_weaver_favouring (serves : conditions.Serves order)
    (delivers : conditions.Delivers order dispatcher)
    (part : Durable.Partly (conditions.effects order number) before uploaded)
    (made : ∀ effect ∈ conditions.effects order number, uploaded.Made effect)
    {listings : List Upload.Listing}
    (listed : conditions.entities.mapM (listingOf conditions.setup order number) = .ok listings) :
    ∃ weaver : Weaver, ∀ ground, ground.durable.SameJobs before →
      (∀ entity ∈ conditions.entities, conditions.Listed order number entity ground) →
        (weaver.each listings dispatcher.dispatch).run.Keeps conditions.world
          (conditions.Settled order)
          (fun outcome after => outcome = .ok () → after.durable.SameJobs uploaded) ground := by
  obtain ⟨front, back, favours⟩ := exists_favours conditions order dispatcher number uploaded
  obtain ⟨first, second, perm, firstEach, secondEach⟩ := favours.exists_listings listed
  obtain ⟨frontDistinct, backDistinct⟩ := favours.nodup serves
  obtain ⟨weaver, inTurn⟩ := Weaver.exists_each_of_perm perm dispatcher.dispatch
  refine ⟨weaver, fun ground waits tiles => ?_⟩
  rw [inTurn, Weaver.each_inOrder_append]
  refine Task.keeps_bind (performs_dispatches .inOrder serves delivers favours.early frontDistinct
    firstEach fun entity member => tiles entity (favours.early entity member))
    (fun _ middle performed => ?_) fun _ _ _ impossible => by cases impossible
  have still : ∀ entity ∈ back, conditions.Listed order number entity middle :=
    fun entity member => (tiles entity (favours.late entity member)).of_files performed.1.files
  refine (performs_dispatches .inOrder serves delivers favours.late backDistinct secondEach
    still).mono ?_
  rintro outcome after ⟨uploading, _⟩ ok
  have waiting := Durable.sameJobs_of_favoured part waits (favours.push_mem_iff delivers)
    performed.1.durable (performed.2 rfl)
  exact Durable.sameJobs_of_queues waiting
    (fun request member => made _ (delivers.uploads_subset favours.late member)) uploading.durable

/-- The uploads of a cycle in an order in which the same requests come to wait. -/
theorem exists_lastPart_favouring (serves : conditions.Serves order)
    (part : Durable.Partly (conditions.effects order number) before uploaded)
    (made : ∀ effect ∈ conditions.effects order number, uploaded.Made effect) :
    ∃ weaver : Weaver, ∀ ground, ground.durable.SameJobs before →
      (∀ entity ∈ conditions.entities, conditions.Listed order number entity ground) →
        (conditions.lastPart weaver order number).run.Keeps conditions.world
          (conditions.Settled order)
          (fun outcome after => outcome = .ok () → after.durable.SameJobs uploaded) ground := by
  rcases conditions.lastPart_cases order number with
    ⟨_, nothing, ends⟩ | ⟨dispatcher, delivers, ends⟩
  · have same : before.SameJobs uploaded := by
      intro job
      rw [nothing] at part
      exact ⟨fun waits => part.kept waits, fun waits => (part.jobs job waits).resolve_right nofun⟩
    refine ⟨.inOrder, fun ground waits _ => ?_⟩
    rw [ends]
    exact Task.keeps_pure.mpr fun _ => waits.trans same
  · cases listed : conditions.entities.mapM (listingOf conditions.setup order number) with
    | error failure =>
        refine ⟨.inOrder, fun ground _ _ => ?_⟩
        rw [ends, serves.entities, listed]
        exact fun impossible => by cases impossible
    | ok listings =>
        obtain ⟨weaver, keeps⟩ := exists_weaver_favouring serves delivers part made listed
        refine ⟨weaver, fun ground waits tiles => ?_⟩
        rw [ends, serves.entities, listed]
        exact keeps ground waits tiles

/-- A cycle in whose uploads the same requests come to wait. -/
theorem exists_cycle_favouring (serves : conditions.Serves order)
    (part : Durable.Partly (conditions.effects order number) before uploaded)
    (made : ∀ effect ∈ conditions.effects order number, uploaded.Made effect) :
    ∃ weaver : Weaver, ∀ ground durable, durable.SameJobs before →
      conditions.Unapplied number durable ground →
        (cycleBy weaver conditions.setup order conditions.feed number).run.Keeps conditions.world
          (conditions.Settled order)
          (fun outcome after => outcome = .ok () → after.durable.SameJobs uploaded) ground := by
  obtain ⟨weaver, keeps⟩ := exists_lastPart_favouring serves part made
  refine ⟨weaver, fun ground durable waits unapplied => ?_⟩
  refine keeps_cycle weaver serves unapplied (fun _ _ _ => nofun) fun applied reached => ?_
  exact keeps applied (reached.spoilt.same ▸ waits) reached.listed

end Favoured

end Conditions

end MapReplica.Update
