import Mathlib.Logic.Function.Basic
import MapReplica.Update.Manager

/-!
# What lasts

What lasts beyond a cycle are the objects in the object store and the jobs in the queue.
The queue takes a request only if none with its key waits. Changes may be made in part, in
any order and more than once. When all of them are made, what lasts no longer depends on how
they were: the objects are the same, and so are the keys of the jobs.
-/

namespace MapReplica.Update

/-- The objects in the object store, and the jobs in the queue in the order in which they came. -/
structure Durable where
  objects : String → Option Bytes
  jobs : List Queue.Request

/-- A change of what lasts. -/
inductive Effect where
  | put (key : String) (body : Bytes)
  | push (request : Queue.Request)

/-- The inquiry that makes a change. -/
def Effect.inquiry : Effect → Inquiry
  | put key body => .putObject key body
  | push request => .push request

namespace Durable

variable {durable other before middle after first last : Durable} {effects : List Effect}
variable {effect : Effect} {key : String} {body : Bytes} {request : Queue.Request}

/-- Whether a job with the key of a request waits. -/
def queues (durable : Durable) (request : Queue.Request) : Bool :=
  durable.jobs.any fun job => job.key == request.key

/-- The objects with one more, or with another content of it. -/
def put (durable : Durable) (key : String) (body : Bytes) : Durable :=
  { durable with objects := Function.update durable.objects key (some body) }

/-- The jobs with one more. -/
def push (durable : Durable) (request : Queue.Request) : Durable :=
  { durable with jobs := durable.jobs ++ [request] }

/-- A change was made: the object is what was put, or a job with the key of the request waits. -/
def Made (durable : Durable) : Effect → Prop
  | .put key body => durable.objects key = some body
  | .push request => durable.queues request = true

@[simp]
theorem objects_put_self : (durable.put key body).objects key = some body :=
  Function.update_self ..

theorem objects_put_of_ne {written : String} (different : key ≠ written) :
    (durable.put written body).objects key = durable.objects key :=
  Function.update_of_ne different ..

theorem queues_eq_true_iff :
    durable.queues request = true ↔ ∃ job ∈ durable.jobs, job.key = request.key := by
  simp only [queues, List.any_eq_true, beq_iff_eq]

theorem queues_of_mem (member : request ∈ durable.jobs) : durable.queues request = true :=
  queues_eq_true_iff.mpr ⟨request, member, rfl⟩

theorem queues_push_self : (durable.push request).queues request = true :=
  queues_of_mem (List.mem_append_right _ List.mem_cons_self)

/-! ## Changes in part -/

/--
Some of the changes were made, none of them or all of them, in any order and any number of
times. A job came only when none with its key waited, so it stays the only one with its key.
-/
structure Partly (effects : List Effect) (before after : Durable) : Prop where
  objects : ∀ key, after.objects key = before.objects key ∨
    ∃ body, .put key body ∈ effects ∧ after.objects key = some body
  kept : before.jobs ⊆ after.jobs
  jobs : ∀ job ∈ after.jobs, job ∈ before.jobs ∨
    .push job ∈ effects ∧ before.queues job = false
  alone : ∀ job ∈ after.jobs, ∀ other ∈ after.jobs, other.key = job.key →
    before.queues job = false → other = job

theorem not_mem_of_queues (fresh : durable.queues request = false) : request ∉ durable.jobs :=
  fun member => Bool.eq_false_iff.mp fresh (queues_of_mem member)

theorem Partly.refl : Partly effects durable durable :=
  ⟨fun _ => .inl rfl, List.Subset.refl _, fun _ => .inl,
    fun _ member _ _ _ fresh => absurd member (not_mem_of_queues fresh)⟩

theorem partly_put (member : .put key body ∈ effects) :
    Partly effects durable (durable.put key body) := by
  refine ⟨fun other => ?_, List.Subset.refl _, fun _ => .inl,
    fun _ member _ _ _ fresh => absurd member (not_mem_of_queues fresh)⟩
  by_cases own : other = key
  · subst own
    exact .inr ⟨body, member, objects_put_self⟩
  · exact .inl (objects_put_of_ne own)

theorem partly_push (member : .push request ∈ effects) (fresh : durable.queues request = false) :
    Partly effects durable (durable.push request) := by
  have news : ∀ job ∈ (durable.push request).jobs, durable.queues job = false → job = request :=
    fun job among unknown => List.mem_singleton.mp
      ((List.mem_append.mp among).resolve_left (not_mem_of_queues unknown))
  refine ⟨fun _ => .inl rfl, List.subset_append_left .., fun job among => ?_, ?_⟩
  · rcases List.mem_append.mp among with old | new
    · exact .inl old
    · obtain rfl := List.mem_singleton.mp new
      exact .inr ⟨member, fresh⟩
  · intro job among other also same unknown
    have unknown' : durable.queues other = false := by rwa [queues, same]
    rw [news job among unknown, news other also unknown']

namespace Partly

/-- A job that waits still waits after some changes. -/
theorem queues (part : Partly effects before after) (waits : before.queues request = true) :
    after.queues request = true := by
  obtain ⟨job, member, same⟩ := queues_eq_true_iff.mp waits
  exact queues_eq_true_iff.mpr ⟨job, part.kept member, same⟩

theorem trans (front : Partly effects before middle) (back : Partly effects middle after) :
    Partly effects before after := by
  refine ⟨fun key => ?_, fun job member => back.kept (front.kept member), fun job member => ?_, ?_⟩
  · rcases back.objects key with same | put
    · rw [same]
      exact front.objects key
    · exact .inr put
  · rcases back.jobs job member with old | ⟨pushed, fresh⟩
    · exact front.jobs job old
    · have early := Bool.eq_false_iff.mpr fun waits => Bool.eq_false_iff.mp fresh (front.queues waits)
      exact .inr ⟨pushed, early⟩
  · intro job member other also same fresh
    cases waits : middle.queues job with
    | false => exact back.alone job member other also same waits
    | true =>
        have waits' : middle.queues other = true := by rwa [Durable.queues, same]
        have early := (back.jobs job member).resolve_right fun new => by simp [waits] at new
        have early' := (back.jobs other also).resolve_right fun new => by simp [waits'] at new
        exact front.alone job early other early' same fresh

/-- Changes keep an object under whose key they put nothing. -/
theorem objects_of_not_mem (part : Partly effects before after)
    (other : ∀ body, .put key body ∉ effects) : after.objects key = before.objects key :=
  (part.objects key).resolve_right fun ⟨body, put, _⟩ => other body put

/-- A change that was made stays made while no other content is put under its key. -/
theorem made (part : Partly effects before after)
    (alone : ∀ key body other, effect = .put key body → .put key other ∈ effects → other = body)
    (made : before.Made effect) : after.Made effect := by
  cases effect with
  | put key body =>
      rcases part.objects key with same | ⟨other, put, there⟩
      · exact same.trans made
      · rw [Made, there, alone key body other rfl put]
  | push request => exact part.queues made

end Partly

/-! ## All changes -/

/-- Where all changes were made, an object is what was put, and any other is as before. -/
theorem objects_eq_of_made (front : Partly effects before after)
    (back : Partly effects first last) (made : ∀ effect ∈ effects, after.Made effect)
    (also : ∀ effect ∈ effects, last.Made effect) (same : before.objects = first.objects) :
    after.objects = last.objects := by
  funext key
  by_cases put : ∃ body, .put key body ∈ effects
  · obtain ⟨body, member⟩ := put
    exact (made _ member).trans (also _ member).symm
  · have other := not_exists.mp put
    rw [front.objects_of_not_mem other, back.objects_of_not_mem other, same]

/-- Where all changes were made, the keys of the jobs are those of before and of all requests. -/
theorem queues_iff_of_made (part : Partly effects before after)
    (made : ∀ effect ∈ effects, after.Made effect) :
    after.queues request = true ↔ before.queues request = true ∨
      ∃ pushed, .push pushed ∈ effects ∧ pushed.key = request.key := by
  constructor
  · intro waits
    obtain ⟨job, member, same⟩ := queues_eq_true_iff.mp waits
    rcases part.jobs job member with old | ⟨pushed, _⟩
    · exact .inl (queues_eq_true_iff.mpr ⟨job, old, same⟩)
    · exact .inr ⟨job, pushed, same⟩
  · rintro (waits | ⟨pushed, member, same⟩)
    · exact part.queues waits
    · obtain ⟨job, among, own⟩ := queues_eq_true_iff.mp (made _ member)
      exact queues_eq_true_iff.mpr ⟨job, among, own.trans same⟩

/--
Where all changes were made and no two requests among them have one key, the jobs are those
of before and the requests for whose key none waited.
-/
theorem mem_jobs_iff_of_made (part : Partly effects before after)
    (made : ∀ effect ∈ effects, after.Made effect)
    (distinct : ∀ request other, .push request ∈ effects → .push other ∈ effects →
      request.key = other.key → request = other) :
    request ∈ after.jobs ↔ request ∈ before.jobs ∨
      .push request ∈ effects ∧ before.queues request = false := by
  constructor
  · exact part.jobs request
  · rintro (old | ⟨pushed, fresh⟩)
    · exact part.kept old
    · obtain ⟨job, member, same⟩ := queues_eq_true_iff.mp (made _ pushed)
      rcases part.jobs job member with old | ⟨also, _⟩
      · exact absurd (queues_eq_true_iff.mpr ⟨job, old, same⟩) (Bool.eq_false_iff.mp fresh)
      · rwa [← distinct job request also pushed same]

/-! ## Which request waits -/

/-- The same jobs wait, in any order. -/
def SameJobs (durable other : Durable) : Prop :=
  ∀ job, job ∈ durable.jobs ↔ job ∈ other.jobs

theorem SameJobs.trans (front : SameJobs durable middle) (back : SameJobs middle after) :
    SameJobs durable after :=
  fun job => (front job).trans (back job)

theorem SameJobs.queues (same : SameJobs durable other) :
    durable.queues request = other.queues request := by
  rw [Bool.eq_iff_iff, queues_eq_true_iff, queues_eq_true_iff]
  exact exists_congr fun job => and_congr_left' (same job)

section Favoured

variable {uploaded now : Durable} {favoured others : List Effect}

/--
When the requests that came to wait are pushed before any others, the same ones come to wait
again.
-/
theorem sameJobs_of_favoured (part : Partly effects before uploaded) (same : SameJobs now before)
    (chosen : ∀ job, .push job ∈ favoured ↔ .push job ∈ effects ∧ job ∈ uploaded.jobs)
    (front : Partly favoured now middle) (made : ∀ effect ∈ favoured, middle.Made effect) :
    SameJobs middle uploaded := by
  intro job
  constructor
  · intro waits
    rcases front.jobs job waits with old | ⟨pushed, _⟩
    · exact part.kept ((same job).mp old)
    · exact ((chosen job).mp pushed).2
  · intro waits
    rcases part.jobs job waits with old | ⟨pushed, fresh⟩
    · exact front.kept ((same job).mpr old)
    · -- A job with the key of the request waits, and only the request itself may have come.
      obtain ⟨other, there, key⟩ :=
        queues_eq_true_iff.mp (made _ ((chosen job).mpr ⟨pushed, waits⟩))
      have also : other ∈ uploaded.jobs := by
        rcases front.jobs other there with old | ⟨new, _⟩
        · exact part.kept ((same other).mp old)
        · exact ((chosen other).mp new).2
      rwa [← part.alone job waits other also key fresh]

/-- Pushes of requests for whose keys jobs wait already change nothing. -/
theorem sameJobs_of_queues (same : SameJobs middle uploaded)
    (waits : ∀ request, .push request ∈ others → uploaded.queues request = true)
    (back : Partly others middle after) : SameJobs after uploaded := by
  intro job
  constructor
  · intro there
    rcases back.jobs job there with old | ⟨pushed, fresh⟩
    · exact (same job).mp old
    · rw [same.queues, waits job pushed] at fresh
      cases fresh
  · exact fun there => back.kept ((same job).mpr there)

end Favoured

end Durable

end MapReplica.Update
