import MapReplica.Proofs.Update.Attempt

/-!
# Loading resources

Loading reads only the objects of its resources and writes only their scripts. Of
several resources with one id the first is the one that is loaded, and the cache holds
it under that id as what it is for.
-/

namespace MapReplica.Resource

open Dialogue

variable {workDirectory : Path} {resources : List Resource} {resource : Resource}

/-! ## What is asked -/

/-- The inquiries by which resources are loaded. -/
inductive OfLoading (workDirectory : Path) (resources : List Resource) : Inquiry → Prop where
  | directory (path : Path) : OfLoading workDirectory resources (.createDirectory path)
  | get (resource : Resource) (member : resource ∈ resources) :
      OfLoading workDirectory resources (.getObject resource.id)
  | write (resource : Resource) (content : Bytes) (member : resource ∈ resources)
      (script : resource.kind = .script) :
      OfLoading workDirectory resources
        (.writeFile (scriptPathOf workDirectory resource.id) content)

section Permitted

variable {permitted : Inquiry → Prop}

/-- Placing a file makes the directory in which it lies and writes it. -/
theorem asks_place {path : Path} {content : Bytes}
    (directory : ∀ outer, path.parent? = some outer → permitted (.createDirectory outer))
    (write : permitted (.writeFile path content)) :
    (place path content).run.Asks permitted :=
  Task.asks_bind (Update.asks_makeParent directory) fun _ => ⟨write, fun _ => trivial⟩

/-- Fetching a resource reads its object, and places it if it is a script. -/
theorem asks_fetch_of (get : permitted (.getObject resource.id))
    (placed : resource.kind = .script → ∀ content,
      (place (scriptPathOf workDirectory resource.id) content).run.Asks permitted) :
    (fetch workDirectory resource).run.Asks permitted := by
  apply Task.asks_bind
  · refine Task.asks_bind ⟨get, fun _ => trivial⟩ fun outcome => ?_
    cases outcome with
    | error failure => trivial
    | ok body => trivial
  · intro content
    split
    case h_1 script => exact Task.asks_bind (placed script _) fun _ => trivial
    case h_2 => exact Task.asks_ofExcept_bind fun _ _ => trivial

theorem asks_fetchAll_of
    (each : ∀ resource ∈ resources, (fetch workDirectory resource).run.Asks permitted) :
    (fetchAll workDirectory resources).run.Asks permitted := by
  induction resources with
  | nil => trivial
  | cons resource rest ih =>
      apply Task.asks_bind (each resource List.mem_cons_self)
      intro loaded
      have later := ih fun other member => each other (List.mem_cons_of_mem resource member)
      exact Task.asks_bind later fun _ => trivial

end Permitted

theorem asks_fetch (member : resource ∈ resources) :
    (fetch workDirectory resource).run.Asks (OfLoading workDirectory resources) :=
  asks_fetch_of (.get resource member) fun script content =>
    asks_place (fun outer _ => .directory outer) (.write resource content member script)

theorem asks_fetchAll :
    (fetchAll workDirectory resources).run.Asks (OfLoading workDirectory resources) :=
  asks_fetchAll_of fun _ => asks_fetch

theorem mem_of_mem_firstsById {seen : List String}
    (member : resource ∈ firstsById seen resources) : resource ∈ resources := by
  induction resources generalizing seen with
  | nil => exact member
  | cons first rest ih =>
      unfold firstsById at member
      split at member
      case isTrue => exact List.mem_cons_of_mem _ (ih member)
      case isFalse =>
        rcases List.mem_cons.mp member with rfl | later
        · exact List.mem_cons_self
        · exact List.mem_cons_of_mem _ (ih later)

theorem unseen_of_mem_firstsById {seen : List String}
    (member : resource ∈ firstsById seen resources) : resource.id ∉ seen := by
  induction resources generalizing seen with
  | nil => cases member
  | cons first rest ih =>
      unfold firstsById at member
      split at member
      case isTrue => exact ih member
      case isFalse unseen =>
        rcases List.mem_cons.mp member with rfl | later
        · exact unseen
        · exact fun old => ih later (List.mem_cons_of_mem _ old)

/-- No two of the resources that are loaded have one id. -/
theorem pairwise_firstsById {seen : List String} :
    (firstsById seen resources).Pairwise fun first second => first.id ≠ second.id := by
  induction resources generalizing seen with
  | nil => exact .nil
  | cons first rest ih =>
      unfold firstsById
      split
      case isTrue => exact ih
      case isFalse =>
        refine .cons (fun second later same => ?_) ih
        exact unseen_of_mem_firstsById later (same ▸ List.mem_cons_self)

/-- Loading fetches resources of its list only. -/
theorem asks_load_of {permitted : Inquiry → Prop} {cache : Cache}
    (each : ∀ resource ∈ resources, (fetch workDirectory resource).run.Asks permitted) :
    ((load workDirectory resources).starting cache).Asks permitted := by
  refine Activity.asks_bind (Activity.asks_task ?_) fun _ _ => trivial
  exact asks_fetchAll_of fun resource member => each resource (mem_of_mem_firstsById member)

/-- Loading asks for what its resources need. -/
theorem asks_load {cache : Cache} :
    ((load workDirectory resources).starting cache).Asks (OfLoading workDirectory resources) :=
  asks_load_of fun _ => asks_fetch

/-! ## What is loaded -/

/-- The resource of a list that counts for an id. -/
def first? (resources : List Resource) (id : String) : Option Resource :=
  resources.find? fun resource => resource.id == id

theorem id_of_first? {id : String} (found : first? resources id = some resource) :
    resource ∈ resources ∧ resource.id = id := by
  constructor
  · exact List.mem_of_find?_eq_some found
  · simpa using List.find?_some found

theorem exists_first? (member : resource ∈ resources) :
    ∃ first, first? resources resource.id = some first := by
  apply Option.isSome_iff_exists.mp
  exact List.find?_isSome.mpr ⟨resource, member, beq_self_eq_true _⟩

/-- The first resources of a list count for the same ids as the list. -/
theorem first?_firstsById {seen : List String} {id : String} (unseen : id ∉ seen) :
    first? (firstsById seen resources) id = first? resources id := by
  induction resources generalizing seen with
  | nil => rfl
  | cons resource rest ih =>
      unfold firstsById
      split
      case isTrue old =>
        have other : resource.id ≠ id := fun same => unseen (same ▸ old)
        rw [ih unseen]
        simp [first?, other]
      case isFalse =>
        by_cases same : resource.id = id
        · simp [first?, same]
        · have unseen : id ∉ resource.id :: seen := by
            simp [unseen, Ne.symm same]
          have later := ih unseen
          simp only [first?] at later
          simp [first?, same, later]

/-- What a resource is loaded as: a script by the path where it is put, an area as it is. -/
inductive Holds (workDirectory : Path) : Resource → String × Loaded → Prop where
  | script (id : String) :
      Holds workDirectory ⟨id, .script⟩ (id, .script (scriptPathOf workDirectory id))
  | area (id : String) (area : Area) : Holds workDirectory ⟨id, .area⟩ (id, .area area)

theorem Holds.id {entry : String × Loaded} (holds : Holds workDirectory resource entry) :
    entry.1 = resource.id := by
  cases holds with
  | script id => rfl
  | area id area => rfl

variable {exchanges : List (Exchange collaborators)}

theorem holds_of_ends_fetch {loaded : Loaded}
    (ends : Ends (fetch workDirectory resource).run exchanges (.ok loaded)) :
    Holds workDirectory resource (resource.id, loaded) := by
  obtain ⟨id, kind⟩ := resource
  obtain ⟨_, content, _, _, -, ends⟩ := Task.ends_bind_ok_iff.mp ends
  cases kind with
  | script =>
      obtain ⟨_, _, _, _, -, ends⟩ := Task.ends_bind_ok_iff.mp ends
      obtain ⟨_, rfl⟩ := Task.ends_pure_ok_iff.mp ends
      exact .script id
  | area =>
      obtain ⟨_, area, _, _, -, ends⟩ := Task.ends_bind_ok_iff.mp ends
      obtain ⟨_, rfl⟩ := Task.ends_pure_ok_iff.mp ends
      exact .area id area

theorem holds_of_ends_fetchAll {cache : Cache}
    (ends : Ends (fetchAll workDirectory resources).run exchanges (.ok cache)) :
    List.Forall₂ (Holds workDirectory) resources cache := by
  induction resources generalizing exchanges cache with
  | nil =>
      obtain ⟨_, rfl⟩ := Task.ends_pure_ok_iff.mp ends
      exact .nil
  | cons resource rest ih =>
      obtain ⟨_, loaded, _, _, hfetch, ends⟩ := Task.ends_bind_ok_iff.mp ends
      obtain ⟨_, others, _, _, hrest, ends⟩ := Task.ends_bind_ok_iff.mp ends
      obtain ⟨_, rfl⟩ := Task.ends_pure_ok_iff.mp ends
      exact .cons (holds_of_ends_fetch hfetch) (ih hrest)

/-- The entry of an id is that of the resource that counts for it. -/
theorem find?_of_holds {cache : Cache} {id : String}
    (each : List.Forall₂ (Holds workDirectory) resources cache)
    (found : first? resources id = some resource) :
    ∃ loaded, cache.find? id = some loaded ∧ Holds workDirectory resource (id, loaded) := by
  induction each with
  | nil => cases found
  | @cons first entry rest others head _ ih =>
      by_cases same : first.id = id
      · have here : first? (first :: rest) id = some first := by simp [first?, same]
        cases here.symm.trans found
        refine ⟨entry.2, ?_, ?_⟩
        · simp [Cache.find?, head.id, same]
        · have own : entry = (id, entry.2) := by rw [← same, ← head.id]
          exact own ▸ head
      · have later : first? rest id = some resource := by
          simpa [first?, same] using found
        obtain ⟨loaded, there, holds⟩ := ih later
        refine ⟨loaded, ?_, holds⟩
        simpa [Cache.find?, head.id, same] using there

/-- What was fetched hides what the cache held of the same ids. -/
theorem find?_extend {cache fetched : Cache} {id : String} {loaded : Loaded}
    (found : fetched.find? id = some loaded) : (cache.extend fetched).find? id = some loaded := by
  obtain ⟨entry, there, rfl⟩ := Option.map_eq_some_iff.mp found
  simp [Cache.find?, Cache.extend, List.find?_append, there]

/-- After resources were loaded, the cache holds the one that counts for an id. -/
theorem find?_of_ends_load {cache after : Cache} {id : String}
    (ends : Ends ((load workDirectory resources).starting cache) exchanges (.ok (), after))
    (found : first? resources id = some resource) :
    ∃ loaded, after.find? id = some loaded ∧ Holds workDirectory resource (id, loaded) := by
  obtain ⟨_, fetched, _, _, rfl, hload, hextend⟩ := Activity.ends_bind_ok_iff.mp ends
  obtain ⟨rfl, hfetch⟩ := Activity.ends_task_ok_iff.mp hload
  obtain ⟨_, same⟩ := ends_done_iff.mp hextend
  cases same
  rw [← first?_firstsById List.not_mem_nil] at found
  obtain ⟨loaded, there, holds⟩ := find?_of_holds (holds_of_ends_fetchAll hfetch) found
  exact ⟨loaded, find?_extend there, holds⟩

end MapReplica.Resource
