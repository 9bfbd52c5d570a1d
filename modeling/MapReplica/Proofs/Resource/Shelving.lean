import MapReplica.Proofs.Resource.Loading
import MapReplica.Proofs.Text.Utf8
import MapReplica.Proofs.Update.Disk

/-!
# Scripts on the disk

Loading puts every script on the disk with exactly the octets that were fetched for it: what
is read as a text and written again is what it was. As long as scripts with different keys
lie at different places, no script that is loaded later replaces it.
-/

namespace MapReplica

open Dialogue

/-- What was said so far, and the files on the disk. -/
structure Desk where
  past : List (Exchange collaborators)
  files : Update.Files

/-- Collaborators that answer anything, and the disk that they change, in a directory. -/
def onDisk (directory : List String) (merges : Bytes → Bytes → Prop) :
    Surroundings collaborators Desk :=
  fun desk question answer after =>
    after.past = desk.past ++ [⟨question, answer⟩] ∧
      Update.Stores directory merges desk.files question answer after.files

variable {directory : List String} {merges : Bytes → Bytes → Prop} {desk after : Desk}

namespace Resource

/-- A body was fetched for a key. -/
def Fetched (past : List (Exchange collaborators)) (id : String) (body : Bytes) : Prop :=
  Inquiry.answered (.getObject id) (Except.ok body) ∈ past

/-- Where a script leads to on the disk. -/
def placeOf (directory : List String) (workDirectory : Path) (id : String) : List String :=
  (scriptPathOf workDirectory id).resolveFrom directory

/-- A script lies on the disk as it was fetched. -/
structure Shelved (directory : List String) (workDirectory : Path) (id : String)
    (desk : Desk) : Prop where
  fetched : ∃ body, Fetched desk.past id body
  stored : ∀ body, Fetched desk.past id body →
    desk.files (placeOf directory workDirectory id) = some body

/-- Nothing was fetched for a key yet. -/
def Unfetched (id : String) (desk : Desk) : Prop :=
  ∀ body, ¬ Fetched desk.past id body

/-- The text of a key was fetched, and nothing else. -/
structure Got (id text : String) (desk : Desk) : Prop where
  fetched : ∃ body, Fetched desk.past id body
  encoded : ∀ body, Fetched desk.past id body → body = Utf8.encode text

variable {workDirectory : Path} {id text : String} {question : Inquiry} {answer : question.Answer}

/-! ## One exchange -/

theorem fetched_iff_of_step (step : onDisk directory merges desk question answer after)
    (other : question ≠ .getObject id) (body : Bytes) :
    Fetched after.past id body ↔ Fetched desk.past id body := by
  unfold Fetched
  rw [step.1, List.mem_append, List.mem_singleton]
  constructor
  · rintro (earlier | same)
    · exact earlier
    · exact (other (congrArg Exchange.question same).symm).elim
  · exact .inl

theorem Unfetched.of_step (unfetched : Unfetched id desk)
    (step : onDisk directory merges desk question answer after)
    (other : question ≠ .getObject id) : Unfetched id after := by
  intro body
  rw [fetched_iff_of_step step other]
  exact unfetched body

theorem Got.of_step (got : Got id text desk)
    (step : onDisk directory merges desk question answer after)
    (other : question ≠ .getObject id) : Got id text after := by
  constructor
  · simpa only [fetched_iff_of_step step other] using got.fetched
  · simpa only [fetched_iff_of_step step other] using got.encoded

/-- An inquiry that neither fetches a script again nor writes where it lies. -/
structure Spares (directory : List String) (workDirectory : Path) (id : String)
    (question : Inquiry) : Prop where
  fetches : question ≠ .getObject id
  writes : ∀ path ∈ question.writes,
    path.resolveFrom directory ≠ placeOf directory workDirectory id

theorem Shelved.of_step (shelved : Shelved directory workDirectory id desk)
    (step : onDisk directory merges desk question answer after)
    (spares : Spares directory workDirectory id question) :
    Shelved directory workDirectory id after := by
  constructor
  · simpa only [fetched_iff_of_step step spares.fetches] using shelved.fetched
  · intro body fetched
    rw [step.2.1 _ spares.writes]
    exact shelved.stored body ((fetched_iff_of_step step spares.fetches body).mp fetched)

/-! ## Loading -/

theorem decode?_of_textOf {body : Bytes} (read : textOf id body = .ok text) :
    Utf8.decode? body = some text := by
  unfold textOf at read
  split at read
  case h_1 decoded =>
    cases read
    exact decoded
  case h_2 => cases read

variable {resource : Resource} {resources : List Resource}

theorem keeps_unfetched {α : Type} {dialogue : Dialogue collaborators α} {ids : Set String}
    (asks : dialogue.Asks fun question : Inquiry => ∀ id ∈ ids, question ≠ .getObject id)
    (unfetched : ∀ id ∈ ids, Unfetched id desk) :
    dialogue.Keeps (onDisk directory merges) (fun _ _ => True)
      (fun _ now => ∀ id ∈ ids, Unfetched id now) desk := by
  refine asks.invariant unfetched fun now question other unfetched => ⟨trivial, ?_⟩
  exact fun answer after step id member => (unfetched id member).of_step step (other id member)

/-- The text of a key that was not fetched before is what is fetched now. -/
theorem keeps_fetchText (unfetched : Unfetched id desk) :
    (fetchText id).run.Keeps (onDisk directory merges) (fun _ _ => True)
      (fun outcome now => ∀ text, outcome = .ok text → Got id text now) desk := by
  have reads : (Task.outcome (Task.getObject id)).run.Keeps (onDisk directory merges)
      (fun _ _ => True) (fun outcome now => ∀ given, outcome = .ok given →
        now.past = desk.past ++ [Inquiry.answered (.getObject id) given]) desk := by
    refine ⟨trivial, fun given now step => ?_⟩
    rintro _ ⟨⟩
    exact step.1
  apply Task.keeps_bind_ok reads
  intro given now past
  cases given with
  | error failure =>
      intro text impossible
      cases impossible
  | ok body =>
      intro text read
      constructor
      · refine ⟨body, ?_⟩
        rw [Fetched, past]
        exact List.mem_append_right _ List.mem_cons_self
      · intro other fetched
        rw [Fetched, past, List.mem_append, List.mem_singleton] at fetched
        rcases fetched with earlier | same
        · exact (unfetched other earlier).elim
        · cases same
          exact (Utf8.encode_of_decode? (decode?_of_textOf read)).symm

/-- A text that was fetched is put on the disk as it was fetched. -/
theorem keeps_place (got : Got id text desk) :
    (place (scriptPathOf workDirectory id) (Utf8.encode text)).run.Keeps
      (onDisk directory merges) (fun _ _ => True)
      (fun outcome now => ∀ value, outcome = .ok value →
        Shelved directory workDirectory id now) desk := by
  have makes : (Feed.makeParent (scriptPathOf workDirectory id)).run.Keeps
      (onDisk directory merges) (fun _ _ => True) (fun _ now => Got id text now) desk := by
    have asks : (Feed.makeParent (scriptPathOf workDirectory id)).run.Asks
        fun question : Inquiry => question ≠ .getObject id := Update.asks_makeParent fun _ _ => nofun
    refine asks.invariant got fun now question other got => ⟨trivial, ?_⟩
    exact fun answer after step => got.of_step step other
  apply Task.keeps_bind_ok (makes.mono fun _ _ got _ _ => got)
  intro _ made got
  refine ⟨trivial, fun answer after step => ?_⟩
  rcases answer with fault | ⟨⟩
  · intro _ impossible
    cases impossible
  · intro _ _
    have written := got.of_step step nofun
    refine ⟨written.fetched, fun body fetched => ?_⟩
    rw [written.encoded body fetched]
    exact step.2.2 rfl

/-- What is said of a resource that was loaded: if it is a script, it lies on the disk. -/
def Settled (directory : List String) (workDirectory : Path) (resource : Resource)
    (desk : Desk) : Prop :=
  resource.kind = .script → Shelved directory workDirectory resource.id desk

/-- A script that was not fetched before lies on the disk as it is fetched. -/
theorem keeps_fetch (unfetched : Unfetched resource.id desk) :
    (fetch workDirectory resource).run.Keeps (onDisk directory merges) (fun _ _ => True)
      (fun outcome now => ∀ loaded, outcome = .ok loaded →
        Settled directory workDirectory resource now) desk := by
  obtain ⟨id, kind⟩ := resource
  cases kind with
  | script =>
      apply Task.keeps_bind_ok (keeps_fetchText unfetched)
      intro text now got
      apply Task.keeps_bind_ok (keeps_place got)
      intro _ placed shelved
      exact fun _ _ _ => shelved
  | area =>
      refine (keeps_of_ends fun _ _ _ => trivial).mono fun _ _ _ _ _ other => ?_
      cases other

/-- Scripts with different keys lie at different places. -/
def Apart (directory : List String) (workDirectory : Path) (resources : List Resource) : Prop :=
  ∀ first ∈ resources, ∀ second ∈ resources, first.kind = .script → second.kind = .script →
    first.id ≠ second.id →
      placeOf directory workDirectory first.id ≠ placeOf directory workDirectory second.id

/-- Loading fetches nothing but its own resources. -/
theorem OfLoading.fetches (asked : OfLoading workDirectory resources question)
    (other : ∀ resource ∈ resources, resource.id ≠ id) : question ≠ .getObject id := by
  rintro rfl
  cases asked with
  | get resource member => exact other resource member rfl

/-- What is loaded later neither fetches a script again nor writes where it lies. -/
theorem OfLoading.spares (asked : OfLoading workDirectory resources question)
    (distinct : ∀ later ∈ resources, resource.id ≠ later.id)
    (apart : Apart directory workDirectory (resource :: resources))
    (script : resource.kind = .script) :
    Spares directory workDirectory resource.id question := by
  refine ⟨asked.fetches fun later member => (distinct later member).symm, ?_⟩
  cases asked with
  | directory path => exact nofun
  | get later member => exact nofun
  | write later content member kind =>
      intro path written
      obtain rfl := List.mem_singleton.mp written
      exact apart later (List.mem_cons_of_mem _ member) resource List.mem_cons_self kind script
        (distinct later member).symm

/-- Work that spares a script leaves it on the disk. -/
theorem keeps_shelved {α : Type} {dialogue : Dialogue collaborators α}
    (asks : dialogue.Asks (Spares directory workDirectory id))
    (shelved : Shelved directory workDirectory id desk) :
    dialogue.Keeps (onDisk directory merges) (fun _ _ => True)
      (fun _ now => Shelved directory workDirectory id now) desk := by
  refine asks.invariant shelved fun now question spares shelved => ⟨trivial, ?_⟩
  exact fun answer after step => shelved.of_step step spares

/-- The resources that are loaded later leave a script on the disk. -/
theorem keeps_settled (distinct : ∀ later ∈ resources, resource.id ≠ later.id)
    (apart : Apart directory workDirectory (resource :: resources))
    (settled : Settled directory workDirectory resource desk) :
    (fetchAll workDirectory resources).run.Keeps (onDisk directory merges) (fun _ _ => True)
      (fun _ now => Settled directory workDirectory resource now) desk := by
  by_cases script : resource.kind = .script
  · have spares : (fetchAll workDirectory resources).run.Asks
        (Spares directory workDirectory resource.id) :=
      asks_fetchAll.mono fun question asked => asked.spares distinct apart script
    exact (keeps_shelved spares (settled script)).mono fun _ _ shelved _ => shelved
  · exact (keeps_of_ends fun _ _ _ => trivial).mono fun _ _ _ own => (script own).elim

/-- The resources that are loaded later were not fetched before. -/
theorem keeps_unfetched_later (distinct : ∀ later ∈ resources, resource.id ≠ later.id)
    (unfetched : ∀ later ∈ resources, Unfetched later.id desk) :
    (fetch workDirectory resource).run.Keeps (onDisk directory merges) (fun _ _ => True)
      (fun _ now => ∀ later ∈ resources, Unfetched later.id now) desk := by
  have fetches : (fetch workDirectory resource).run.Asks fun question : Inquiry =>
      ∀ id ∈ {id | ∃ later ∈ resources, later.id = id}, question ≠ .getObject id := by
    apply (asks_fetch (List.mem_singleton_self resource)).mono
    rintro question asked _ ⟨later, member, rfl⟩
    apply asked.fetches
    intro own among
    obtain rfl := List.mem_singleton.mp among
    exact distinct later member
  apply (keeps_unfetched fetches ?_).mono
  · exact fun _ _ all later member => all later.id ⟨later, member, rfl⟩
  · rintro _ ⟨later, member, rfl⟩
    exact unfetched later member

/-- Resources that are loaded one after the other leave every script on the disk. -/
theorem keeps_fetchAll (distinct : resources.Pairwise fun first second => first.id ≠ second.id)
    (apart : Apart directory workDirectory resources)
    (unfetched : ∀ resource ∈ resources, Unfetched resource.id desk) :
    (fetchAll workDirectory resources).run.Keeps (onDisk directory merges) (fun _ _ => True)
      (fun outcome now => ∀ cache, outcome = .ok cache →
        ∀ resource ∈ resources, Settled directory workDirectory resource now) desk := by
  induction resources generalizing desk with
  | nil =>
      intro _ _ resource member
      cases member
  | cons resource rest ih =>
      obtain ⟨others, distinct⟩ := List.pairwise_cons.mp distinct
      have fetches : (fetch workDirectory resource).run.Keeps (onDisk directory merges)
          (fun _ _ => True) (fun outcome now => ∀ loaded, outcome = .ok loaded →
            Settled directory workDirectory resource now ∧
              ∀ later ∈ rest, Unfetched later.id now) desk := by
        have first := unfetched resource List.mem_cons_self
        have remaining := fun later member => unfetched later (List.mem_cons_of_mem resource member)
        apply ((keeps_fetch first).and (keeps_unfetched_later others remaining)).mono
        rintro outcome now ⟨settled, later⟩ loaded ok
        exact ⟨settled loaded ok, later⟩
      apply Task.keeps_bind_ok fetches
      rintro loaded now ⟨settled, unfetched⟩
      have loads : (fetchAll workDirectory rest).run.Keeps (onDisk directory merges)
          (fun _ _ => True) (fun outcome last => ∀ cache, outcome = .ok cache →
            (∀ other ∈ rest, Settled directory workDirectory other last) ∧
              Settled directory workDirectory resource last) now := by
        have among : Apart directory workDirectory rest := fun first hfirst second hsecond =>
          apart first (List.mem_cons_of_mem _ hfirst) second (List.mem_cons_of_mem _ hsecond)
        apply ((ih distinct among unfetched).and (keeps_settled others apart settled)).mono
        rintro outcome last ⟨all, own⟩ cache ok
        exact ⟨all cache ok, own⟩
      apply Task.keeps_bind_ok loads
      rintro cache last ⟨all, own⟩ _ _ other member
      rcases List.mem_cons.mp member with rfl | later
      · exact own
      · exact all other later

end Resource

end MapReplica
