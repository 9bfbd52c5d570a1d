import Mathlib.Logic.Function.Basic
import MapReplica.Proofs.Lock.Calls
import MapReplica.Proofs.Update.CommitSafety

/-!
# Instances

Any number of instances work on one project, each with a lock of its own on one database
and all with one object store. They move one at a time, by one answer of a collaborator
or of the database, and any of these may be a failure. At most one instance is inside of
the lock, and nobody writes a progress text without knowing the one that it replaces.
-/

namespace MapReplica

open Dialogue

/-- The inquiries that are not for the lock. -/
def Inquiry.SparesLock : Inquiry → Prop
  | .reserve _ => False
  | .release _ => False
  | _ => True

namespace Update

/-- What is left to do of a drive. -/
abbrev Work := Dialogue collaborators (Except Failure Unit × Manager)

/-- What is left to do of a call of the lock. -/
abbrev LockWork := Dialogue Database.protocol (Except Failure Unit × Lock.Held)

/-- What an instance is doing. -/
inductive Stage where
  | idle (manager : Manager)
  | working (rest : Work)
  | reserving (project : String) (call : LockWork) (next : Except Failure Unit → Work)
  | releasing (project : String) (call : LockWork) (next : Except Failure Unit → Work)

/-- An instance, with the locks that are recorded as held and what was said so far. -/
structure Instance where
  stage : Stage
  held : Lock.Held := []
  /-- Whether it is between a reserve that succeeded and the start of the release after it. -/
  inside : Bool := false
  past : List (Exchange collaborators) := []

/-- Who has the lock of the project in the database; a stranger is no session of an instance. -/
inductive Owner (ι : Type) where
  | nobody
  | session (owner : ι) (session : Database.Session)
  | stranger

/--
What the instances share: the lock in the database, and the progress texts in the object
store, the newest first.
-/
structure Shared (ι : Type) where
  owner : Owner ι
  texts : List Bytes

/-- Goes on with taking the lock, until the call has ended. -/
def Instance.reserve (self : Instance) (project : String) (call : LockWork)
    (next : Except Failure Unit → Work) : Instance :=
  match call with
  | .done (result, held) =>
      { stage := .working (next result), held, inside := result.toBool
        past := self.past ++ [Inquiry.answered (.reserve project) result] }
  | .ask _ _ => { self with stage := .reserving project call next }

/-- Goes on with giving the lock back, until the call has ended. -/
def Instance.release (self : Instance) (project : String) (call : LockWork)
    (next : Except Failure Unit → Work) : Instance :=
  match call with
  | .done (result, held) =>
      { stage := .working (next result), held, inside := false
        past := self.past ++ [Inquiry.answered (.release project) result] }
  | .ask _ _ =>
      { self with
        stage := .releasing project call next
        held := self.held.without project
        inside := false }

variable {ι : Type}

/--
What an answer of the database to an instance makes of the owner of the lock: the lock is
granted only if nobody else has it, and only its owner gives it back. A statement that
failed may have taken effect.
-/
def Governs (project : String) (who : ι) (owner : Owner ι) :
    (query : Database.Query) → query.Answer → Owner ι → Prop
  | .execute session (.tryLock other), (answer : Except Database.Fault Bool), after =>
      (other = project ∧ (owner = .nobody ∨ owner = .session who session) ∧
          after = .session who session) ∨
        ((other = project → answer ≠ .ok true) ∧ after = owner)
  | .execute session (.unlock other), _, after =>
      (other = project ∧ owner = .session who session ∧ after = .nobody) ∨ after = owner
  | _, _, after => after = owner

/--
A move of an instance: it starts or ends a drive, starts a call of the lock, or gets an
answer from a collaborator or, within a call of the lock, from the database.
-/
inductive Moves (project : String) (setup : Setup) (who : ι) (before : Instance)
    (shared : Shared ι) : Instance → Shared ι → Prop where
  | start {manager : Manager} (drive : Drive) (idle : before.stage = .idle manager) :
      Moves project setup who before shared
        { before with stage := .working ((drive.work setup).starting manager) } shared
  | finish {outcome : Except Failure Unit} {manager : Manager}
      (working : before.stage = .working (.done (outcome, manager))) :
      Moves project setup who before shared { before with stage := .idle manager } shared
  | answer {question : Inquiry} {next : question.Answer → Work} (answer : question.Answer)
      (texts : List Bytes)
      (working : before.stage = .working (.ask (P := collaborators) question next))
      (sparing : question.SparesLock) (writes : Writes project shared.texts question answer texts) :
      Moves project setup who before shared
        { before with
          stage := .working (next answer)
          past := before.past ++ [Inquiry.answered question answer] }
        { shared with texts }
  | reserve {asked : String} {next : Except Failure Unit → Work}
      (working : before.stage = .working (.ask (P := collaborators) (.reserve asked) next)) :
      Moves project setup who before shared
        (before.reserve asked ((Lock.reserve asked).run before.held) next) shared
  | release {asked : String} {next : Except Failure Unit → Work}
      (working : before.stage = .working (.ask (P := collaborators) (.release asked) next)) :
      Moves project setup who before shared
        (before.release asked ((Lock.release asked).run before.held) next) shared
  | reserving {asked : String} {next : Except Failure Unit → Work} {query : Database.Query}
      {rest : query.Answer → LockWork} (answer : query.Answer) (owner : Owner ι)
      (calling : before.stage = .reserving asked (.ask (P := Database.protocol) query rest) next)
      (governs : Governs project who shared.owner query answer owner) :
      Moves project setup who before shared (before.reserve asked (rest answer) next)
        { shared with owner }
  | releasing {asked : String} {next : Except Failure Unit → Work} {query : Database.Query}
      {rest : query.Answer → LockWork} (answer : query.Answer) (owner : Owner ι)
      (calling : before.stage = .releasing asked (.ask (P := Database.protocol) query rest) next)
      (governs : Governs project who shared.owner query answer owner) :
      Moves project setup who before shared (before.release asked (rest answer) next)
        { shared with owner }

/-- All instances, and what they share. -/
structure Joint (ι : Type) where
  instances : ι → Instance
  shared : Shared ι

section Steps

variable [DecidableEq ι] (project : String) (setups : ι → Setup)

/--
A step of all instances together: one of them moves, or the lock gets another owner in the
database for reasons of its own, but it stays with a session that is recorded as its holder.
-/
inductive Step (joint : Joint ι) : Joint ι → Prop where
  | move (who : ι) {after : Instance} {shared : Shared ι}
      (moves : Moves project (setups who) who (joint.instances who) joint.shared after shared) :
      Step joint ⟨Function.update joint.instances who after, shared⟩
  | database (owner : Owner ι)
      (stays : ∀ who session, joint.shared.owner = .session who session →
        (joint.instances who).held.session? project ≠ some session) :
      Step joint ⟨joint.instances, { joint.shared with owner }⟩

/-- What any number of steps leads to. -/
inductive Reaches (first : Joint ι) : Joint ι → Prop where
  | refl : Reaches first first
  | step {middle last : Joint ι} :
      Reaches first middle → Step project setups middle last → Reaches first last

end Steps

/-! ## What holds of an instance -/

section Soundness

variable {project : String} {setup : Setup} {order : Manager} {who : ι}
variable {before after : Instance} {shared later : Shared ι}

/-- What an instance does is orderly, and what it records agrees with what was said. -/
def Instance.Sound (project : String) (setup : Setup) (order : Manager) (self : Instance) : Prop :=
  match self.stage with
  | .idle manager =>
      SameOrder order manager ∧ phaseOf project self.past = .outside ∧ self.inside = false ∧
        self.held.session? project = none
  | .working rest =>
      rest.Keeps recorded (Orderly setup order Set.univ) (Outside order (Free order)) self.past ∧
        (self.inside = true ↔ phaseOf project self.past ≠ .outside) ∧
        (self.inside = false → self.held.session? project = none)
  | .reserving asked call next =>
      asked = project ∧ self.inside = false ∧ self.held.session? project = none ∧
        (∃ last, call.Keeps Lock.latest (fun _ _ => True) (Lock.Reserved project) last) ∧
        ∀ result, (next result).Keeps recorded (Orderly setup order Set.univ)
          (Outside order (Free order))
          (self.past ++ [Inquiry.answered (.reserve project) result])
  | .releasing asked call next =>
      asked = project ∧ self.inside = false ∧ self.held.session? project = none ∧
        (∃ last, call.Keeps Lock.latest (fun _ _ => True) (Lock.Released project) last) ∧
        ∀ result, (next result).Keeps recorded (Orderly setup order Set.univ)
          (Outside order (Free order))
          (self.past ++ [Inquiry.answered (.release project) result])

/-- An instance that is inside owns the lock in the database, and knows the newest text. -/
structure Guarded (project : String) (who : ι) (instance' : Instance)
    (shared : Shared ι) : Prop where
  owner : ∃ session, instance'.held.session? project = some session ∧
    shared.owner = .session who session
  newest : Faithful project instance'.past shared.texts

/-- Only a session of the instance itself is granted the lock, or gives it back. -/
theorem owner_of_governs {other : ι} {session : Database.Session} {owner : Owner ι}
    {query : Database.Query} {answer : query.Answer} (different : other ≠ who)
    (owned : shared.owner = .session other session)
    (governs : Governs project who shared.owner query answer owner) : owner = shared.owner := by
  rw [owned] at governs ⊢
  cases query with
  | execute used statement =>
      cases statement with
      | tryLock asked =>
          rcases governs with ⟨-, nobody | own, -⟩ | ⟨-, same⟩
          · cases nobody
          · cases own
            exact (different rfl).elim
          · exact same
      | unlock asked =>
          rcases governs with ⟨-, own, -⟩ | same
          · cases own
            exact (different rfl).elim
          · exact same
      | findTable name => exact governs
      | insertJob schema queue data key => exact governs
  | acquire => exact governs
  | giveBack used => exact governs
  | close => exact governs

/-- The lock does not leave another instance by a move. -/
theorem owner_of_moves {other : ι} {session : Database.Session} (different : other ≠ who)
    (owned : shared.owner = .session other session)
    (moves : Moves project setup who before shared after later) : later.owner = shared.owner := by
  cases moves with
  | start drive idle => rfl
  | finish working => rfl
  | answer answer texts working sparing writes => rfl
  | reserve working => rfl
  | release working => rfl
  | reserving answer owner calling governs => exact owner_of_governs different owned governs
  | releasing answer owner calling governs => exact owner_of_governs different owned governs

/-- An instance that is not inside writes no progress text. -/
theorem texts_of_moves (ordered : order.progress.project = project)
    (sound : before.Sound project setup order) (outside : before.inside = false)
    (moves : Moves project setup who before shared after later) : later.texts = shared.texts := by
  cases moves with
  | @answer question next answer texts working sparing writes =>
      unfold Instance.Sound at sound
      rw [working] at sound
      obtain ⟨⟨orderly, _⟩, inside, _⟩ := sound
      cases question with
      | getObject key => exact writes.1
      | putObject key body =>
          rcases writes with ⟨own, _⟩ | ⟨_, same⟩
          · rcases orderly with ⟨old, _, _, _, _, _, _, phase, _⟩ | spares
            · have entered := inside.mpr fun out => by
                rw [← ordered, phase] at out
                cases out
              rw [outside] at entered
              cases entered
            · exact (spares project own).elim
          · exact same
      | reserve asked => exact sparing.elim
      | release asked => exact sparing.elim
      | _ => exact writes
  | _ => rfl

/-- What holds of an instance that moves, by itself and with what it shares. -/
structure Fit (project : String) (setup : Setup) (order : Manager) (who : ι) (instance' : Instance)
    (shared : Shared ι) : Prop where
  sound : instance'.Sound project setup order
  guarded : instance'.inside = true → Guarded project who instance' shared

/-- Going on with a call that takes the lock, after an answer of the database. -/
theorem fit_reserve {next : Except Failure Unit → Work} {call : LockWork}
    (outside : before.inside = false) (free : before.held.session? project = none)
    {last : Option (Exchange Database.protocol)}
    (calls : call.Keeps Lock.latest (fun _ _ => True) (Lock.Reserved project) last)
    (granted : ∀ session,
      last = some ⟨.execute session (.tryLock project),
        (Except.ok true : Except Database.Fault Bool)⟩ → shared.owner = .session who session)
    (follows : ∀ result, (next result).Keeps recorded (Orderly setup order Set.univ)
      (Outside order (Free order))
      (before.past ++ [Inquiry.answered (.reserve project) result])) :
    Fit project setup order who (before.reserve project call next) shared := by
  cases call with
  | ask query rest =>
      refine ⟨⟨rfl, outside, free, ⟨last, calls⟩, follows⟩, fun inside => ?_⟩
      cases outside.symm.trans inside
  | done result =>
      obtain ⟨outcome, held⟩ := result
      cases outcome with
      | error failure =>
          refine ⟨⟨follows _, ⟨nofun, fun entered => ?_⟩, fun _ => calls⟩, nofun⟩
          exact (entered phaseOf_reserve).elim
      | ok _ =>
          obtain ⟨session, recorded, latest⟩ := calls
          refine ⟨⟨follows _, ⟨fun _ out => ?_, fun _ => rfl⟩, nofun⟩,
            fun _ => ⟨⟨session, recorded, granted session latest⟩, fun body known => ?_⟩⟩
          · cases phaseOf_reserve.symm.trans out
          · cases phaseOf_reserve.symm.trans known

/-- Going on with a call that gives the lock back, after an answer of the database. -/
theorem fit_release {next : Except Failure Unit → Work} {call : LockWork}
    {last : Option (Exchange Database.protocol)}
    (calls : call.Keeps Lock.latest (fun _ _ => True) (Lock.Released project) last)
    (follows : ∀ result, (next result).Keeps recorded (Orderly setup order Set.univ)
      (Outside order (Free order))
      (before.past ++ [Inquiry.answered (.release project) result])) :
    Fit project setup order who (before.release project call next) shared := by
  cases call with
  | ask query rest =>
      exact ⟨⟨rfl, rfl, Lock.session?_without, ⟨last, calls⟩, follows⟩, nofun⟩
  | done result =>
      refine ⟨⟨follows _, ⟨nofun, fun entered => ?_⟩, fun _ => calls⟩, nofun⟩
      exact (entered phaseOf_release).elim

/-- The database grants the lock to the session that it answers. -/
theorem granted_of_governs {query : Database.Query} {answer : query.Answer} {owner : Owner ι}
    (governs : Governs project who shared.owner query answer owner) {session : Database.Session}
    (latest : (some ⟨query, answer⟩ : Option (Exchange Database.protocol)) =
      some ⟨.execute session (.tryLock project), (Except.ok true : Except Database.Fault Bool)⟩) :
    owner = .session who session := by
  cases latest
  rcases governs with ⟨-, -, taken⟩ | ⟨refused, -⟩
  · exact taken
  · exact (refused rfl rfl).elim

/-- What is asked of others than the lock does not lead into the lock or out of it. -/
theorem outside_iff_of_orderly {past : List (Exchange collaborators)} {feeds : Set String}
    {question : Inquiry} (answer : question.Answer) (sparing : question.SparesLock)
    (orderly : Orderly setup order feeds past question) :
    phaseOf order.progress.project (past ++ [Inquiry.answered question answer]) = .outside ↔
      phaseOf order.progress.project past = .outside := by
  rw [phaseOf_append_singleton]
  cases question with
  | getObject key =>
      obtain ⟨rfl, entered⟩ := orderly
      cases answer with
      | error failure => rfl
      | ok body =>
          refine iff_of_false (fun out => ?_) entered
          cases (if_pos rfl : _ = Phase.knows body).symm.trans out
  | putObject key body =>
      rcases orderly with ⟨old, _, _, _, _, rfl, _, phase, _⟩ | spares
      · rw [phase]
        refine iff_of_false (fun out => ?_) Phase.noConfusion
        replace out := (if_pos rfl).symm.trans out
        cases answer with
        | error failure => cases out
        | ok _ => cases out
      · exact iff_of_eq (congrArg (· = Phase.outside) (if_neg (spares _)))
  | reserve asked => exact sparing.elim
  | release asked => exact sparing.elim
  | _ => rfl

/-- A move keeps an instance sound and guarded. -/
theorem fit_of_moves (ordered : order.progress.project = project)
    (fit : Fit project setup order who before shared)
    (moves : Moves project setup who before shared after later) :
    Fit project setup order who after later := by
  obtain ⟨sound, guarded⟩ := fit
  unfold Instance.Sound at sound
  cases moves with
  | start drive idle =>
      rw [idle] at sound
      obtain ⟨same, out, outside, free⟩ := sound
      have starts : Free order before.past := by
        unfold Free
        rwa [ordered]
      refine ⟨⟨orderly_work trivial same starts, ⟨fun inside => ?_, fun entered => ?_⟩,
        fun _ => free⟩, fun inside => ?_⟩
      · cases outside.symm.trans inside
      · exact (entered out).elim
      · cases outside.symm.trans inside
  | finish working =>
      rw [working] at sound
      obtain ⟨⟨same, out⟩, inside, free⟩ := sound
      unfold Free at out
      rw [ordered] at out
      have outside : before.inside = false := Bool.eq_false_iff.mpr fun entered =>
        inside.mp entered out
      exact ⟨⟨same, out, outside, free outside⟩,
        fun entered => ⟨(guarded entered).owner, (guarded entered).newest⟩⟩
  | answer answer texts working sparing writes =>
      rw [working] at sound
      obtain ⟨⟨orderly, keeps⟩, inside, free⟩ := sound
      have same := outside_iff_of_orderly answer sparing orderly
      rw [ordered] at same
      exact ⟨⟨keeps answer _ rfl, inside.trans (not_congr same.symm), free⟩, fun entered =>
        ⟨(guarded entered).owner, faithful_of_writes (guarded entered).newest writes⟩⟩
  | reserve working =>
      rw [working] at sound
      obtain ⟨⟨⟨rfl, out⟩, keeps⟩, inside, free⟩ := sound
      rw [ordered] at out
      have outside : before.inside = false := Bool.eq_false_iff.mpr fun entered =>
        inside.mp entered out
      rw [ordered] at keeps ⊢
      have calls : ((Lock.reserve project).run before.held).Keeps Lock.latest (fun _ _ => True)
          (Lock.Reserved project) none := Lock.keeps_reserve (free outside)
      exact fit_reserve outside (free outside) calls nofun fun result => keeps result _ rfl
  | release working =>
      rw [working] at sound
      obtain ⟨⟨⟨rfl, entered⟩, keeps⟩, inside, free⟩ := sound
      rw [ordered] at keeps ⊢
      have calls : ((Lock.release project).run before.held).Keeps Lock.latest (fun _ _ => True)
          (Lock.Released project) none := Lock.keeps_release
      exact fit_release calls fun result => keeps result _ rfl
  | reserving answer owner calling governs =>
      rw [calling] at sound
      obtain ⟨rfl, outside, free, ⟨last, keeps⟩, follows⟩ := sound
      exact fit_reserve outside free (keeps.2 answer _ rfl)
        (fun _ => granted_of_governs governs) follows
  | releasing answer owner calling governs =>
      rw [calling] at sound
      obtain ⟨rfl, outside, free, ⟨last, keeps⟩, follows⟩ := sound
      exact fit_release (keeps.2 answer _ rfl) follows

end Soundness

/-! ## What holds of all instances -/

section Together

variable {project : String} {setups : ι → Setup} {orders : ι → Manager} {joint after : Joint ι}

/-- Every instance is sound and guarded. -/
def Joint.Fits (project : String) (setups : ι → Setup) (orders : ι → Manager)
    (joint : Joint ι) : Prop :=
  ∀ who, Fit project (setups who) (orders who) who (joint.instances who) joint.shared

/-- Instances that are inside are one. -/
theorem Joint.Fits.unique (fits : joint.Fits project setups orders) {first second : ι}
    (hfirst : (joint.instances first).inside = true)
    (hsecond : (joint.instances second).inside = true) : first = second := by
  obtain ⟨session, _, owner⟩ := ((fits first).guarded hfirst).owner
  obtain ⟨other, _, owner'⟩ := ((fits second).guarded hsecond).owner
  cases owner.symm.trans owner'
  rfl

variable [DecidableEq ι]

theorem fits_of_step (ordered : ∀ who, (orders who).progress.project = project)
    (fits : joint.Fits project setups orders) (step : Step project setups joint after) :
    after.Fits project setups orders := by
  cases step with
  | @move who moved shared moves =>
      intro other
      by_cases same : other = who
      · subst same
        rw [show (⟨Function.update joint.instances other moved, shared⟩ : Joint ι).instances other =
          moved from Function.update_self ..]
        exact fit_of_moves (ordered other) (fits other) moves
      · -- The others neither lose the lock nor have the text changed below them.
        rw [show (⟨Function.update joint.instances who moved, shared⟩ : Joint ι).instances other =
          joint.instances other from Function.update_of_ne same ..]
        refine ⟨(fits other).sound, fun inside => ?_⟩
        obtain ⟨⟨session, recorded, owned⟩, newest⟩ := (fits other).guarded inside
        have outside : (joint.instances who).inside = false :=
          Bool.eq_false_iff.mpr fun entered => same (fits.unique inside entered)
        refine ⟨⟨session, recorded, (owner_of_moves same owned moves).trans owned⟩, ?_⟩
        rw [texts_of_moves (ordered who) (fits who).sound outside moves]
        exact newest
  | database owner stays =>
      intro who
      refine ⟨(fits who).sound, fun inside => ?_⟩
      obtain ⟨⟨session, recorded, owned⟩, _⟩ := (fits who).guarded inside
      exact (stays who session owned recorded).elim

theorem fits_of_reaches {start : Joint ι} (ordered : ∀ who, (orders who).progress.project = project)
    (fits : start.Fits project setups orders) (reached : Reaches project setups start joint) :
    joint.Fits project setups orders := by
  induction reached with
  | refl => exact fits
  | step _ last ih => exact fits_of_step ordered ih last

/--
No lost update. However the instances of a project take turns, and whatever fails: at
most one is between a reserve that succeeded and the start of the release after it, and a
progress text is written only from there, over the text that the writer knows, whose
number is the one before.
-/
theorem one_inside_and_no_lost_update {start : Joint ι}
    (ordered : ∀ who, (orders who).progress.project = project)
    (begins : ∀ who, start.instances who = { stage := .idle (orders who) })
    (reached : Reaches project setups start joint) :
    (∀ first second, (joint.instances first).inside = true →
        (joint.instances second).inside = true → first = second) ∧
      ∀ who body next,
        (joint.instances who).stage =
            .working (.ask (P := collaborators) (.putObject (Progress.keyOf project) body) next) →
          (joint.instances who).inside = true ∧
            ∃ old sequence, phaseOf project (joint.instances who).past = .knows old ∧
              joint.shared.texts.head? = some old ∧ Progress.numberOf? old = some sequence ∧
              Progress.numberOf? body = some (sequence + 1) := by
  have first : start.Fits project setups orders := by
    intro who
    rw [begins who]
    exact ⟨⟨.refl _, rfl, rfl, rfl⟩, nofun⟩
  have fits := fits_of_reaches ordered first reached
  refine ⟨fun _ _ => fits.unique, fun who body next working => ?_⟩
  obtain ⟨sound, guarded⟩ := fits who
  unfold Instance.Sound at sound
  rw [working] at sound
  obtain ⟨⟨orderly, _⟩, inside, _⟩ := sound
  rcases orderly with ⟨old, sequence, _, _, _, _, _, phase, number, next, _⟩ | spares
  · rw [ordered who] at phase
    have entered := inside.mpr fun out => by
      rw [phase] at out
      cases out
    exact ⟨entered, old, sequence, phase, (guarded entered).newest old phase, number, next⟩
  · exact (spares project rfl).elim

end Together

/-! ## Two instances -/

/-- The answers of a database in which nothing fails, with the owner of the lock after them. -/
def obligingDatabase (project : String) (who : Bool) (owner : Owner Bool) :
    (query : Database.Query) → query.Answer × Owner Bool
  | .acquire => ((.ok 0 : Except Database.Fault Database.Session), owner)
  | .giveBack _ => ((), owner)
  | .close => ((), owner)
  | .execute session (.tryLock asked) =>
      match owner with
      | .nobody =>
          ((.ok true : Except Database.Fault Bool),
            if asked = project then .session who session else .nobody)
      | _ => ((.ok false : Except Database.Fault Bool), owner)
  | .execute _ (.unlock _) => ((.ok true : Except Database.Fault Bool), owner)
  | .execute _ (.findTable _) => ((.ok none : Except Database.Fault (Option String)), owner)
  | .execute _ (.insertJob ..) => ((.ok true : Except Database.Fault Bool), owner)

theorem governs_obliging {project : String} {who : Bool} {owner : Owner Bool}
    {query : Database.Query} :
    Governs project who owner query (obligingDatabase project who owner query).1
      (obligingDatabase project who owner query).2 := by
  cases query with
  | execute session statement =>
      cases statement with
      | tryLock asked =>
          cases owner with
          | nobody =>
              by_cases own : asked = project
              · exact .inl ⟨own, .inl rfl, if_pos own⟩
              · exact .inr ⟨fun other => (own other).elim, if_neg own⟩
          | session holder used => exact .inr ⟨fun _ => nofun, rfl⟩
          | stranger => exact .inr ⟨fun _ => nofun, rfl⟩
      | unlock asked => exact .inr rfl
      | findTable name => rfl
      | insertJob schema queue data key => rfl
  | acquire => rfl
  | giveBack session => rfl
  | close => rfl

/-- The next move of an instance whose collaborators and database oblige it; it runs batches. -/
def obligingMove (project feed : String) (setup : Setup) (who : Bool) (before : Instance)
    (shared : Shared Bool) : Instance × Shared Bool :=
  match before.stage with
  | .idle manager =>
      ({ before with stage := .working (((Drive.append feed).work setup).starting manager) },
        shared)
  | .working (.ask (Inquiry.reserve asked) next) =>
      (before.reserve asked ((Lock.reserve asked).run before.held) next, shared)
  | .working (.ask (Inquiry.release asked) next) =>
      (before.release asked ((Lock.release asked).run before.held) next, shared)
  | .working (.ask question next) =>
      ({ before with
          stage := .working (next (obliging shared.texts question))
          past := before.past ++ [Inquiry.answered question (obliging shared.texts question)] },
        { shared with texts := putInto project shared.texts question })
  | .reserving asked (.ask query rest) next =>
      (before.reserve asked (rest (obligingDatabase project who shared.owner query).1) next,
        { shared with owner := (obligingDatabase project who shared.owner query).2 })
  | _ => (before, shared)

theorem moves_obliging {project feed : String} {setup : Setup} {who : Bool} {before : Instance}
    {shared : Shared Bool} :
    obligingMove project feed setup who before shared = (before, shared) ∨
      Moves project setup who before shared
        (obligingMove project feed setup who before shared).1
        (obligingMove project feed setup who before shared).2 := by
  unfold obligingMove
  split
  case h_1 manager idle => exact .inr (.start (.append feed) idle)
  case h_2 asked next working => exact .inr (.reserve working)
  case h_3 asked next working => exact .inr (.release working)
  case h_4 question next noReserve noRelease working =>
    refine .inr (.answer _ _ working ?_ (writes_obliging project shared.texts question))
    cases question with
    | reserve asked => exact noReserve asked next rfl HEq.rfl
    | release asked => exact noRelease asked next rfl HEq.rfl
    | _ => trivial
  case h_5 asked query rest next calling =>
    exact .inr (.reserving _ _ calling governs_obliging)
  case h_6 => exact .inl rfl

/-- The joint state after moves of two instances, given by who moves. -/
def play (project feed : String) (setup : Setup) : List Bool → Joint Bool → Joint Bool
  | [], joint => joint
  | who :: rest, joint =>
      let moved := obligingMove project feed setup who (joint.instances who) joint.shared
      play project feed setup rest ⟨Function.update joint.instances who moved.1, moved.2⟩

theorem reaches_play {project feed : String} {setup : Setup} {start joint : Joint Bool}
    (moves : List Bool) (reached : Reaches project (fun _ => setup) start joint) :
    Reaches project (fun _ => setup) start (play project feed setup moves joint) := by
  induction moves generalizing joint with
  | nil => exact reached
  | cons who rest ih =>
      refine ih ?_
      rcases @moves_obliging project feed setup who (joint.instances who) joint.shared with
        same | moved
      · rw [same, Function.update_eq_self]
        exact reached
      · exact .step reached (.move who moved)

/-- Two instances start batches; one gets the lock and comes to its commit, the other is refused. -/
def townPlay : Joint Bool :=
  play "town" "feed" townSetup
    ([true, true, true, true, false, false, false, false, false] ++ List.replicate 11 true)
    ⟨fun _ => { stage := .idle townManager }, ⟨.nobody, [firstText]⟩⟩

/-- What an instance is about to write into the object store. -/
def Stage.putting? : Stage → Option (String × Bytes)
  | .working rest => Update.putting? rest
  | _ => none

theorem Stage.working_of_putting? {stage : Stage} {key : String} {body : Bytes}
    (putting : stage.putting? = some (key, body)) :
    ∃ next, stage = .working (.ask (P := collaborators) (.putObject key body) next) := by
  cases stage with
  | working rest =>
      obtain ⟨next, rfl⟩ := ask_of_putting? putting
      exact ⟨next, rfl⟩
  | idle manager => cases putting
  | reserving asked call next => cases putting
  | releasing asked call next => cases putting

theorem townPlay_putting : (townPlay.instances true).stage.putting? =
    some (Progress.keyOf "town", Utf8.encode "sequenceNumber=2") := by
  decide +kernel

/--
The instance that was refused is not inside, and the other one writes over the text that
it knows.
-/
theorem townPlay_one_inside : (townPlay.instances false).inside = false ∧
    (townPlay.instances true).inside = true ∧
    ∃ old sequence, phaseOf "town" (townPlay.instances true).past = .knows old ∧
      townPlay.shared.texts.head? = some old ∧ Progress.numberOf? old = some sequence ∧
      Progress.numberOf? (Utf8.encode "sequenceNumber=2") = some (sequence + 1) := by
  have reached : Reaches "town" (fun _ => townSetup)
      ⟨fun _ => { stage := .idle townManager }, ⟨.nobody, [firstText]⟩⟩ townPlay :=
    reaches_play _ .refl
  have ordered : ∀ _ : Bool, townManager.progress.project = "town" := fun _ => rfl
  obtain ⟨unique, replaces⟩ := one_inside_and_no_lost_update ordered (fun _ => rfl) reached
  obtain ⟨next, working⟩ := Stage.working_of_putting? townPlay_putting
  obtain ⟨entered, old, sequence, phase, newest, number, next⟩ := replaces true _ next working
  refine ⟨Bool.eq_false_iff.mpr fun other => ?_, entered, old, sequence, phase, newest,
    number, next⟩
  cases unique true false entered other

end Update

end MapReplica
