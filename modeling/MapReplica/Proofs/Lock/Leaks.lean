import Mathlib.Data.Set.Basic
import MapReplica.Proofs.Dialogue.Passages
import MapReplica.Proofs.Lock.Calls

/-!
# Locks that are left behind

A database counts the advisory locks of each session, and a session that lies in the pool
keeps its own. A lock is no longer recorded once the database was asked to unlock it,
whatever the answer is. So the sessions of the pool have the locks that are recorded and,
besides these, one for every unlocking that was refused.
-/

namespace MapReplica

/-- A question to the database with its answer. -/
def Database.Query.answered (query : Database.Query) (answer : query.Answer) :
    Exchange Database.protocol :=
  ⟨query, answer⟩

namespace Lock

open Dialogue
open Database (Fault Session Query protocol)

variable {project : String} {held after : Held} {session : Session}
variable {said past : List (Exchange protocol)} {result : Except Failure Unit × Held}

/-! ## Single calls -/

/-- The complete runs of a call that takes a lock. -/
inductive Reserving (project : String) (held : Held) :
    List (Exchange protocol) → Except Failure Unit × Held → Prop where
  | recorded {session : Session} (recorded : held.session? project = some session) :
      Reserving project held [] (.ok (), held)
  | noSession (free : held.session? project = none) (fault : Fault) :
      Reserving project held [Query.answered .acquire (Except.error fault)]
        (.error (failure fault), held)
  | granted (free : held.session? project = none) (session : Session) :
      Reserving project held
        [Query.answered .acquire (Except.ok session),
          Query.answered (.execute session (.tryLock project)) (Except.ok true)]
        (.ok (), (project, session) :: held)
  | kept (free : held.session? project = none) (session : Session) :
      Reserving project held
        [Query.answered .acquire (Except.ok session),
          Query.answered (.execute session (.tryLock project)) (Except.ok false),
          Query.answered (.giveBack session) ()]
        (.error (.projectLocked project), held)
  | refused (free : held.session? project = none) (session : Session) (fault : Fault) :
      Reserving project held
        [Query.answered .acquire (Except.ok session),
          Query.answered (.execute session (.tryLock project)) (Except.error fault),
          Query.answered (.giveBack session) ()]
        (.error (failure fault), held)

theorem reserving_of_ends (ends : Ends ((reserve project).run held) said result) :
    Reserving project held said result := by
  simp only [reserve, StateT.run_bind, StateT.run_get, pure_eq, done_bind] at ends
  cases found : held.session? project with
  | some session =>
      simp only [found] at ends
      cases ends
      exact .recorded found
  | none =>
      simp only [found] at ends
      obtain ⟨fault | session, _, rfl, acquired⟩ := ends_ask_iff.mp ends
      · cases acquired
        exact .noSession found fault
      obtain ⟨fault | ⟨⟨⟩ | ⟨⟩⟩, _, rfl, tried⟩ := ends_ask_iff.mp acquired
      · obtain ⟨_, _, rfl, given⟩ := ends_ask_iff.mp tried
        cases given
        exact .refused found session fault
      · obtain ⟨_, _, rfl, given⟩ := ends_ask_iff.mp tried
        cases given
        exact .kept found session
      · cases tried
        exact .granted found session

/-- The complete runs of a call that gives a lock back. -/
inductive Releasing (project : String) (held : Held) :
    List (Exchange protocol) → Except Failure Unit × Held → Prop where
  | free (free : held.session? project = none) : Releasing project held [] (.ok (), held)
  | recorded {session : Session} (recorded : held.session? project = some session)
      (answer : Except Fault Bool) :
      Releasing project held
        [Query.answered (.execute session (.unlock project)) answer,
          Query.answered (.giveBack session) ()]
        ((answer.mapError failure).map fun _ => (), held.without project)

theorem releasing_of_ends (ends : Ends ((release project).run held) said result) :
    Releasing project held said result := by
  simp only [release, StateT.run_bind, StateT.run_get, pure_eq, done_bind] at ends
  cases found : held.session? project with
  | none =>
      simp only [found] at ends
      cases ends
      exact .free found
  | some session =>
      simp only [found] at ends
      obtain ⟨answer, _, rfl, unlocked⟩ := ends_ask_iff.mp ends
      obtain ⟨_, _, rfl, given⟩ := ends_ask_iff.mp unlocked
      cases given
      exact .recorded found answer

/-! ## Tables of locks -/

/-- How often each session has taken a lock and not given it back. -/
abbrev Table (κ : Type) := Session → κ → Nat

/-- Tables that are the same for the sessions of a pool. -/
def Table.Agrees {κ : Type} (pool : Set Session) (table other : Table κ) : Prop :=
  ∀ session ∈ pool, table session = other session

theorem Table.Agrees.eq {κ : Type} {table other : Table κ} (agrees : table.Agrees Set.univ other) :
    table = other :=
  funext fun session => agrees session trivial

variable {κ : Type} [DecidableEq κ] {key : String → κ} {pool : Set Session} {lock : κ}
variable {table start last : Table κ}

/-- The table after a session took a lock. -/
def Table.take (table : Table κ) (session : Session) (lock : κ) : Table κ :=
  fun other taken => table other taken + if session = other ∧ lock = taken then 1 else 0

/-- The table after a session gave a lock back. -/
def Table.drop (table : Table κ) (session : Session) (lock : κ) : Table κ :=
  fun other taken => table other taken - if session = other ∧ lock = taken then 1 else 0

/--
A database that counts the locks of each session, with a pool of its sessions. A lock is
granted exactly if no other session has it, and it stays with its session, also in the
pool. Any statement may be refused, which changes nothing. What becomes of the sessions
outside of the pool is left open.
-/
def counting (key : String → κ) (pool : Set Session) : Surroundings protocol (Table κ)
  | table, .acquire, (answer : Except Fault Session), after =>
      (∀ session, answer = .ok session → session ∈ pool) ∧ after.Agrees pool table
  | table, .execute session (.tryLock project), (answer : Except Fault Bool), after =>
      match answer with
      | .ok true =>
          (∀ other, other ≠ session → table other (key project) = 0) ∧
            after.Agrees pool (table.take session (key project))
      | .ok false =>
          (∃ other, other ≠ session ∧ 0 < table other (key project)) ∧ after.Agrees pool table
      | .error fault => (∃ message, fault = .refused message) ∧ after.Agrees pool table
  | table, .execute session (.unlock project), (answer : Except Fault Bool), after =>
      match answer with
      | .ok had =>
          (had = true ↔ 0 < table session (key project)) ∧
            after.Agrees pool (table.drop session (key project))
      | .error fault => (∃ message, fault = .refused message) ∧ after.Agrees pool table
  | table, _, _, after => after.Agrees pool table

/-- Whether an exchange is the refusal to unlock a lock in a session. -/
def refusesUnlock (key : String → κ) (session : Session) (lock : κ) : Exchange protocol → Bool
  | ⟨.execute other (.unlock project), (answer : Except Fault Bool)⟩ =>
      decide (other = session ∧ key project = lock) && !answer.toBool
  | _ => false

/-- How often a lock is recorded as held in a session, under whatever name. -/
def recordings (key : String → κ) (held : Held) (session : Session) (lock : κ) : Nat :=
  held.countP fun entry => entry.2 = session ∧ key entry.1 = lock

/-- How often it was refused to unlock a lock in a session. -/
def refusals (key : String → κ) (past : List (Exchange protocol)) (session : Session)
    (lock : κ) : Nat :=
  past.countP (refusesUnlock key session lock)

theorem refusals_append {later : List (Exchange protocol)} :
    refusals key (past ++ later) session lock =
      refusals key past session lock + refusals key later session lock :=
  List.countP_append

theorem recordings_cons {owner : Session} :
    recordings key ((project, owner) :: held) session lock =
      recordings key held session lock + if owner = session ∧ key project = lock then 1 else 0 := by
  simp [recordings, List.countP_cons]

/-- Names that are recorded once each. -/
def Held.Once (held : Held) : Prop :=
  held.Pairwise fun first second => first.1 ≠ second.1

theorem Held.session?_eq_none_iff :
    held.session? project = none ↔ ∀ entry ∈ held, entry.1 ≠ project := by
  simp [Held.session?]

theorem Held.mem_of_session? (found : held.session? project = some session) :
    (project, session) ∈ held := by
  obtain ⟨entry, first, rfl⟩ := Option.map_eq_some_iff.mp found
  have same : entry.1 = project := by simpa using List.find?_some first
  rw [← same]
  exact List.mem_of_find?_eq_some first

theorem Held.Once.without (once : held.Once) : (held.without project).Once :=
  List.Pairwise.filter _ once

/-- A lock that is no longer recorded counts for its session only. -/
theorem recordings_without {owner : Session} (once : held.Once)
    (found : held.session? project = some owner) :
    recordings key held session lock =
      recordings key (held.without project) session lock +
        if owner = session ∧ key project = lock then 1 else 0 := by
  induction held with
  | nil => cases found
  | cons entry rest ih =>
      obtain ⟨name, other⟩ := entry
      obtain ⟨others, once⟩ := List.pairwise_cons.mp once
      by_cases same : name = project
      · subst same
        rw [session?_cons] at found
        cases found
        have gone : Held.without ((name, owner) :: rest) name = rest := by
          have kept : rest.filter (·.1 != name) = rest := by
            refine List.filter_eq_self.mpr fun entry member => ?_
            simpa using (others entry member).symm
          simpa [Held.without] using kept
        rw [gone, recordings_cons]
      · have later : Held.session? rest project = some owner := by
          simpa [Held.session?, same] using found
        have stays : Held.without ((name, other) :: rest) project =
            (name, other) :: Held.without rest project := by
          simp [Held.without, same]
        rw [stays, recordings_cons, recordings_cons, ih once later]
        omega

/-! ## The balance -/

/--
What holds of the recorded locks, what was said so far and the table: the sessions of the
pool have just the locks that are recorded and those that it was refused to unlock.
-/
structure Balanced (key : String → κ) (pool : Set Session) (held : Held)
    (past : List (Exchange protocol)) (table : Table κ) : Prop where
  once : held.Once
  own : ∀ entry ∈ held, entry.2 ∈ pool
  refused : ∀ exchange ∈ past, ∀ session lock,
    refusesUnlock key session lock exchange = true → session ∈ pool
  balance : ∀ session ∈ pool, ∀ lock,
    table session lock = recordings key held session lock + refusals key past session lock

namespace Balanced

theorem agrees {other : Table κ} (balanced : Balanced key pool held past table)
    (agrees : other.Agrees pool table) : Balanced key pool held past other :=
  { balanced with
    balance := fun session own lock =>
      (congrFun (agrees session own) lock).trans (balanced.balance session own lock) }

/-- Exchanges that refuse no unlocking change nothing. -/
theorem neutral (balanced : Balanced key pool held past table)
    (other : ∀ exchange ∈ said, ∀ session lock, refusesUnlock key session lock exchange = false) :
    Balanced key pool held (past ++ said) table where
  once := balanced.once
  own := balanced.own
  refused := by
    intro later member session lock refuses
    rcases List.mem_append.mp member with early | late
    · exact balanced.refused later early session lock refuses
    · rw [other later late] at refuses
      cases refuses
  balance := by
    intro session own lock
    have none : refusals key said session lock = 0 :=
      List.countP_eq_zero.mpr fun exchange member => by simp [other exchange member]
    rw [balanced.balance session own lock, refusals_append, none, Nat.add_zero]

/-- A lock that is granted and recorded. -/
theorem granted (balanced : Balanced key pool held past table) (own : session ∈ pool)
    (free : held.session? project = none) :
    Balanced key pool ((project, session) :: held) past (table.take session (key project)) where
  once := List.pairwise_cons.mpr ⟨fun entry member =>
    (Held.session?_eq_none_iff.mp free entry member).symm, balanced.once⟩
  own := List.forall_mem_cons.mpr ⟨own, balanced.own⟩
  refused := balanced.refused
  balance := by
    intro other theirs lock
    rw [Table.take, balanced.balance other theirs lock, recordings_cons]
    omega

/-- A lock that is unlocked and no longer recorded. -/
theorem unlocked (balanced : Balanced key pool held past table)
    (found : held.session? project = some session) :
    Balanced key pool (held.without project) past (table.drop session (key project)) where
  once := balanced.once.without
  own := fun entry member => balanced.own entry (List.mem_filter.mp member).1
  refused := balanced.refused
  balance := by
    intro other theirs lock
    have before : recordings key held other lock = _ := recordings_without balanced.once found
    rw [Table.drop, balanced.balance other theirs lock, before]
    omega

/-- A lock that is no longer recorded, but was not unlocked. -/
theorem left (balanced : Balanced key pool held past table)
    (found : held.session? project = some session) (fault : Fault) :
    Balanced key pool (held.without project)
      (past ++ [Query.answered (.execute session (.unlock project)) (Except.error fault)])
      table where
  once := balanced.once.without
  own := fun entry member => balanced.own entry (List.mem_filter.mp member).1
  refused := by
    intro exchange member other lock refuses
    rcases List.mem_append.mp member with early | late
    · exact balanced.refused exchange early other lock refuses
    · rw [List.mem_singleton.mp late] at refuses
      obtain ⟨rfl, -⟩ : session = other ∧ key project = lock := by
        simpa [refusesUnlock, Query.answered, Except.toBool] using refuses
      exact balanced.own _ (Held.mem_of_session? found)
  balance := by
    intro other theirs lock
    have before : recordings key held other lock = _ := recordings_without balanced.once found
    rw [balanced.balance other theirs lock, before, refusals_append]
    by_cases own : session = other ∧ key project = lock
    · simp [refusals, refusesUnlock, Query.answered, own, Except.toBool]
      omega
    · simp [refusals, refusesUnlock, Query.answered, own]

/-- Taking a lock keeps the balance, whatever comes of it. -/
theorem reserve (balanced : Balanced key pool held past table)
    (reserving : Reserving project held said result)
    (passage : Passage (counting key pool) table said last) :
    Balanced key pool result.2 (past ++ said) last := by
  cases reserving with
  | recorded _ =>
      cases passage
      simpa using balanced
  | noSession free fault =>
      obtain ⟨_, acquired, rest⟩ := passage_cons_iff.mp passage
      cases rest
      exact (balanced.agrees acquired.2).neutral (by simp [Query.answered, refusesUnlock])
  | granted free session =>
      obtain ⟨_, acquired, rest⟩ := passage_cons_iff.mp passage
      obtain ⟨_, tried, rest⟩ := passage_cons_iff.mp rest
      cases rest
      have taken := (balanced.agrees acquired.2).granted (acquired.1 session rfl) free
      exact (taken.agrees tried.2).neutral (by simp [Query.answered, refusesUnlock])
  | kept free session =>
      obtain ⟨_, acquired, rest⟩ := passage_cons_iff.mp passage
      obtain ⟨_, tried, rest⟩ := passage_cons_iff.mp rest
      obtain ⟨_, given, rest⟩ := passage_cons_iff.mp rest
      cases rest
      have now := ((balanced.agrees acquired.2).agrees tried.2).agrees given
      exact now.neutral (by simp [Query.answered, refusesUnlock])
  | refused free session fault =>
      obtain ⟨_, acquired, rest⟩ := passage_cons_iff.mp passage
      obtain ⟨_, tried, rest⟩ := passage_cons_iff.mp rest
      obtain ⟨_, given, rest⟩ := passage_cons_iff.mp rest
      cases rest
      have now := ((balanced.agrees acquired.2).agrees tried.2).agrees given
      exact now.neutral (by simp [Query.answered, refusesUnlock])

/-- Giving a lock back keeps the balance, whatever comes of it. -/
theorem release (balanced : Balanced key pool held past table)
    (releasing : Releasing project held said result)
    (passage : Passage (counting key pool) table said last) :
    Balanced key pool result.2 (past ++ said) last := by
  cases releasing with
  | free _ =>
      cases passage
      simpa using balanced
  | recorded found answer =>
      obtain ⟨_, asked, rest⟩ := passage_cons_iff.mp passage
      obtain ⟨_, given, rest⟩ := passage_cons_iff.mp rest
      cases rest
      rw [List.append_cons]
      refine neutral (agrees ?_ given) (by simp [Query.answered, refusesUnlock])
      cases answer with
      | ok had =>
          exact ((balanced.unlocked found).agrees asked.2).neutral
            (by simp [refusesUnlock, Query.answered, Except.toBool])
      | error fault =>
          exact (balanced.left found fault).agrees asked.2

end Balanced

/-! ## Many calls -/

/-- A call of the lock. -/
inductive Call where
  | reserve (project : String)
  | release (project : String)
  deriving DecidableEq, Repr

/-- What a call does. -/
def Call.work : Call → Locking (Except Failure Unit)
  | .reserve project => Lock.reserve project
  | .release project => Lock.release project

/-- Calls one after the other, whatever they come to. -/
def inTurn : List Call → Locking Unit
  | [] => return ()
  | call :: rest => do
      let _ ← call.work
      inTurn rest

/-- Nothing is recorded, and no session of the pool has a lock. -/
theorem balanced_start (unlocked : ∀ session ∈ pool, ∀ lock, start session lock = 0) :
    Balanced key pool [] [] start where
  once := .nil
  own := nofun
  refused := nofun
  balance := unlocked

/-- Any calls keep the balance, whatever they come to. -/
theorem Balanced.inTurn {calls : List Call} (balanced : Balanced key pool held past table)
    (ends : Ends ((inTurn calls).run held) said ((), after))
    (passage : Passage (counting key pool) table said last) :
    Balanced key pool after (past ++ said) last := by
  induction calls generalizing held past said table with
  | nil =>
      cases ends
      cases passage
      simpa using balanced
  | cons call rest ih =>
      rw [Lock.inTurn, StateT.run_bind] at ends
      obtain ⟨front, ⟨outcome, between⟩, back, rfl, called, later⟩ := ends_bind_iff.mp ends
      obtain ⟨middle, early, late⟩ := passage_append_iff.mp passage
      have now : Balanced key pool between (past ++ front) middle := by
        cases call with
        | reserve project => exact balanced.reserve (reserving_of_ends called) early
        | release project => exact balanced.release (releasing_of_ends called) early
      rw [← List.append_assoc]
      exact ih now later late

/-! ## Locks that can be taken -/

/--
Whoever has not recorded the lock, gets the session and is answered there takes the lock.
-/
def Takeable (key : String → κ) (table : Table κ) (project : String) (session : Session) : Prop :=
  ∀ held granted rest outcome after last, held.session? project = none →
    Ends ((reserve project).run held)
      (Query.answered .acquire (Except.ok session) ::
        Query.answered (.execute session (.tryLock project)) (Except.ok granted) :: rest)
      (outcome, after) →
    Passage (counting key Set.univ) table
      (Query.answered .acquire (Except.ok session) ::
        Query.answered (.execute session (.tryLock project)) (Except.ok granted) :: rest) last →
      outcome = .ok ()

/-- A lock can be taken in a session exactly if no other session has it. -/
theorem takeable_iff :
    Takeable key table project session ↔
      ∀ other, other ≠ session → table other (key project) = 0 := by
  constructor
  · intro takeable other different
    by_contra has
    have passage : Passage (counting key Set.univ) table
        [Query.answered .acquire (Except.ok session),
          Query.answered (.execute session (.tryLock project)) (Except.ok false),
          Query.answered (.giveBack session) ()] table :=
      .cons ⟨fun _ _ => trivial, fun _ _ => rfl⟩
        (.cons ⟨⟨other, different, Nat.pos_of_ne_zero has⟩, fun _ _ => rfl⟩
          (.cons (fun _ _ => rfl) (.nil _)))
    cases takeable [] false _ _ _ _ rfl (.ask (.ask (.ask (.done _)))) passage
  · intro free held granted rest outcome after last unrecorded ends passage
    simp only [reserve, StateT.run_bind, StateT.run_get, pure_eq, done_bind, unrecorded] at ends
    cases ends with
    | ask acquired =>
        cases acquired with
        | ask tried =>
            cases granted with
            | true =>
                cases tried
                rfl
            | false =>
                obtain ⟨_, acquired, later⟩ := passage_cons_iff.mp passage
                obtain ⟨_, ⟨⟨other, different, has⟩, _⟩, _⟩ := passage_cons_iff.mp later
                rw [acquired.2.eq, free other different] at has
                exact (Nat.lt_irrefl 0 has).elim

/-! ## Locks that were given back -/

/-- A lock that is recorded under no name, and that it was never refused to unlock. -/
structure Returned (key : String → κ) (past : List (Exchange protocol)) (held : Held) (lock : κ) :
    Prop where
  unrecorded : ∀ other, key other = lock → held.session? other = none
  answered : ∀ exchange ∈ past, ∀ session, refusesUnlock key session lock exchange = false

/-- No session of the pool has a lock exactly if it was given back. -/
theorem Balanced.free_iff (balanced : Balanced key pool held past table) :
    (∀ session ∈ pool, table session lock = 0) ↔ Returned key past held lock := by
  constructor
  · intro free
    constructor
    · intro other same
      by_contra recorded
      obtain ⟨session, found⟩ := Option.ne_none_iff_exists'.mp recorded
      have member := Held.mem_of_session? found
      have own := balanced.own _ member
      have none : recordings key held session lock = 0 := by
        have sum := balanced.balance session own lock
        rw [free session own] at sum
        omega
      exact List.countP_eq_zero.mp none _ member (by simp [same])
    · intro exchange member session
      by_contra refuses
      rw [Bool.not_eq_false] at refuses
      have own := balanced.refused exchange member session lock refuses
      have none : refusals key past session lock = 0 := by
        have sum := balanced.balance session own lock
        rw [free session own] at sum
        omega
      exact List.countP_eq_zero.mp none _ member refuses
  · intro returned session own
    have unrecorded : recordings key held session lock = 0 := by
      refine List.countP_eq_zero.mpr fun entry member counts => ?_
      have same : key entry.1 = lock := (of_decide_eq_true counts).2
      exact Held.session?_eq_none_iff.mp (returned.unrecorded entry.1 same) entry member rfl
    have answered : refusals key past session lock = 0 := by
      refine List.countP_eq_zero.mpr fun exchange member refuses => ?_
      rw [returned.answered exchange member session] at refuses
      cases refuses
    rw [balanced.balance session own lock, unrecorded, answered]

/--
After any calls, and whatever they and the release of a lock come to, the lock is not
recorded. Sessions of the pool have it exactly if it is recorded under another name or it
was refused to unlock it; and if nobody outside of the pool has it, it can be taken in
every session exactly if that is not so.
-/
theorem release_leaves_nothing_iff_returned {calls : List Call} {between : Held}
    {outcome : Except Failure Unit}
    (unlocked : ∀ session ∈ pool, ∀ lock, start session lock = 0)
    (called : Ends ((inTurn calls).run []) past ((), between))
    (released : Ends ((release project).run between) said (outcome, held))
    (passage : Passage (counting key pool) start (past ++ said) last) :
    held.session? project = none ∧
      ((∀ session ∈ pool, last session (key project) = 0) ↔
        Returned key (past ++ said) held (key project)) ∧
      ((∀ session, session ∉ pool → last session (key project) = 0) →
        ((∀ session, Takeable key last project session) ↔
          Returned key (past ++ said) held (key project))) := by
  obtain ⟨middle, early, late⟩ := passage_append_iff.mp passage
  have before : Balanced key pool between past middle := by
    simpa using (balanced_start unlocked).inTurn called early
  have balanced : Balanced key pool held (past ++ said) last :=
    before.release (releasing_of_ends released) late
  refine ⟨?_, balanced.free_iff, fun others => ?_⟩
  · generalize reached : (outcome, held) = result at released
    have unrecorded : result.2.session? project = none := by
      cases releasing_of_ends released with
      | free free => exact free
      | recorded _ _ => exact session?_without
    rwa [← reached] at unrecorded
  rw [← balanced.free_iff]
  constructor
  · intro takeable session _
    exact takeable_iff.mp (takeable (session + 1)) session (Nat.succ_ne_self session).symm
  · intro free session
    refine takeable_iff.mpr fun other _ => ?_
    by_cases own : other ∈ pool
    · exact free other own
    · exact others other own

/-! ## An unlocking that is refused -/

/-- No session has a lock. -/
def noLocks : Table String := fun _ _ => 0

/-- A project takes its lock. -/
def townTaking : List (Exchange protocol) :=
  [Query.answered .acquire (Except.ok 0),
    Query.answered (.execute 0 (.tryLock "town")) (Except.ok true)]

/-- The lock is unlocked. -/
def townUnlocking : List (Exchange protocol) :=
  [Query.answered (.execute 0 (.unlock "town")) (Except.ok true),
    Query.answered (.giveBack 0) ()]

/-- It is refused to unlock the lock, and the session goes back into the pool with it. -/
def townRefusal : List (Exchange protocol) :=
  [Query.answered (.execute 0 (.unlock "town")) (Except.error (.refused "out of memory")),
    Query.answered (.giveBack 0) ()]

theorem ends_townTaking : Ends ((inTurn [.reserve "town"]).run []) townTaking ((), [("town", 0)]) :=
  .ask (.ask (.done _))

theorem ends_townUnlocking :
    Ends ((release "town").run [("town", 0)]) townUnlocking (.ok (), []) :=
  .ask (.ask (.done _))

theorem ends_townRefusal :
    Ends ((release "town").run [("town", 0)]) townRefusal
      (.error (.lock "error returned from database: out of memory"), []) :=
  .ask (.ask (.done _))

theorem passage_townTaking {later : List (Exchange protocol)} {last : Table String}
    (rest : Passage (counting id Set.univ) (noLocks.take 0 "town") later last) :
    Passage (counting id Set.univ) noLocks (townTaking ++ later) last :=
  .cons ⟨fun _ _ => trivial, fun _ _ => rfl⟩ (.cons ⟨fun _ _ => rfl, fun _ _ => rfl⟩ rest)

theorem passage_townRefusal :
    Passage (counting id Set.univ) (noLocks.take 0 "town") townRefusal (noLocks.take 0 "town") :=
  .cons ⟨⟨_, rfl⟩, fun _ _ => rfl⟩ (.cons (fun _ _ => rfl) (.nil _))

theorem passage_townUnlocking :
    Passage (counting id Set.univ) (noLocks.take 0 "town") townUnlocking
      ((noLocks.take 0 "town").drop 0 "town") :=
  .cons ⟨⟨fun _ => Nat.one_pos, fun _ => rfl⟩, fun _ _ => rfl⟩ (.cons (fun _ _ => rfl) (.nil _))

/--
The release fails, the lock is not recorded any more, and the session that has it lies in
the pool; so the lock cannot be taken in another session.
-/
theorem townRefusal_leaves_lock :
    Ends ((inTurn [.reserve "town"]).run []) townTaking ((), [("town", 0)]) ∧
      Ends ((release "town").run [("town", 0)]) townRefusal
        (.error (.lock "error returned from database: out of memory"), []) ∧
      Passage (counting id Set.univ) noLocks (townTaking ++ townRefusal) (noLocks.take 0 "town") ∧
      ¬ ((Held.session? [] "town").isSome ∨ ∀ session, noLocks.take 0 "town" session "town" = 0) ∧
      ¬ Takeable id (noLocks.take 0 "town") "town" 1 := by
  refine ⟨ends_townTaking, ends_townRefusal, passage_townTaking passage_townRefusal, ?_, ?_⟩
  · rintro (recorded | free)
    · cases recorded
    · cases free 0
  · intro takeable
    cases takeable_iff.mp takeable 0 Nat.zero_ne_one

/-- A lock that was unlocked can be taken in every session; one that was left behind cannot. -/
theorem townUnlocking_leaves_nothing :
    (∀ session, Takeable id ((noLocks.take 0 "town").drop 0 "town") "town" session) ∧
      ¬ ∀ session, Takeable id (noLocks.take 0 "town") "town" session := by
  have unlocked := release_leaves_nothing_iff_returned (fun _ _ _ => rfl) ends_townTaking
    ends_townUnlocking (passage_townTaking passage_townUnlocking)
  have refused := release_leaves_nothing_iff_returned (fun _ _ _ => rfl) ends_townTaking
    ends_townRefusal (passage_townTaking passage_townRefusal)
  refine ⟨(unlocked.2.2 fun session outside => (outside trivial).elim).mpr ?_, fun takeable => ?_⟩
  · refine ⟨fun _ _ => rfl, ?_⟩
    simp [townTaking, townUnlocking, refusesUnlock, Query.answered, Except.toBool]
  · have returned := (refused.2.2 fun session outside => (outside trivial).elim).mp takeable
    cases returned.answered _ (List.mem_append_right _ List.mem_cons_self) 0

end Lock

end MapReplica
