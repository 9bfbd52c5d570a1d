import MapReplica.Update.Cycle

/-!
# Running cycles

Three ways to bring a project forward: a batch until it has reached its feed or its
limit, a single step, and rounds of single steps until the work is asked to end. A
batch and a step take the lock of the project and give it back whatever happens.
-/

namespace MapReplica.Update

variable (setup : Setup)

/-- Does work while the lock of the project is held. The failure of the work wins over that of the lock. -/
def locked {α : Type} (work : Activity Manager α) : Activity Manager α := do
  let project := (← get).progress.project
  Task.reserve project
  let result ← work.attempt
  let released ← Task.attempt (Task.release project)
  match result, released with
  | .error failure, _ => throw failure
  | .ok _, .error failure => throw failure
  | .ok value, .ok () => return value

/-- Reads how far the project and its feed are. -/
def loadBoth (feed : String) : Activity Manager Unit := do
  onProgress Progress.load
  onProgress (Progress.loadRemote feed)

/-- Runs cycles until there is nothing to do, at most as many as `cycles`. -/
def appendUpTo (feed : String) : Nat → Activity Manager Unit
  | 0 => return ()
  | cycles + 1 => do
      if (← get).progress.isFinished then return ()
      appendNext setup feed
      appendUpTo feed cycles

/-- Runs cycles until there is nothing to do; the numbers between project and feed bound them. -/
def appendAll (feed : String) : Activity Manager Unit := do
  loadBoth feed
  let progress := (← get).progress
  appendUpTo setup feed (progress.remote - progress.current).toNat

/-- Brings a project up to its feed or its limit. -/
def append (feed : String) : Activity Manager Unit :=
  locked (appendAll setup feed)

/-- What a step did. -/
inductive Outcome where
  | appended
  | upToDate
  | limitReached
  deriving DecidableEq, Repr

/-- A step without the lock. -/
def stepOnce (feed : String) : Activity Manager Outcome := do
  if (← get).progress.hasReachedLimit then return .limitReached
  loadBoth feed
  if (← get).progress.isUpToDate then return .upToDate
  appendNext setup feed
  return .appended

/-- Runs at most one cycle. -/
def step (feed : String) : Activity Manager Outcome :=
  locked (stepOnce setup feed)

/-- Ends all tools, and stops the queue if it was started; a queue that cannot be stopped counts as stopped. -/
def stop : Activity Manager Unit := do
  Task.terminateTools
  if (← get).queueStarted then
    if setup.hasQueue then
      let _ ← Task.attempt Task.stopQueue
    modify fun manager => { manager with queueStarted := false }

/-- Whether rounds came to an end. -/
inductive Rounds where
  | ended
  | running
  deriving DecidableEq, Repr

/--
Runs steps until the work is asked to end or the limit is reached, but at most
`rounds` steps. A failed step is repeated after waiting.
-/
def rounds (feed : String) : Nat → Activity Manager Rounds
  | 0 => return .running
  | rest + 1 => do
      if ← Task.isCancelled then return .ended
      match ← (step setup feed).attempt with
      | .ok .appended => rounds feed rest
      | .ok .limitReached => return .ended
      | .ok .upToDate => do
          Task.wait
          rounds feed rest
      | .error _ => do
          Task.wait
          rounds feed rest

/-- Runs steps and stops when they came to an end. -/
def forever (feed : String) (horizon : Nat) : Activity Manager Rounds := do
  match ← rounds setup feed horizon with
  | .running => return .running
  | .ended =>
      stop setup
      return .ended

end MapReplica.Update
