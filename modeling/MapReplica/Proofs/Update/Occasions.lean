import MapReplica.Proofs.Dialogue.Work
import MapReplica.Update.Run

/-!
# Drives with any cycles

A drive runs cycles, and what each of them does may depend on the occasion: on how many
are left when it is run. What is put together from the cycle of `appendNext` on every
occasion is the drive itself.
-/

namespace MapReplica.Update

/-- One of the ways to bring a project forward. -/
inductive Drive where
  | append (feed : String)
  | step (feed : String)
  | forever (feed : String) (horizon : Nat)
  deriving DecidableEq, Repr

/-- The feed of a drive. -/
def Drive.feed : Drive → String
  | append feed => feed
  | step feed => feed
  | forever feed _ => feed

variable (setup : Setup)

/-- The work of a drive; what it ends with is only whether it failed. -/
def Drive.work : Drive → Activity Manager Unit
  | append feed => Update.append setup feed
  | step feed => do
      let _ ← Update.step setup feed
      return ()
  | forever feed horizon => do
      let _ ← Update.forever setup feed horizon
      return ()

/-- Drives with one manager, one after the other; a drive that failed does not end the session. -/
def session : List Drive → Activity Manager Unit
  | [] => return ()
  | drive :: rest => do
      let _ ← (drive.work setup).attempt
      session rest

/-! ## Occasions -/

section Occasions

variable (next : Nat → Activity Manager Unit) (feed : String)

/-- Cycles until there is nothing to do, each as on its occasion. -/
def appendUpToBy : Nat → Activity Manager Unit
  | 0 => return ()
  | cycles + 1 => do
      if (← get).progress.isFinished then return ()
      next cycles
      appendUpToBy cycles

/-- All cycles between project and feed, each as on its occasion. -/
def appendAllBy : Activity Manager Unit := do
  loadBoth feed
  let progress := (← get).progress
  appendUpToBy next (progress.remote - progress.current).toNat

/-- A step without the lock, whose cycle is as on the last occasion but some. -/
def stepOnceBy (left : Nat) : Activity Manager Outcome := do
  if (← get).progress.hasReachedLimit then return .limitReached
  loadBoth feed
  if (← get).progress.isUpToDate then return .upToDate
  next left
  return .appended

/-- Rounds of steps, each as on its occasion. -/
def roundsBy : Nat → Activity Manager Rounds
  | 0 => return .running
  | rest + 1 => do
      if ← Task.isCancelled then return .ended
      match ← (locked (stepOnceBy next feed rest)).attempt with
      | .ok .appended => roundsBy rest
      | .ok .limitReached => return .ended
      | .ok .upToDate => do
          Task.wait
          roundsBy rest
      | .error _ => do
          Task.wait
          roundsBy rest

/-- Rounds and their end. -/
def foreverBy (horizon : Nat) : Activity Manager Rounds := do
  match ← roundsBy next feed horizon with
  | .running => return .running
  | .ended =>
      stop setup
      return .ended

/-- The work of a drive, whose cycles are as on their occasions. -/
def Drive.workBy : Drive → Activity Manager Unit
  | append feed => locked (appendAllBy next feed)
  | step feed => do
      let _ ← locked (stepOnceBy next feed 0)
      return ()
  | forever feed horizon => do
      let _ ← foreverBy setup next feed horizon
      return ()

end Occasions

/-- Activities of one manager, one after the other, whether they fail or not. -/
def inTurn : List (Activity Manager Unit) → Activity Manager Unit
  | [] => return ()
  | work :: rest => do
      let _ ← work.attempt
      inTurn rest

/-! ## The same cycle on all occasions -/

variable {setup} {feed : String}

theorem appendUpToBy_same {cycles : Nat} :
    appendUpToBy (fun _ => appendNext setup feed) cycles = appendUpTo setup feed cycles := by
  induction cycles with
  | zero => rfl
  | succ cycles ih => simp only [appendUpToBy, appendUpTo, ih]

theorem stepOnceBy_same {left : Nat} :
    stepOnceBy (fun _ => appendNext setup feed) feed left = stepOnce setup feed := rfl

theorem roundsBy_same {horizon : Nat} :
    roundsBy (fun _ => appendNext setup feed) feed horizon = rounds setup feed horizon := by
  induction horizon with
  | zero => rfl
  | succ rest ih =>
      rw [roundsBy, ih]
      rfl

theorem foreverBy_same {horizon : Nat} :
    foreverBy setup (fun _ => appendNext setup feed) feed horizon =
      forever setup feed horizon := by
  rw [foreverBy, roundsBy_same]
  rfl

/-- A drive runs the cycle of `appendNext` on every occasion. -/
theorem workBy_same (drive : Drive) :
    drive.workBy setup (fun _ => appendNext setup drive.feed) = drive.work setup := by
  cases drive with
  | append feed =>
      simp only [Drive.workBy, Drive.work, Drive.feed, append, appendAllBy, appendAll,
        appendUpToBy_same]
  | step feed => simp only [Drive.workBy, Drive.work, Drive.feed, step, stepOnceBy_same]
  | forever feed horizon =>
      simp only [Drive.workBy, Drive.work, Drive.feed, foreverBy_same]

theorem inTurn_work (drives : List Drive) :
    inTurn (drives.map fun drive => drive.work setup) = session setup drives := by
  induction drives with
  | nil => rfl
  | cons drive rest ih => simp only [List.map_cons, inTurn, session, ih]

end MapReplica.Update
