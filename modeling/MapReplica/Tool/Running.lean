/-!
# Running tools

Every program runs in a process group of its own, which is on record from its start to
its end, so that everything a failed cycle has started can be ended.
-/

namespace MapReplica.Tool

/-- The process groups of the programs that run. -/
structure Running where
  groups : List Nat := []
  deriving DecidableEq, Repr

namespace Running

/-- How many programs run. -/
def count (running : Running) : Nat :=
  running.groups.length

/-- Puts a started program on record. -/
def start (running : Running) (group : Nat) : Running :=
  ⟨running.groups.insert group⟩

/-- Strikes a program that has ended off the record. -/
def finish (running : Running) (group : Nat) : Running :=
  ⟨running.groups.erase group⟩

/-- The groups to be killed in order to end all programs, and the record after that. -/
def terminateAll (running : Running) : List Nat × Running :=
  (running.groups, {})

end Running

end MapReplica.Tool
