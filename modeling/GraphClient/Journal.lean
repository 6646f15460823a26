import GraphClient.Failure.Basic

/-!
# What a computation leaves behind

A `Journal` holds the trace and the log records of a computation in order, and how often each
stepped value has been computed. A `Recording` writes to the journal and may end with something
that is raised; what was written before that stays.
-/

namespace GraphClient

/-- A log record: its level, its logger and its message. -/
structure LogEntry where
  level : Int
  logger : String
  message : String
deriving DecidableEq, Inhabited

/-- The trace, the log records, and the counts of stepped values. -/
structure Journal where
  trace : List String
  logs : List LogEntry
  counts : List (Nat × Nat)
deriving Inhabited

namespace Journal

def empty : Journal := ⟨[], [], []⟩

def addTrace (line : String) (j : Journal) : Journal := { j with trace := j.trace ++ [line] }

def addLog (entry : LogEntry) (j : Journal) : Journal := { j with logs := j.logs ++ [entry] }

/-- How often the stepped value of a slot has been computed. -/
def count (slot : Nat) (j : Journal) : Nat := (Pairs.get? slot j.counts).getD 0

/-- Counts one more computation of a slot and traces its number. -/
def countUp (slot : Nat) (j : Journal) : Journal :=
  let n := j.count slot + 1
  { j with counts := Pairs.set slot n j.counts }.addTrace ("counter:" ++ toString n)

end Journal

/-- A computation that writes to a journal and may fail. -/
abbrev Recording := ExceptT Thrown (StateM Journal)

namespace Recording

def trace (line : String) : Recording Unit := modify (Journal.addTrace line)

def log (entry : LogEntry) : Recording Unit := modify (Journal.addLog entry)

/-- Counts one more computation of a slot and gives the number of those before. -/
def countUp (slot : Nat) : Recording Nat := do
  let before := (← get).count slot
  modify (Journal.countUp slot)
  return before

/-- What is done inside of a generator. -/
def inGenerator {α : Type} (r : Recording α) : Recording α :=
  r.adapt fun t => .failure (t.leaving .generator)

theorem run_inGenerator {α : Type} (r : Recording α) (j : Journal) :
    r.inGenerator.run.run j =
      ((r.run.run j).1.mapError fun t => .failure (t.leaving .generator), (r.run.run j).2) := rfl

def ofExcept {α : Type} : Except Failure α → Recording α
  | .ok a => pure a
  | .error e => throw (.failure e)

end Recording

end GraphClient
