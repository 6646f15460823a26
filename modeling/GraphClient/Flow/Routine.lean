import GraphClient.Failure.Basic

/-!
# Routines

A `Routine` is a computation that can be suspended: between its effects it may sleep, race a part
of itself against a time limit, or wait for the lock. It ends with an outcome. What the effects
are is left to an `Effects` signature.

* `Routine.andThen` continues a routine with what it ended with; `andThen_assoc` and
  `andThen_done` are its laws.
* Every wait ends with the awaited event or with a cancellation, and the routine says how it goes
  on in either case.

A routine is a coroutine: it ends with a value or a failure, never with the signal that an iteration
has ended (`Thrown`).
-/

namespace GraphClient

/-- A signature of effects: the operations, and what each of them answers. -/
structure Effects where
  Op : Type
  Reply : Op → Type

/-- How a wait ends. -/
inductive Wake where
  | resumed
  | cancelled
deriving DecidableEq, Inhabited

/-- How a race against a time limit ends: the part ended first, the limit passed and the part was
cancelled and ended, or the race itself was cancelled. -/
inductive RaceEnd where
  | settled (outcome : Outcome)
  | expired
  | cancelled

/-- A computation that can be suspended. -/
inductive Routine (E : Effects) where
  | done (outcome : Outcome)
  | perform (op : E.Op) (k : E.Reply op → Routine E)
  /-- Reads the clock. -/
  | clock (k : Rat → Routine E)
  /-- Waits for some time; without any, lets the other tasks run once. -/
  | sleep (duration : Rat) (k : Wake → Routine E)
  /-- Runs a part as a task of its own until it ends or the limit passes, if there is one. -/
  | race (part : Routine E) (limit? : Option Rat) (k : RaceEnd → Routine E)
  /-- Waits until the lock is free and takes it. -/
  | acquire (k : Wake → Routine E)
  /-- Gives the lock back. -/
  | release (next : Routine E)

namespace Routine

variable {E : Effects}

instance : Inhabited (Routine E) := ⟨done (.ok .null)⟩

/-- Continues a routine with what it ended with. -/
def andThen : Routine E → (Outcome → Routine E) → Routine E
  | done outcome, f => f outcome
  | perform op k, f => perform op fun reply => (k reply).andThen f
  | clock k, f => clock fun now => (k now).andThen f
  | sleep d k, f => sleep d fun wake => (k wake).andThen f
  | race part limit? k, f => race part limit? fun finish => (k finish).andThen f
  | acquire k, f => acquire fun wake => (k wake).andThen f
  | release next, f => release (next.andThen f)

/-- Continues a routine with its value; a failure ends it. -/
def onValue (r : Routine E) (f : Value → Routine E) : Routine E :=
  r.andThen fun
    | .ok v => f v
    | .error e => done (.error e)

/-- Ends with a value. -/
def ret (v : Value) : Routine E := done (.ok v)

/-- Ends with a failure. -/
def fail (e : Failure) : Routine E := done (.error e)

/-- Waits and goes on, unless cancelled. -/
def sleepThen (d : Rat) (r : Routine E) : Routine E :=
  sleep d fun
    | .resumed => r
    | .cancelled => fail .cancelled

/-- Runs a routine while holding the lock, which is given back however the routine ends. -/
def withLock (r : Routine E) : Routine E :=
  acquire fun
    | .cancelled => fail .cancelled
    | .resumed => r.andThen fun outcome => release (done outcome)

theorem andThen_done (r : Routine E) : r.andThen done = r := by
  induction r with
  | done outcome => rfl
  | perform op k ih => simp only [andThen, ih]
  | clock k ih => simp only [andThen, ih]
  | sleep d k ih => simp only [andThen, ih]
  | race part limit? k _ ih => simp only [andThen, ih]
  | acquire k ih => simp only [andThen, ih]
  | release next ih => simp only [andThen, ih]

theorem andThen_assoc (r : Routine E) (f g : Outcome → Routine E) :
    (r.andThen f).andThen g = r.andThen fun outcome => (f outcome).andThen g := by
  induction r with
  | done outcome => rfl
  | perform op k ih => simp only [andThen, ih]
  | clock k ih => simp only [andThen, ih]
  | sleep d k ih => simp only [andThen, ih]
  | race part limit? k _ ih => simp only [andThen, ih]
  | acquire k ih => simp only [andThen, ih]
  | release next ih => simp only [andThen, ih]

end Routine

end GraphClient
