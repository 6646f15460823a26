import GraphClient.Flow.Routine

/-!
# The event loop

Tasks run one at a time, each until it waits or ends. Jobs stand in a queue, first in, first out:
a job wakes a task or tells a racing task that its part has ended. When the queue is empty the
clock jumps to the next timer.

* `Loop.cancel` asks a task to stop: it ends the wait of a task that waits, and is remembered by
  a task whose wait is over already.
* A race whose limit passed cancels its part and waits until the part has ended.
* `Loop.next?` is one step of the loop, `Loop.runUntil` runs it until a condition holds.
-/

namespace GraphClient

/-- What a task waits for, and how it goes on. -/
inductive Wait (E : Effects) where
  | start (routine : Routine E)
  | sleep (k : Wake → Routine E)
  | race (part : Nat) (k : RaceEnd → Routine E)
  /-- The part of a race whose limit passed has to end; the flag says whether a cancellation of
  the task itself was passed on to the part. -/
  | drain (part : Nat) (forwarded : Bool) (k : RaceEnd → Routine E)
  | lock (k : Wake → Routine E)
  | over (outcome : Outcome)

/-- A task. The signal is how its wait ended, if it did and the task has not run since; the task
that races it, if any, is told of its end. -/
structure Task (E : Effects) where
  wait : Wait E
  signal? : Option Wake
  mustCancel : Bool
  scope : Nat
  racer? : Option Nat

/-- A job of the queue. -/
inductive Job where
  | wake (task : Nat)
  | notify (racer part : Nat)
deriving DecidableEq

/-- The end of a sleep or of a time limit. -/
structure Timer where
  due : Rat
  task : Nat

/-- The lock: whether it is taken, and the tasks that wait for it in order. -/
structure Lock where
  held : Bool
  waiters : List Nat

/-- The state of the event loop and of the world that the effects act on. -/
structure Loop (E : Effects) (W : Type) where
  now : Rat
  world : W
  tasks : List (Task E)
  ready : List Job
  timers : List Timer
  lock : Lock

/-- What the effects do: the operation of a task in a scope changes the world and is answered. -/
abbrev Handler (E : Effects) (W : Type) := Nat → (op : E.Op) → W → E.Reply op × W

namespace Task

variable {E : Effects}

/-- What a task ended with. -/
def outcome? (t : Task E) : Option Outcome :=
  match t.wait with
  | .over outcome => some outcome
  | _ => none

def isOver (t : Task E) : Bool := t.outcome?.isSome

/-- Whether a task's wait was ended by a cancellation and the task has not run since. -/
def isStopped (t : Task E) : Bool := t.signal? == some .cancelled

end Task

namespace Loop

variable {E : Effects} {W : Type}

/-- A loop without tasks at time zero. -/
def initial (world : W) : Loop E W := ⟨0, world, [], [], [], ⟨false, []⟩⟩

def outcome? (l : Loop E W) (t : Nat) : Option Outcome := (l.tasks[t]?).bind Task.outcome?

def isOver (l : Loop E W) (t : Nat) : Bool := (l.outcome? t).isSome

def updateTask (l : Loop E W) (t : Nat) (f : Task E → Task E) : Loop E W :=
  { l with tasks := l.tasks.modify t f }

def enqueue (l : Loop E W) (job : Job) : Loop E W := { l with ready := l.ready ++ [job] }

def dropTimer (l : Loop E W) (t : Nat) : Loop E W :=
  { l with timers := l.timers.filter (·.task != t) }

def addTimer (l : Loop E W) (t : Nat) (duration : Rat) : Loop E W :=
  { l with timers := l.timers ++ [⟨l.now + duration, t⟩] }

def setLock (l : Loop E W) (lock : Lock) : Loop E W := { l with lock := lock }

/-- Ends the wait of a task, which is to run again. -/
def resolve (l : Loop E W) (t : Nat) (signal : Wake) : Loop E W :=
  ((l.updateTask t fun task => { task with signal? := some signal }).dropTimer t).enqueue (.wake t)

/-- Adds a task that is to run. -/
def spawn (l : Loop E W) (routine : Routine E) (scope : Nat) (racer? : Option Nat) :
    Loop E W × Nat :=
  let t := l.tasks.length
  let task : Task E := ⟨.start routine, some .resumed, false, scope, racer?⟩
  ({ l with tasks := l.tasks ++ [task], ready := l.ready ++ [.wake t] }, t)

/-- Asks a task to stop. The first argument bounds the number of tasks that pass it on. -/
def cancel : Nat → Nat → Loop E W → Loop E W
  | 0, _, l => l
  | bound + 1, t, l =>
    match l.tasks[t]? with
    | none => l
    | some task =>
      match task.wait, task.signal? with
      | .over _, _ => l
      | _, some _ => l.updateTask t fun task => { task with mustCancel := true }
      | .drain part _ k, none =>
        if l.isOver part then l.updateTask t fun task => { task with mustCancel := true }
        else
          (cancel bound part l).updateTask t fun task => { task with wait := .drain part true k }
      | _, none => l.resolve t .cancelled

/-- Tells the task that races another one that this has ended, if it still waits for it. -/
def notify (l : Loop E W) (racer part : Nat) : Loop E W :=
  match l.tasks[racer]? with
  | some ⟨.race p _, none, _, _, _⟩ => if p = part then l.resolve racer .resumed else l
  | some ⟨.drain p forwarded _, none, _, _, _⟩ =>
    if p = part then l.resolve racer (if forwarded then .cancelled else .resumed) else l
  | _ => l

/-- Whether a task waits for the end of another one. -/
def awaits (l : Loop E W) (racer part : Nat) : Bool :=
  match l.tasks[racer]? with
  | some ⟨.race p _, none, _, _, _⟩ => p == part
  | some ⟨.drain p _ _, none, _, _, _⟩ => p == part
  | _ => false

/-- Ends a task. -/
def settle (l : Loop E W) (t : Nat) (outcome : Outcome) : Loop E W :=
  let racer? := (l.tasks[t]?).bind Task.racer?
  let l := l.updateTask t fun task => { task with wait := .over outcome, signal? := none }
  match racer? with
  | some racer => if l.awaits racer t then l.enqueue (.notify racer t) else l
  | none => l

/-- Whether the lock can be taken at once: it is free, and nobody who waits for it is to get it. -/
def lockIsFree (l : Loop E W) : Bool :=
  !l.lock.held && l.lock.waiters.all fun t => (l.tasks[t]?).any Task.isStopped

/-- Hands the lock to the first task that waits for it, unless its wait is over already. -/
def wakeFirst (l : Loop E W) : Loop E W :=
  match l.lock.waiters with
  | [] => l
  | t :: _ => if (l.tasks[t]?).any (·.signal?.isNone) then l.resolve t .resumed else l

def wait (l : Loop E W) (t : Nat) (w : Wait E) : Loop E W :=
  l.updateTask t fun task => { task with wait := w, signal? := none }

/-- Runs a task until it waits or ends. -/
def exec (handler : Handler E W) (scope t : Nat) : Routine E → Loop E W → Loop E W
  | .done outcome, l => l.settle t outcome
  | .perform op k, l =>
    let (reply, world) := handler scope op l.world
    exec handler scope t (k reply) { l with world := world }
  | .clock k, l => exec handler scope t (k l.now) l
  | .sleep d k, l =>
    let l := l.wait t (.sleep k)
    if d ≤ 0 then l.resolve t .resumed else l.addTimer t d
  | .race part limit? k, l =>
    let (l, p) := l.spawn part scope (some t)
    let l := l.wait t (.race p k)
    match limit? with
    | some limit => l.addTimer t limit
    | none => l
  | .acquire k, l =>
    if l.lockIsFree then
      exec handler scope t (k .resumed) (l.setLock ⟨true, l.lock.waiters⟩)
    else (l.setLock ⟨l.lock.held, l.lock.waiters ++ [t]⟩).wait t (.lock k)
  | .release next, l =>
    exec handler scope t next (l.setLock ⟨false, l.lock.waiters⟩).wakeFirst

/-- Goes on with a task whose wait has ended with the given signal. -/
def resume (handler : Handler E W) (task : Task E) (t : Nat) (signal : Wake) (l : Loop E W) :
    Loop E W :=
  let go (r : Routine E) (l : Loop E W) : Loop E W := exec handler task.scope t r l
  match task.wait, signal with
  | .start r, .resumed => go r l
  | .start _, .cancelled => l.settle t (.error .cancelled)
  | .sleep k, s => go (k s) l
  | .race part k, .cancelled => go (k .cancelled) (cancel l.tasks.length part l)
  | .race part k, .resumed =>
    match l.outcome? part with
    | some outcome => go (k (.settled outcome)) l
    | none => (cancel l.tasks.length part l).wait t (.drain part false k)
  | .drain _ _ k, .resumed => go (k .expired) l
  | .drain _ _ k, .cancelled => go (k .cancelled) l
  | .lock k, s =>
    let l := l.setLock ⟨l.lock.held, l.lock.waiters.filter (· != t)⟩
    match s with
    | .resumed => go (k .resumed) (l.setLock ⟨true, l.lock.waiters⟩)
    | .cancelled => go (k .cancelled) (if l.lock.held then l else l.wakeFirst)
  | .over _, _ => l

/-- Does a job of the queue. A cancellation that came after the end of the wait counts. -/
def runJob (handler : Handler E W) (job : Job) (l : Loop E W) : Loop E W :=
  match job with
  | .notify racer part => l.notify racer part
  | .wake t =>
    match l.tasks[t]? with
    | none => l
    | some task =>
      let signal := if task.mustCancel then .cancelled else task.signal?.getD .resumed
      resume handler task t signal
        (l.updateTask t fun task => { task with signal? := none, mustCancel := false })

/-- The time of the earliest timer. -/
def nextDue? : List Timer → Option Rat
  | [] => none
  | timer :: timers =>
    match nextDue? timers with
    | some due => some (if timer.due ≤ due then timer.due else due)
    | none => some timer.due

/-- One step: the first job of the queue, or the clock jumps to the earliest timer. Nothing is
left to do when there is neither. -/
def next? (handler : Handler E W) (l : Loop E W) : Option (Loop E W) :=
  match l.ready with
  | job :: rest => some (runJob handler job { l with ready := rest })
  | [] =>
    (nextDue? l.timers).map fun due =>
      (l.timers.filter (·.due = due)).foldl (fun l timer => l.resolve timer.task .resumed)
        { l with now := due }

/-- Steps until a condition holds or nothing is left to do; no result if that never comes. -/
def runUntil (handler : Handler E W) (stop : Loop E W → Bool) (l : Loop E W) :
    Option (Loop E W) := _go l
where
  _go (l : Loop E W) : Option (Loop E W) :=
    if stop l then some l
    else match l.next? handler with
      | some l => _go l
      | none => some l
  partial_fixpoint

/-- Does as many jobs as the queue holds. -/
def drainQueue (handler : Handler E W) : Nat → Loop E W → Loop E W
  | 0, l => l
  | n + 1, l =>
    match l.ready with
    | job :: rest => drainQueue handler n (runJob handler job { l with ready := rest })
    | [] => l

/-- Runs a routine to its end, starting at once; gives what it ended with, if it did. -/
def run (handler : Handler E W) (routine : Routine E) (scope : Nat) (l : Loop E W) :
    Loop E W × Option Outcome :=
  let t := l.tasks.length
  let task : Task E := ⟨.start routine, none, false, scope, none⟩
  let started := exec handler scope t routine { l with tasks := l.tasks ++ [task] }
  match runUntil handler (·.isOver t) started with
  | some l => (l, l.outcome? t)
  | none => (started, none)

/-- Adds several tasks, each in a scope of its own, and gives their numbers. -/
def spawnAll (l : Loop E W) (scope : Nat) : List (Routine E) → Loop E W × List Nat
  | [] => (l, [])
  | r :: rs =>
    let (l, t) := l.spawn r scope none
    let (l, ts) := l.spawnAll (scope + 1) rs
    (l, t :: ts)

/-- Runs several routines side by side until all have ended. Whoever waits for them all is told
after the last one by a job, and woken by another. -/
def runAll (handler : Handler E W) (routines : List (Routine E)) (scope : Nat) (l : Loop E W) :
    Loop E W × List (Option Outcome) :=
  let (l, ts) := l.spawnAll scope routines
  let l := (runUntil handler (fun l => ts.all l.isOver) l).getD l
  let l := drainQueue handler l.ready.length l
  let l := drainQueue handler l.ready.length l
  (l, ts.map l.outcome?)

end Loop

end GraphClient
