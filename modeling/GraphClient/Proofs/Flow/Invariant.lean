import Mathlib.Data.List.Basic
import GraphClient.Flow.Loop

/-!
# What the event loop keeps

An invariant of the loop judges every task by its number, its scope and what it waits for, and
the world by itself (`Loop.Within`). Signals, timers, jobs and the lock do not matter to it.

* `Loop.Admits` says when the routines of a scope keep an invariant, whatever they are answered.
* `Within.resolve`, `Within.cancel`, `Within.spawn`, … : each operation of the loop keeps it.
* `Within.exec`: a task of such a scope keeps it, by induction on what the task runs.
* `Within.runJob`: so does a job of the queue.
-/

namespace GraphClient

variable {E : Effects} {W : Type}

/-- Every routine that a task can go on with after its wait satisfies a predicate. -/
def Wait.Holds (R : Routine E → Prop) : Wait E → Prop
  | .start r => R r
  | .sleep k => ∀ wake, R (k wake)
  | .race _ k => ∀ finish, R (k finish)
  | .drain _ _ k => ∀ finish, R (k finish)
  | .lock k => ∀ wake, R (k wake)
  | .over _ => True

namespace Loop

/-- Every task satisfies a predicate on its number, its scope and its wait, and the world one of
its own. -/
structure Within (Q : Nat → Nat → Wait E → Prop) (J : W → Prop) (l : Loop E W) : Prop where
  task : ∀ {t task}, l.tasks[t]? = some task → Q t task.scope task.wait
  world : J l.world

/-- A cancellation that a task passes on to its part does not matter to the predicate. -/
def Steady (Q : Nat → Nat → Wait E → Prop) : Prop :=
  ∀ {t scope part forwarded k}, Q t scope (.drain part forwarded k) →
    Q t scope (.drain part true k)

/-- The tasks of a scope run routines that satisfy `R`, and the steps of these keep `R` and the
predicates on the tasks and the world. -/
structure Admits (handler : Handler E W) (Q : Nat → Nat → Wait E → Prop) (J : W → Prop)
    (scope : Nat) (R : Routine E → Prop) : Prop where
  stays : ∀ t w, w.Holds R → Q t scope w
  goes : ∀ t w, Q t scope w → w.Holds R
  perform : ∀ op k w, R (.perform op k) → J w →
    R (k (handler scope op w).1) ∧ J (handler scope op w).2
  clock : ∀ k now, R (.clock k) → R (k now)
  sleep : ∀ d k wake, R (.sleep d k) → R (k wake)
  part : ∀ part limit? k, R (.race part limit? k) → R part
  race : ∀ part limit? k finish, R (.race part limit? k) → R (k finish)
  acquire : ∀ k wake, R (.acquire k) → R (k wake)
  release : ∀ next, R (.release next) → R next

/-- The predicate that says no more than which scope a task is in. -/
def InScope (t scope : Nat) : Nat → Nat → Wait E → Prop := fun t' scope' _ => t' = t → scope' = scope

/-- A predicate that does not judge one of the tasks. -/
def Others (t : Nat) (Q : Nat → Nat → Wait E → Prop) : Nat → Nat → Wait E → Prop :=
  fun t' scope w => t' ≠ t → Q t' scope w

theorem steady_inScope {t scope : Nat} : Steady (InScope (E := E) t scope) := fun h => h

theorem Steady.others {Q : Nat → Nat → Wait E → Prop} (steady : Steady Q) (t : Nat) :
    Steady (Others t Q) := fun h ne => steady (h ne)

/-- Where a task belongs to the scope, its waits for such routines are judged well. -/
theorem Admits.judged {handler : Handler E W} {Q : Nat → Nat → Wait E → Prop} {J : W → Prop}
    {scope t : Nat} {R : Routine E → Prop} {l : Loop E W} (admits : Admits handler Q J scope R)
    (own : l.Within (InScope t scope) fun _ => True) {w : Wait E} (holds : w.Holds R) :
    ∀ task, l.tasks[t]? = some task → Q t task.scope w := by
  intro task e
  rw [own.task e rfl]
  exact admits.stays t w holds

namespace Within

variable {Q : Nat → Nat → Wait E → Prop} {J : W → Prop} {l l' : Loop E W}

theorem congr (h : l.Within Q J) (tasks : l'.tasks = l.tasks) (world : l'.world = l.world) :
    l'.Within Q J :=
  ⟨fun e => h.task (tasks ▸ e), world ▸ h.world⟩

theorem setLock (h : l.Within Q J) (lock : Lock) : (l.setLock lock).Within Q J := h.congr rfl rfl

theorem others (h : l.Within Q J) (t : Nat) : l.Within (Others t Q) J :=
  ⟨fun e _ => h.task e, h.world⟩

theorem inScope {t : Nat} {task : Task E} (e : l.tasks[t]? = some task) :
    l.Within (InScope t task.scope) fun _ => True := by
  refine ⟨?_, trivial⟩
  rintro t' task' e' rfl
  rw [Option.some.inj (e'.symm.trans e)]

/-- Where a task is changed, nothing need be known of it before. -/
theorem updateTask {t : Nat} {f : Task E → Task E} (h : l.Within (Others t Q) J)
    (keeps : ∀ task, l.tasks[t]? = some task → Q t (f task).scope (f task).wait) :
    (l.updateTask t f).Within Q J := by
  refine ⟨fun {t' task'} e => ?_, h.world⟩
  simp only [Loop.updateTask, List.getElem?_modify, Option.map_eq_map, Option.map_eq_some_iff] at e
  obtain ⟨task, e, rfl⟩ := e
  split
  · rename_i same
    subst same
    exact keeps task e
  · rename_i other
    exact h.task e (Ne.symm other)

/-- Signals and remembered cancellations do not matter. -/
theorem signal {t : Nat} {f : Task E → Task E} (h : l.Within Q J)
    (same : ∀ task, (f task).scope = task.scope ∧ (f task).wait = task.wait := by
      exact fun _ => ⟨rfl, rfl⟩) : (l.updateTask t f).Within Q J := by
  refine (h.others t).updateTask fun task e => ?_
  rw [(same task).1, (same task).2]
  exact h.task e

theorem resolve (h : l.Within Q J) (t : Nat) (signal : Wake) : (l.resolve t signal).Within Q J :=
  (h.signal (t := t) (f := fun task => { task with signal? := some signal })).congr rfl rfl

theorem wait {t : Nat} {w : Wait E} (h : l.Within (Others t Q) J)
    (stays : ∀ task, l.tasks[t]? = some task → Q t task.scope w) : (l.wait t w).Within Q J :=
  h.updateTask stays

theorem spawn {r : Routine E} {scope : Nat} {racer? : Option Nat} (h : l.Within Q J)
    (stays : Q l.tasks.length scope (.start r)) : (l.spawn r scope racer?).1.Within Q J := by
  refine ⟨fun {t task} e => ?_, h.world⟩
  rcases Nat.lt_or_ge t l.tasks.length with old | new
  · exact h.task (by rwa [Loop.spawn, List.getElem?_append_left old] at e)
  · rw [Loop.spawn, List.getElem?_append_right new] at e
    obtain ⟨zero, rfl⟩ : t - l.tasks.length = 0 ∧ _ = task := by
      simpa [List.getElem?_singleton] using e
    obtain rfl : t = l.tasks.length := by omega
    exact stays

theorem cancel (steady : Steady Q) (bound t : Nat) (h : l.Within Q J) :
    (cancel bound t l).Within Q J := by
  induction bound generalizing t Q J with
  | zero => exact h
  | succ bound ih =>
    unfold Loop.cancel
    split
    · exact h
    · rename_i task e
      split
      · exact h
      · exact h.signal
      · rename_i part forwarded k drains _
        split
        · exact h.signal
        · -- Whatever the cancellation of the part did to the task, its scope is the same.
          have scope : (Loop.cancel bound part l).Within (InScope t task.scope) fun _ => True :=
            ih steady_inScope part (inScope e)
          have stays : Q t task.scope (.drain part true k) := steady (drains ▸ h.task e)
          refine ((ih steady part h).others t).updateTask fun task' e' => ?_
          rw [scope.task e' rfl]
          exact stays
      · exact h.resolve t .cancelled

theorem notify (h : l.Within Q J) (racer part : Nat) : (l.notify racer part).Within Q J := by
  unfold Loop.notify
  split
  · split
    · exact h.resolve racer _
    · exact h
  · split
    · exact h.resolve racer _
    · exact h
  · exact h

theorem settle {t : Nat} {outcome : Outcome} (h : l.Within (Others t Q) J)
    (stays : ∀ task, l.tasks[t]? = some task → Q t task.scope (.over outcome)) :
    (l.settle t outcome).Within Q J := by
  have ended := h.updateTask (f := fun task => { task with wait := .over outcome, signal? := none })
    stays
  unfold Loop.settle
  simp only
  split
  · split
    · exact ended.congr rfl rfl
    · exact ended
  · exact ended

theorem wakeFirst (h : l.Within Q J) : l.wakeFirst.Within Q J := by
  unfold Loop.wakeFirst
  split
  · exact h
  · split
    · exact h.resolve _ _
    · exact h

/-- A task of a scope keeps what the routines of its scope keep. What it waited for before does
not matter. -/
theorem exec {handler : Handler E W} {scope t : Nat} {R : Routine E → Prop}
    (admits : Admits handler Q J scope R) {r : Routine E} (allowed : R r)
    (h : l.Within (Others t Q) J) (own : l.Within (InScope t scope) fun _ => True) :
    (exec handler scope t r l).Within Q J := by
  induction r generalizing l with
  | done outcome => exact h.settle (admits.judged own trivial)
  | perform op k ih =>
    have next := admits.perform op k l.world allowed h.world
    exact ih _ next.1 ⟨h.task, next.2⟩ ⟨own.task, trivial⟩
  | clock k ih => exact ih _ (admits.clock k l.now allowed) h own
  | sleep d k ih =>
    have asleep := h.wait (admits.judged own (w := .sleep k) fun wake => admits.sleep d k wake allowed)
    unfold Loop.exec
    simp only
    split
    · exact asleep.resolve t .resumed
    · exact asleep.congr rfl rfl
  | race part limit? k _ _ =>
    have spawned : (l.spawn part scope (some t)).1.Within (Others t Q) J :=
      h.spawn fun _ =>
        admits.stays l.tasks.length (.start part) (admits.part part limit? k allowed)
    have mine : (l.spawn part scope (some t)).1.Within (InScope t scope) fun _ => True :=
      own.spawn fun _ => rfl
    have racing := spawned.wait (admits.judged mine (w := .race l.tasks.length k)
      fun finish => admits.race part limit? k finish allowed)
    cases limit? with
    | none => exact racing
    | some limit => exact racing.congr rfl rfl
  | acquire k ih =>
    unfold Loop.exec
    split
    · exact ih _ (admits.acquire k .resumed allowed) (h.setLock _) (own.setLock _)
    · exact (h.wait (admits.judged own (w := .lock k)
        fun wake => admits.acquire k wake allowed)).congr rfl rfl
  | release next ih =>
    exact ih (admits.release next allowed) (h.setLock _).wakeFirst (own.setLock _).wakeFirst

/-- So does a task of a scope that goes on after its wait. -/
theorem resume {handler : Handler E W} {task : Task E} {t : Nat} {signal : Wake}
    {R : Routine E → Prop} (steady : Steady Q) (admits : Admits handler Q J task.scope R)
    (h : l.Within Q J) (judged : Q t task.scope task.wait)
    (own : l.Within (InScope t task.scope) fun _ => True) :
    (resume handler task t signal l).Within Q J := by
  have allowed : task.wait.Holds R := admits.goes t task.wait judged
  have cancelled {part : Nat} :
      (Loop.cancel l.tasks.length part l).Within (InScope t task.scope) fun _ => True :=
    own.cancel steady_inScope _ part
  have others : l.Within (Others t Q) J := h.others t
  have othersCancelled {part : Nat} :
      (Loop.cancel l.tasks.length part l).Within (Others t Q) J :=
    others.cancel (steady.others t) _ part
  unfold Loop.resume
  split <;> rename_i wait <;> rw [wait] at allowed
  · exact others.exec admits allowed own
  · exact others.settle (admits.judged own trivial)
  · exact others.exec admits (allowed _) own
  · exact othersCancelled.exec admits (allowed _) cancelled
  · split
    · exact others.exec admits (allowed _) own
    · exact othersCancelled.wait (admits.judged cancelled (w := .drain _ false _) allowed)
  · exact others.exec admits (allowed _) own
  · exact others.exec admits (allowed _) own
  · have left := others.setLock ⟨l.lock.held, l.lock.waiters.filter (· != t)⟩
    have ownLeft := own.setLock ⟨l.lock.held, l.lock.waiters.filter (· != t)⟩
    simp only
    split
    · exact (left.setLock _).exec admits (allowed _) (ownLeft.setLock _)
    · split
      · exact left.exec admits (allowed _) ownLeft
      · exact left.wakeFirst.exec admits (allowed _) ownLeft.wakeFirst
  · exact h

/-- So does a job of the queue, if the task that it wakes belongs to such a scope. -/
theorem runJob {handler : Handler E W} {job : Job} (steady : Steady Q)
    (admits : ∀ t task, job = .wake t → l.tasks[t]? = some task →
      ∃ R, Admits handler Q J task.scope R)
    (h : l.Within Q J) : (runJob handler job l).Within Q J := by
  cases job with
  | notify racer part => exact h.notify racer part
  | wake t =>
    unfold Loop.runJob
    simp only
    split
    · exact h
    · rename_i task e
      obtain ⟨R, admits⟩ := admits t task rfl e
      exact (h.signal).resume steady admits (h.task e) (inScope e).signal

end Within

end Loop

end GraphClient
