import Mathlib.Data.List.Induction
import GraphClient.Proofs.Flow.Operations

/-!
# Routines side by side

Any number of routines share a loop, each as a task of its own. Jobs may be done in any order and
timers may pass at any time, so every order in which the routines can be suspended and go on is
among the histories, and those of the event loop are (`Loop.next?_is_after`).

* `Routine.Reaches`: what a routine comes to until it waits or ends, whatever time it is and
  whether the lock is free or not.
* `View`: what was started, what each task waits for, the world, and who was asked to stop.
* `Loop.Kept`: an invariant of the view that every routine keeps from wait to wait.
  `Kept.after`: it holds after every history.
-/

namespace GraphClient

variable {A : Type} {E : Effects} {W : Type}

/-! ## Entries of lists -/

theorem getElem?_set_cases {B : Type} {l : List B} {b b' : B} {t t' : Nat}
    (found : (l.set t b)[t']? = some b') : t' = t ∧ b' = b ∨ t' ≠ t ∧ l[t']? = some b' := by
  rcases eq_or_ne t' t with rfl | ne
  · have inside := (List.getElem?_eq_some_iff.1 found).1
    rw [List.length_set] at inside
    rw [List.getElem?_set_self inside] at found
    exact .inl ⟨rfl, (Option.some.inj found).symm⟩
  · rw [List.getElem?_set_ne ne.symm] at found
    exact .inr ⟨ne, found⟩

theorem getElem?_concat_cases {B : Type} {l : List B} {b b' : B} {t : Nat}
    (found : (l ++ [b])[t]? = some b') : l[t]? = some b' ∨ t = l.length ∧ b' = b := by
  rcases Nat.lt_or_ge t l.length with old | new
  · exact .inl (List.getElem?_append_left old ▸ found)
  · rw [List.getElem?_append_right new, List.getElem?_singleton] at found
    split at found
    · exact .inr ⟨by omega, (Option.some.inj found).symm⟩
    · cases found

theorem filterMap_concat {B C : Type} (f : B → Option C) (l : List B) (b : B) :
    (l ++ [b]).filterMap f = l.filterMap f ++ (f b).toList := by
  rw [List.filterMap_append, List.filterMap_cons]
  cases f b <;> rfl

/-! ## Histories -/

/-- What can happen next to a loop that any number of routines share. -/
inductive Move (A : Type) where
  /-- A routine starts as a task of its own. -/
  | start (a : A)
  /-- The job at a place of the queue is done. -/
  | job (n : Nat)
  | tick (now : Rat)
  /-- The timer of a task passes. -/
  | fire (task : Nat)
  | cancel (task : Nat)

namespace Move

/-- What a move starts. -/
def started? : Move A → Option A
  | start a => some a
  | _ => none

/-- The task that a move asks to stop. -/
def cancelled? : Move A → Option Nat
  | cancel t => some t
  | _ => none

end Move

/-- What the event loop does not decide: what was started so far, what each task waits for, the
world, and which tasks were asked to stop. -/
structure View (A : Type) (E : Effects) (W : Type) where
  started : List A
  waits : List (Wait E)
  world : W
  asked : List Nat

/-- A task whose wait has ended goes on. -/
inductive Wait.Goes : Wait E → Wake → Routine E → Prop
  | start (r) : Goes (start r) .resumed r
  | unbegun (r) : Goes (start r) .cancelled (.done (.error .cancelled))
  | sleep (k wake) : Goes (sleep k) wake (k wake)
  | lock (k wake) : Goes (lock k) wake (k wake)

/-- The wait is not for a part of a race. -/
def Wait.IsSingle : Wait E → Prop
  | .race .. | .drain .. => False
  | _ => True

/-- What a routine without races comes to when it runs until it waits or ends, whatever time it is
and whether the lock is free or not. -/
def Routine.Reaches (handler : Handler E W) (scope : Nat) (P : Wait E → W → Prop) :
    Routine E → W → Prop
  | done o, w => P (.over o) w
  | perform op k, w => Reaches handler scope P (k (handler scope op w).1) (handler scope op w).2
  | clock k, w => ∀ now, Reaches handler scope P (k now) w
  | sleep _ k, w => P (.sleep k) w
  | race .., _ => False
  | acquire k, w => Reaches handler scope P (k .resumed) w ∧ P (.lock k) w
  | release next, w => Reaches handler scope P next w

theorem Routine.Reaches.mono {handler : Handler E W} {scope : Nat} {P Q : Wait E → W → Prop}
    {r : Routine E} {w : W} (h : r.Reaches handler scope P w) (weaker : ∀ wait w, P wait w → Q wait w) :
    r.Reaches handler scope Q w := by
  induction r generalizing w with
  | done o => exact weaker _ w h
  | perform op k ih => exact ih _ h
  | clock k ih => exact fun now => ih now (h now)
  | sleep d k _ => exact weaker _ w h
  | race part limit? k _ _ => exact h
  | acquire k ih => exact ⟨ih _ h.1, weaker _ w h.2⟩
  | release next ih => exact ih h

namespace Loop

section

variable (handler : Handler E W) (routine : A → Routine E)

/-- Each routine has its task's number for a scope. -/
def move (l : Loop E W) : Move A → Loop E W
  | .start a => (l.spawn (routine a) l.tasks.length none).1
  | .job n =>
    match l.ready[n]? with
    | some job => runJob handler job { l with ready := l.ready.eraseIdx n }
    | none => l
  | .tick now => { l with now := now }
  | .fire t => l.resolve t .resumed
  | .cancel t => cancel l.tasks.length t l

/-- The loop after some moves. -/
def after (l : Loop E W) (moves : List (Move A)) : Loop E W := moves.foldl (move handler routine) l

/-- What is seen of a loop after some moves. -/
def view (l : Loop E W) (moves : List (Move A)) : View A E W :=
  ⟨moves.filterMap Move.started?, l.tasks.map Task.wait, l.world, moves.filterMap Move.cancelled?⟩

/-- A property of what is seen that every task keeps from wait to wait. -/
structure Kept (I : View A E W → Prop) : Prop where
  start : ∀ v a, I v →
    I { v with started := v.started ++ [a], waits := v.waits ++ [.start (routine a)] }
  ask : ∀ v t, I v → I { v with asked := v.asked ++ [t] }
  go : ∀ v t wait signal r, I v → v.waits[t]? = some wait → wait.Goes signal r →
    (signal = .cancelled → t ∈ v.asked) →
    r.Reaches handler t (fun wait world => I { v with waits := v.waits.set t wait, world }) v.world

end

variable {handler : Handler E W} {routine : A → Routine E} {l : Loop E W} {asked : List Nat}

theorem after_concat (l : Loop E W) (moves : List (Move A)) (m : Move A) :
    l.after handler routine (moves ++ [m]) =
      (l.after handler routine moves).move handler routine m :=
  List.foldl_append

/-- Every step of the event loop is some moves. -/
theorem next?_is_after {l' : Loop E W} (step : l.next? handler = some l') :
    ∃ moves, l.after handler routine moves = l' := by
  unfold next? at step
  split at step
  · rename_i job rest ready
    refine ⟨[.job 0], ?_⟩
    obtain rfl := Option.some.inj step
    simp only [after, List.foldl_cons, List.foldl_nil, move, ready, List.getElem?_cons_zero,
      List.eraseIdx_cons_zero]
  · obtain ⟨due, _, rfl⟩ := Option.map_eq_some_iff.1 step
    refine ⟨.tick due :: (l.timers.filter (·.due = due)).map fun timer => .fire timer.task, ?_⟩
    rw [after, List.foldl_cons, List.foldl_map]
    rfl

end Loop

/-- A task in the scope of its number, that neither races a part of itself nor is one, and was asked
to stop if it is to. -/
structure Task.Orderly (t : Nat) (asked : List Nat) (task : Task E) : Prop where
  scope : task.scope = t
  racer : task.racer? = none
  single : task.wait.IsSingle
  asked : task.mustCancel = true ∨ task.signal? = some .cancelled → t ∈ asked

theorem Task.Orderly.mono {t : Nat} {asked more : List Nat} {task : Task E}
    (h : task.Orderly t asked) (grows : asked ⊆ more) : task.Orderly t more :=
  { h with asked := fun stops => grows (h.asked stops) }

namespace Loop

variable {handler : Handler E W} {l : Loop E W} {asked : List Nat} {t : Nat}

/-- All tasks are orderly. -/
structure Orderly (asked : List Nat) (l : Loop E W) : Prop where
  task : ∀ {t : Nat} {task : Task E}, l.tasks[t]? = some task → task.Orderly t asked

/-- What the tasks wait for. -/
def waits (l : Loop E W) : List (Wait E) := l.tasks.map Task.wait

/-- A task that has ended waits for nothing. -/
theorem waits_of_outcome? {o : Outcome} (ended : l.outcome? t = some o) :
    l.waits[t]? = some (.over o) := by
  obtain ⟨task, e, same⟩ := Option.bind_eq_some_iff.1 ended
  rw [waits, List.getElem?_map, e, Option.map_some]
  unfold Task.outcome? at same
  split at same
  · rename_i ended
    rw [ended, Option.some.inj same]
  · cases same

theorem outcome?_eq_some_iff {o : Outcome} :
    l.outcome? t = some o ↔ l.waits[t]? = some (.over o) := by
  refine ⟨waits_of_outcome?, fun waiting => ?_⟩
  rw [waits, List.getElem?_map] at waiting
  obtain ⟨task, e, ended⟩ := Option.map_eq_some_iff.1 waiting
  simp only [outcome?, e, Option.bind_some, Task.outcome?, ended]

theorem waits_updateTask {f : Task E → Task E} {w : Wait E} (same : ∀ task, (f task).wait = w) :
    (l.updateTask t f).waits = l.waits.set t w := by
  refine List.ext_getElem? fun j => ?_
  simp only [waits, updateTask, List.getElem?_map, List.getElem?_modify, List.getElem?_set,
    List.length_map]
  by_cases eq : t = j
  · subst eq
    by_cases inside : t < l.tasks.length <;> simp [inside, same]
  · simp [eq]

theorem waits_updateTask_of_same {f : Task E → Task E} (same : ∀ task, (f task).wait = task.wait) :
    (l.updateTask t f).waits = l.waits := by
  refine List.ext_getElem? fun j => ?_
  simp only [waits, updateTask, List.getElem?_map, List.getElem?_modify]
  by_cases eq : t = j <;> cases l.tasks[j]? <;> simp [eq, same]

theorem waits_resolve (signal : Wake) : (l.resolve t signal).waits = l.waits :=
  waits_updateTask_of_same (f := fun task => { task with signal? := some signal }) fun _ => rfl

theorem waits_wakeFirst (l : Loop E W) : l.wakeFirst.waits = l.waits := by
  unfold wakeFirst
  split
  · rfl
  · split
    · exact waits_resolve _
    · rfl

theorem world_wakeFirst (l : Loop E W) : l.wakeFirst.world = l.world := by
  unfold wakeFirst
  split
  · rfl
  · split <;> rfl

namespace Orderly

theorem mono {more : List Nat} (h : l.Orderly asked) (grows : asked ⊆ more) : l.Orderly more :=
  ⟨fun e => (h.task e).mono grows⟩

theorem spawn (h : l.Orderly asked) (r : Routine E) :
    (l.spawn r l.tasks.length none).1.Orderly asked := by
  refine ⟨fun {t task} e => ?_⟩
  rcases Nat.lt_or_ge t l.tasks.length with old | new
  · exact h.task ((tasks_spawn_of_lt old).symm.trans e)
  · have last : t < l.tasks.length + 1 := length_spawn r _ none ▸ (List.getElem?_eq_some_iff.1 e).1
    obtain rfl : t = l.tasks.length := by omega
    obtain rfl := Option.some.inj (tasks_spawn_self.symm.trans e)
    exact ⟨rfl, rfl, trivial, fun stops => by rcases stops with must | same <;> cases ‹_›⟩

theorem updateTask {f : Task E → Task E} (h : l.Orderly asked)
    (keeps : ∀ task : Task E, task.Orderly t asked → (f task).Orderly t asked) :
    (l.updateTask t f).Orderly asked := by
  refine ⟨fun {j task} e => ?_⟩
  by_cases eq : j = t
  · subst eq
    cases e' : l.tasks[j]? with
    | none => simp [Loop.updateTask, e'] at e
    | some task' =>
      exact Option.some.inj ((tasks_updateTask_self e').symm.trans e) ▸ keeps task' (h.task e')
  · exact h.task ((tasks_updateTask_of_ne eq).symm.trans e)

theorem resolve (h : l.Orderly asked) {signal : Wake} (allowed : signal = .cancelled → t ∈ asked) :
    (l.resolve t signal).Orderly asked := by
  have signalled := h.updateTask (t := t) (f := fun task => { task with signal? := some signal })
    fun task orderly =>
      { scope := orderly.scope, racer := orderly.racer, single := orderly.single
        asked := fun stops => stops.elim (fun must => orderly.asked (.inl must))
          fun same => allowed (Option.some.inj same) }
  exact ⟨signalled.task⟩

theorem wait {w : Wait E} (h : l.Orderly asked) (single : w.IsSingle) :
    (l.wait t w).Orderly asked :=
  h.updateTask fun _ orderly =>
    { scope := orderly.scope, racer := orderly.racer, single
      asked := fun stops => stops.elim (fun must => orderly.asked (.inl must)) nofun }

theorem setLock (h : l.Orderly asked) (lock : Lock) : (l.setLock lock).Orderly asked := ⟨h.task⟩

theorem wakeFirst (h : l.Orderly asked) : l.wakeFirst.Orderly asked := by
  unfold Loop.wakeFirst
  split
  · exact h
  · split
    · exact h.resolve nofun
    · exact h

theorem settle_eq (h : l.Orderly asked) (outcome : Outcome) :
    l.settle t outcome = l.wait t (.over outcome) := by
  rw [Loop.settle_eq]
  cases e : l.tasks[t]? with
  | none => rfl
  | some task =>
    simp only [Option.bind_some, (h.task e).racer]
    rfl

/-- A task runs until it waits or ends. -/
theorem exec {P : Wait E → W → Prop} {r : Routine E} (h : l.Orderly asked)
    (reaches : r.Reaches handler t P l.world) :
    (exec handler t t r l).Orderly asked ∧
      ∃ w, (Loop.exec handler t t r l).waits = l.waits.set t w ∧
        P w (Loop.exec handler t t r l).world := by
  induction r generalizing l with
  | done outcome =>
    rw [Loop.exec, h.settle_eq]
    exact ⟨h.wait trivial, .over outcome, waits_updateTask fun _ => rfl, reaches⟩
  | perform op k ih => exact ih _ (l := { l with world := (handler t op l.world).2 }) ⟨h.task⟩ reaches
  | clock k ih => exact ih _ h (reaches l.now)
  | sleep d k _ =>
    have asleep : (l.wait t (.sleep k)).waits = l.waits.set t (.sleep k) :=
      waits_updateTask fun _ => rfl
    unfold Loop.exec
    simp only
    split
    · exact ⟨(h.wait (w := .sleep k) trivial).resolve nofun, .sleep k, (waits_resolve _).trans asleep,
        reaches⟩
    · exact ⟨⟨(h.wait (w := .sleep k) trivial).task⟩, .sleep k, asleep, reaches⟩
  | race part limit? k _ _ => exact reaches.elim
  | acquire k ih =>
    unfold Loop.exec
    split
    · exact ih .resumed (h.setLock ⟨true, l.lock.waiters⟩) reaches.1
    · exact ⟨(h.setLock ⟨l.lock.held, l.lock.waiters ++ [t]⟩).wait trivial, .lock k,
        waits_updateTask fun _ => rfl, reaches.2⟩
  | release next ih =>
    let freed := l.setLock ⟨false, l.lock.waiters⟩
    have orderly : freed.wakeFirst.Orderly asked := (h.setLock _).wakeFirst
    rw [show l.world = freed.wakeFirst.world from (world_wakeFirst freed).symm] at reaches
    obtain ⟨orderly, w, waits, holds⟩ := ih orderly reaches
    exact ⟨orderly, w, waits.trans (congrArg (·.set t w) (waits_wakeFirst freed)), holds⟩

/-- Nobody is told of the end of a part: there are no parts. -/
theorem notify_eq (h : l.Orderly asked) (racer part : Nat) : l.notify racer part = l := by
  unfold Loop.notify
  split
  · rename_i e
    exact (h.task e).single.elim
  · rename_i e
    exact (h.task e).single.elim
  · rfl

/-- A task that is asked to stop passes nothing on. -/
theorem cancel (h : l.Orderly asked) (bound t : Nat) (included : t ∈ asked) :
    (Loop.cancel bound t l).Orderly asked ∧ (Loop.cancel bound t l).waits = l.waits ∧
      (Loop.cancel bound t l).world = l.world := by
  have remembered : (l.updateTask t fun task => { task with mustCancel := true }).Orderly asked :=
    h.updateTask fun _ orderly =>
      { scope := orderly.scope, racer := orderly.racer, single := orderly.single
        asked := fun _ => included }
  have same : (l.updateTask t fun task => { task with mustCancel := true }).waits = l.waits :=
    waits_updateTask_of_same fun _ => rfl
  cases bound with
  | zero => exact ⟨h, rfl, rfl⟩
  | succ bound =>
    unfold Loop.cancel
    split
    · exact ⟨h, rfl, rfl⟩
    · rename_i task e
      split
      · exact ⟨h, rfl, rfl⟩
      · exact ⟨remembered, same, rfl⟩
      · rename_i drains _
        have single := (h.task e).single
        rw [drains] at single
        exact single.elim
      · exact ⟨h.resolve fun _ => included, waits_resolve _, rfl⟩

/-- A task whose wait has ended runs on, unless it had ended before. -/
theorem resume {P : Wait E → W → Prop} {task : Task E} {signal : Wake} (h : l.Orderly asked)
    (orderly : task.Orderly t asked)
    (go : ∀ r, task.wait.Goes signal r → r.Reaches handler t P l.world) :
    (resume handler task t signal l).Orderly asked ∧
      ((∃ o, task.wait = .over o) ∧ Loop.resume handler task t signal l = l ∨
        ∃ w, (Loop.resume handler task t signal l).waits = l.waits.set t w ∧
          P w (Loop.resume handler task t signal l).world) := by
  have single := orderly.single
  unfold Loop.resume
  rw [orderly.scope]
  split <;> rename_i wait <;> rw [wait] at single go
  · exact (h.exec (go _ (.start _))).imp_right .inr
  · rw [h.settle_eq]
    exact ⟨h.wait trivial, .inr ⟨_, waits_updateTask fun _ => rfl, go _ (.unbegun _)⟩⟩
  · exact (h.exec (go _ (.sleep _ _))).imp_right .inr
  · exact single.elim
  · exact single.elim
  · exact single.elim
  · exact single.elim
  · have reaches := go _ (.lock _ _)
    let shorter := l.setLock ⟨l.lock.held, l.lock.waiters.filter (· != t)⟩
    have listed : shorter.Orderly asked := h.setLock _
    simp only
    split
    · exact (exec (listed.setLock ⟨true, shorter.lock.waiters⟩) reaches).imp_right .inr
    · split
      · exact (exec listed reaches).imp_right .inr
      · rw [show l.world = shorter.wakeFirst.world from (world_wakeFirst shorter).symm] at reaches
        obtain ⟨orderly', w, waits, holds⟩ := exec listed.wakeFirst reaches
        exact ⟨orderly',
          .inr ⟨w, waits.trans (congrArg (·.set t w) (waits_wakeFirst shorter)), holds⟩⟩
  · exact ⟨h, .inl ⟨⟨_, wait⟩, rfl⟩⟩

/-- A task that is woken runs on, unless it has ended. -/
theorem wake {P : Wait E → W → Prop} {wait : Wait E} (h : l.Orderly asked)
    (waiting : l.waits[t]? = some wait)
    (go : ∀ signal r, wait.Goes signal r → (signal = .cancelled → t ∈ asked) →
      r.Reaches handler t P l.world) :
    (Loop.runJob handler (.wake t) l).Orderly asked ∧
      ((∃ o, wait = .over o) ∧ (Loop.runJob handler (.wake t) l).waits = l.waits ∧
          (Loop.runJob handler (.wake t) l).world = l.world ∨
        ∃ w, (Loop.runJob handler (.wake t) l).waits = l.waits.set t w ∧
          P w (Loop.runJob handler (.wake t) l).world) := by
  rw [waits, List.getElem?_map] at waiting
  obtain ⟨task, e, rfl⟩ := Option.map_eq_some_iff.1 waiting
  let cleared := l.updateTask t fun task => { task with signal? := none, mustCancel := false }
  have orderly : cleared.Orderly asked := h.updateTask fun _ orderly =>
    { scope := orderly.scope, racer := orderly.racer, single := orderly.single
      asked := by rintro (must | same) <;> cases ‹_› }
  have same : cleared.waits = l.waits := waits_updateTask_of_same fun _ => rfl
  rw [runJob_wake e]
  generalize signal : (if task.mustCancel then Wake.cancelled else task.signal?.getD .resumed) = s
  have allowed : s = .cancelled → t ∈ asked := by
    rintro rfl
    refine (h.task e).asked ?_
    by_cases must : task.mustCancel = true
    · exact .inl must
    · rw [if_neg must] at signal
      refine .inr ?_
      cases given : task.signal? with
      | none => rw [given] at signal; cases signal
      | some s => rw [given] at signal; exact congrArg some signal
  obtain ⟨orderly', ran⟩ := orderly.resume (h.task e) (P := P) fun r goes => go s r goes allowed
  refine ⟨orderly', ?_⟩
  rcases ran with ⟨ended, unchanged⟩ | ⟨w, waits, holds⟩
  · exact .inl ⟨ended, by rw [unchanged]; exact ⟨same, rfl⟩⟩
  · exact .inr ⟨w, waits.trans (congrArg (·.set t w) same), holds⟩

/-- A job either leaves what is seen as it was, or a task goes on that has waited. -/
theorem runJob {P : Nat → Wait E → W → Prop} (job : Job) (h : l.Orderly asked)
    (go : ∀ t wait signal r, l.waits[t]? = some wait → wait.Goes signal r →
      (signal = .cancelled → t ∈ asked) → r.Reaches handler t (P t) l.world) :
    (runJob handler job l).Orderly asked ∧
      ((Loop.runJob handler job l).waits = l.waits ∧ (Loop.runJob handler job l).world = l.world ∨
        ∃ t w, (Loop.runJob handler job l).waits = l.waits.set t w ∧
          P t w (Loop.runJob handler job l).world) := by
  cases job with
  | notify racer part =>
    rw [Loop.runJob, h.notify_eq]
    exact ⟨h, .inl ⟨rfl, rfl⟩⟩
  | wake t =>
    cases waiting : l.waits[t]? with
    | none =>
      rw [waits, List.getElem?_map, Option.map_eq_none_iff] at waiting
      simp only [Loop.runJob, waiting]
      exact ⟨h, .inl ⟨trivial, trivial⟩⟩
    | some wait =>
      obtain ⟨orderly, ⟨-, same⟩ | ⟨w, waits, holds⟩⟩ := h.wake waiting (go t wait · · waiting)
      · exact ⟨orderly, .inl same⟩
      · exact ⟨orderly, .inr ⟨t, w, waits, holds⟩⟩

/-- A move starts a task, or leaves what is seen as it was, or a task goes on that has waited. -/
theorem move (routine : A → Routine E) {P : Nat → Wait E → W → Prop} (h : l.Orderly asked)
    (m : Move A)
    (go : ∀ t wait signal r, l.waits[t]? = some wait → wait.Goes signal r →
      (signal = .cancelled → t ∈ asked) → r.Reaches handler t (P t) l.world) :
    (l.move handler routine m).Orderly (asked ++ m.cancelled?.toList) ∧
      ((l.move handler routine m).waits =
          l.waits ++ m.started?.toList.map (fun a => .start (routine a)) ∧
          (l.move handler routine m).world = l.world ∨
        (m.started? = none ∧ m.cancelled? = none) ∧
          ∃ t w, (l.move handler routine m).waits = l.waits.set t w ∧
            P t w (l.move handler routine m).world) := by
  cases m
  all_goals
    simp only [Loop.move, Move.started?, Move.cancelled?, Option.toList, List.append_nil,
      List.map_nil, List.map_cons]
  case start a => exact ⟨h.spawn _, .inl ⟨List.map_append, rfl⟩⟩
  case job n =>
    split
    · rename_i job _
      have taken : Orderly asked { l with ready := l.ready.eraseIdx n } := ⟨h.task⟩
      exact (taken.runJob job go).imp_right (.imp_right fun ran => ⟨⟨trivial, trivial⟩, ran⟩)
    · exact ⟨h, .inl ⟨rfl, rfl⟩⟩
  case tick now => exact ⟨⟨h.task⟩, .inl ⟨rfl, trivial⟩⟩
  case fire t => exact ⟨h.resolve nofun, .inl ⟨waits_resolve _, rfl⟩⟩
  case cancel t =>
    exact ((h.mono (List.subset_append_left asked [t])).cancel l.tasks.length t
      (List.mem_append_right asked (List.mem_singleton_self t))).imp_right .inl

end Orderly

/-- A move keeps what every task keeps from wait to wait. -/
theorem Kept.move {routine : A → Routine E} {I : View A E W → Prop} (kept : Kept handler routine I)
    {started : List A} (orderly : l.Orderly asked) (holds : I ⟨started, l.waits, l.world, asked⟩)
    (m : Move A) :
    (l.move handler routine m).Orderly (asked ++ m.cancelled?.toList) ∧
      I ⟨started ++ m.started?.toList, (l.move handler routine m).waits,
        (l.move handler routine m).world, asked ++ m.cancelled?.toList⟩ := by
  obtain ⟨orderly, seen⟩ := orderly.move routine m
    fun t wait signal r waiting goes allowed =>
      kept.go _ t wait signal r holds waiting goes allowed
  refine ⟨orderly, ?_⟩
  rcases seen with ⟨waits, world⟩ | ⟨⟨started, cancelled⟩, t, w, waits, holds⟩
  · rw [waits, world]
    cases m
    all_goals
      simp only [Move.started?, Move.cancelled?, Option.toList, List.append_nil, List.map_nil,
        List.map_cons]
    case start a => exact kept.start _ a holds
    case cancel t => exact kept.ask _ t holds
    all_goals exact holds
  · rw [waits, started, cancelled]
    simpa only [Option.toList, List.append_nil] using holds

/-- A property of what is seen that every task keeps from wait to wait holds after every history,
and all tasks are orderly. -/
theorem Kept.after {routine : A → Routine E} {I : View A E W → Prop} (kept : Kept handler routine I)
    {world : W} (initial : I ⟨[], [], world, []⟩) (moves : List (Move A)) :
    ((Loop.initial world).after handler routine moves).Orderly (moves.filterMap Move.cancelled?) ∧
      I (((Loop.initial world).after handler routine moves).view moves) := by
  induction moves using List.reverseRecOn with
  | nil => exact ⟨⟨nofun⟩, initial⟩
  | append_singleton moves m ih =>
    rw [view, after_concat, filterMap_concat, filterMap_concat]
    exact kept.move ih.1 ih.2 m

end Loop

end GraphClient
