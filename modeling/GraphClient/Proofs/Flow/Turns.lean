import GraphClient.Proofs.Flow.Invariant
import GraphClient.Proofs.Flow.Operations

/-!
# Turns

A turn of a task goes from the end of a wait to the next wait, or to the end of the task. All else
that the loop does leaves the world and the routines of the tasks alone.

* `Routine.Halts`: what holds where the turn of a routine ends.
* `Loop.exec_halts`: after a turn, the tasks are judged as before, but for the task itself and a
  part that it has started.
* `Loop.Stirred`: only signals, timers, jobs and the lock have changed.
* `Loop.resume_cases`, `Loop.runJob_cases`: what a job does.
* `Routine.Silent`: a routine does nothing to a state.
-/

namespace GraphClient

variable {E : Effects} {W : Type}

/-- How a turn ends. -/
inductive Halt (E : Effects) where
  | over (outcome : Outcome)
  | sleep (k : Wake → Routine E)
  | race (part : Routine E) (k : RaceEnd → Routine E)
  | lock (k : Wake → Routine E)

/-- A predicate holds where the turn of a routine ends, which begins in a world. A turn takes no
time. -/
def Routine.Halts (handler : Handler E W) (scope : Nat) (P : Halt E → W → Prop) (now : Rat) :
    Routine E → W → Prop
  | done o, w => P (.over o) w
  | perform op k, w =>
    Halts handler scope P now (k (handler scope op w).1) (handler scope op w).2
  | clock k, w => Halts handler scope P now (k now) w
  | sleep _ k, w => P (.sleep k) w
  | race part _ k, w => P (.race part k) w
  | acquire k, w => Halts handler scope P now (k .resumed) w ∧ P (.lock k) w
  | release next, w => Halts handler scope P now next w

theorem Routine.Halts.mono {handler : Handler E W} {scope : Nat} {P P' : Halt E → W → Prop}
    {now : Rat} {r : Routine E} {w : W} (h : r.Halts handler scope P now w)
    (weaker : ∀ halt w, P halt w → P' halt w) :
    r.Halts handler scope P' now w := by
  induction r generalizing w with
  | done o => exact weaker _ w h
  | perform op k ih => exact ih _ h
  | clock k ih => exact ih _ h
  | sleep d k _ => exact weaker _ w h
  | race part limit? k _ _ => exact weaker _ w h
  | acquire k ih => exact ⟨ih _ h.1, weaker _ w h.2⟩
  | release next ih => exact ih h

/-- The task that waits so is judged well, and so is the part that it may have started. -/
def Halt.Judged (Q : Nat → Nat → Wait E → Prop) (t scope p : Nat) : Halt E → Prop
  | .over o => Q t scope (.over o)
  | .sleep k => Q t scope (.sleep k)
  | .race part k => Q t scope (.race p k) ∧ Q p scope (.start part)
  | .lock k => Q t scope (.lock k)

theorem Halt.Judged.mono {Q Q' : Nat → Nat → Wait E → Prop} {t scope p : Nat} {halt : Halt E}
    (h : halt.Judged Q t scope p)
    (weaker : ∀ j wait, j = t ∨ j = p → Q j scope wait → Q' j scope wait) :
    halt.Judged Q' t scope p := by
  cases halt with
  | «over» o => exact weaker t _ (.inl rfl) h
  | sleep k => exact weaker t _ (.inl rfl) h
  | race part k => exact ⟨weaker t _ (.inl rfl) h.1, weaker p _ (.inr rfl) h.2⟩
  | lock k => exact weaker t _ (.inl rfl) h

/-- The task has begun, and has not ended. -/
def Wait.IsOpen : Wait E → Prop
  | .start _ | .over _ => False
  | _ => True

/-- How a task finds its wait ended when it is woken. -/
def Task.wake (task : Task E) : Wake :=
  if task.mustCancel then .cancelled else task.signal?.getD .resumed

/-- How many parts a turn that ends so has started. -/
def Halt.parts : Halt E → Nat
  | .race .. => 1
  | _ => 0

/-- The routines that a task can go on with when it is woken, where some tasks have ended. -/
inductive Wait.Continues (ended : Nat → Option Outcome) : Wait E → Wake → Routine E → Prop
  | start (r) : Continues ended (.start r) .resumed r
  | sleep (k wake) : Continues ended (.sleep k) wake (k wake)
  | settled {part k o} : ended part = some o →
    Continues ended (.race part k) .resumed (k (.settled o))
  | cancelled (part k) : Continues ended (.race part k) .cancelled (k .cancelled)
  | expired (part forwarded k) : Continues ended (.drain part forwarded k) .resumed (k .expired)
  | forwarded (part forwarded k) :
    Continues ended (.drain part forwarded k) .cancelled (k .cancelled)
  | lock (k wake) : Continues ended (.lock k) wake (k wake)

theorem Wait.Holds.mono {R R' : Routine E → Prop} {w : Wait E} (h : w.Holds R)
    (weaker : ∀ r, R r → R' r) : w.Holds R' := by
  cases w with
  | start r => exact weaker r h
  | sleep k => exact fun wake => weaker _ (h wake)
  | race part k => exact fun finish => weaker _ (h finish)
  | drain part forwarded k => exact fun finish => weaker _ (h finish)
  | lock k => exact fun wake => weaker _ (h wake)
  | «over» o => trivial

theorem Wait.Holds.drain {R : Routine E → Prop} {part : Nat} {forwarded : Bool}
    {k : RaceEnd → Routine E} (h : (Wait.drain part forwarded k).Holds R) (forwarded' : Bool) :
    (Wait.drain part forwarded' k).Holds R := h

/-- A task goes on as its wait says. -/
theorem Wait.Holds.goesOn {R : Routine E → Prop} {ended : Nat → Option Outcome} {w : Wait E}
    {signal : Wake} {r : Routine E} (h : w.Holds R) (goes : w.Continues ended signal r) : R r := by
  cases goes with
  | start r => exact h
  | sleep k => exact h _
  | settled _ => exact h _
  | cancelled part k => exact h _
  | expired part forwarded k => exact h _
  | forwarded part forwarded k => exact h _
  | lock k => exact h _

namespace Loop

variable {handler : Handler E W} {l l₁ l₂ : Loop E W} {t scope : Nat}

/-! ## The clock -/

theorem now_cancel (bound t : Nat) (l : Loop E W) : (cancel bound t l).now = l.now := by
  induction bound generalizing t with
  | zero => rfl
  | succ bound ih =>
    unfold cancel
    split
    · rfl
    · split
      · rfl
      · rfl
      · split
        · rfl
        · exact ih _
      · rfl

/-! ## Tasks that have ended -/

/-- The predicate that says no more than what a task has ended with. -/
def EndedWith (t : Nat) (o : Outcome) : Nat → Nat → Wait E → Prop :=
  fun j _ wait => j = t → wait = .over o

theorem within_of_outcome? {o : Outcome} (ended : l.outcome? t = some o) :
    l.Within (EndedWith t o) fun _ => True := by
  refine ⟨fun {j task} e same => ?_, trivial⟩
  subst same
  unfold outcome? Task.outcome? at ended
  rw [e, Option.bind_some] at ended
  split at ended
  · rename_i waits
    rw [waits, Option.some.inj ended]
  · cases ended

/-! ## What is not a turn -/

/-- The tasks are judged as before, and neither the world nor the time is another one. -/
structure Stirred (l l₁ : Loop E W) : Prop where
  now : l₁.now = l.now
  world : l₁.world = l.world
  length : l₁.tasks.length = l.tasks.length
  kept : ∀ Q : Nat → Nat → Wait E → Prop, Steady Q → l.Within Q (fun _ => True) →
    l₁.Within Q fun _ => True

namespace Stirred

theorem refl (l : Loop E W) : l.Stirred l := ⟨rfl, rfl, rfl, fun _ _ h => h⟩

theorem trans (h : l.Stirred l₁) (h' : l₁.Stirred l₂) : l.Stirred l₂ :=
  ⟨h'.now.trans h.now, h'.world.trans h.world, h'.length.trans h.length,
    fun Q steady within => h'.kept Q steady (h.kept Q steady within)⟩

theorem setLock (l : Loop E W) (lock : Lock) : l.Stirred (l.setLock lock) :=
  ⟨rfl, rfl, rfl, fun _ _ h => h.setLock lock⟩

theorem resolve (l : Loop E W) (t : Nat) (signal : Wake) : l.Stirred (l.resolve t signal) :=
  ⟨rfl, rfl, length_resolve signal, fun _ _ h => h.resolve t signal⟩

theorem wakeFirst (l : Loop E W) : l.Stirred l.wakeFirst := by
  unfold Loop.wakeFirst
  split
  · exact .refl l
  · split
    · exact .resolve l _ _
    · exact .refl l

theorem notify (l : Loop E W) (racer part : Nat) : l.Stirred (l.notify racer part) := by
  unfold Loop.notify
  split
  · split
    · exact .resolve l _ _
    · exact .refl l
  · split
    · exact .resolve l _ _
    · exact .refl l
  · exact .refl l

theorem cancel (l : Loop E W) (bound t : Nat) : l.Stirred (Loop.cancel bound t l) := by
  have length (t : Nat) : (Loop.cancel bound t l).tasks.length = l.tasks.length := by
    induction bound generalizing t with
    | zero => rfl
    | succ bound ih =>
      unfold Loop.cancel
      split
      · rfl
      · split
        · rfl
        · exact length_updateTask _
        · split
          · exact length_updateTask _
          · exact (length_updateTask _).trans (ih _)
        · exact length_resolve _
  have world : l.Within (fun _ _ _ => True) fun w => w = l.world := ⟨fun _ => trivial, rfl⟩
  exact ⟨now_cancel bound t l, (world.cancel (fun h => h) bound t).world, length t,
    fun _ steady h => h.cancel steady bound t⟩

/-- A task forgets how its wait ended. -/
theorem taken (l : Loop E W) (t : Nat) :
    l.Stirred (l.updateTask t fun task => { task with signal? := none, mustCancel := false }) :=
  ⟨rfl, rfl, length_updateTask _, fun _ _ h => h.signal⟩

theorem withReady (l : Loop E W) (jobs : List Job) : l.Stirred { l with ready := jobs } :=
  ⟨rfl, rfl, rfl, fun _ _ h => h.congr rfl rfl⟩

theorem own (h : l.Stirred l₁) (own : l.Within (InScope t scope) fun _ => True) :
    l₁.Within (InScope t scope) fun _ => True := h.kept _ steady_inScope own

end Stirred

/-! ## Turns -/

/-- A turn of a task ends in a world as predicted. The tasks are judged as before, if the task is
judged well where it waits, and so is the part that it may have started. -/
theorem exec_halts {P : Halt E → W → Prop} {r : Routine E}
    (own : l.Within (InScope t scope) fun _ => True)
    (halts : r.Halts handler scope P l.now l.world) :
    (exec handler scope t r l).now = l.now ∧ ∃ halt, P halt (exec handler scope t r l).world ∧
      (exec handler scope t r l).tasks.length = l.tasks.length + halt.parts ∧
      ∀ Q, Steady Q → l.Within (Others t Q) (fun _ => True) →
        halt.Judged Q t scope l.tasks.length →
        (exec handler scope t r l).Within Q fun _ => True := by
  have mine {l : Loop E W} (own : l.Within (InScope t scope) fun _ => True)
      {Q : Nat → Nat → Wait E → Prop} {w : Wait E} (judged : Q t scope w) :
      ∀ task, l.tasks[t]? = some task → Q t task.scope w :=
    fun task e => own.task e rfl ▸ judged
  induction r generalizing l with
  | done o =>
    exact ⟨now_settle .., .over o, (world_settle l t o).symm ▸ halts, length_settle ..,
      fun Q _ h judged => h.settle (mine own judged)⟩
  | perform op k ih =>
    obtain ⟨now, halt, holds, length, judges⟩ :=
      ih _ (l := { l with world := (handler scope op l.world).2 }) ⟨own.task, trivial⟩ halts
    exact ⟨now, halt, holds, length, fun Q steady h => judges Q steady ⟨h.task, trivial⟩⟩
  | clock k ih => exact ih _ own halts
  | sleep d k _ =>
    have asleep : (l.wait t (.sleep k)).tasks.length = l.tasks.length := length_updateTask _
    unfold exec
    simp only
    split
    · exact ⟨rfl, .sleep k, halts, (length_resolve _).trans asleep,
        fun Q _ h judged => (h.wait (mine own judged)).resolve t _⟩
    · exact ⟨rfl, .sleep k, halts, asleep,
        fun Q _ h judged => (h.wait (mine own judged)).congr rfl rfl⟩
  | race part limit? k _ _ =>
    have started : (l.spawn part scope (some t)).1.Within (InScope t scope) fun _ => True :=
      own.spawn fun _ => rfl
    have races (Q : Nat → Nat → Wait E → Prop) (h : l.Within (Others t Q) fun _ => True)
        (judged : (Halt.race part k).Judged Q t scope l.tasks.length) :
        ((l.spawn part scope (some t)).1.wait t (.race l.tasks.length k)).Within Q fun _ => True :=
      (h.spawn fun _ => judged.2).wait (mine started judged.1)
    have length : ((l.spawn part scope (some t)).1.wait t (.race l.tasks.length k)).tasks.length =
      l.tasks.length + 1 := (length_updateTask _).trans (length_spawn ..)
    cases limit? with
    | none => exact ⟨rfl, .race part k, halts, length, fun Q _ => races Q⟩
    | some limit =>
      exact ⟨rfl, .race part k, halts, length, fun Q _ h judged => (races Q h judged).congr rfl rfl⟩
  | acquire k ih =>
    unfold exec
    split
    · obtain ⟨now, halt, holds, length, judges⟩ :=
        ih .resumed (own.setLock ⟨true, l.lock.waiters⟩) halts.1
      exact ⟨now, halt, holds, length, fun Q steady h => judges Q steady (h.setLock _)⟩
    · exact ⟨rfl, .lock k, halts.2, length_updateTask _,
        fun Q _ h judged => (h.setLock _).wait (mine own judged)⟩
  | release next ih =>
    have freed := (Stirred.setLock l ⟨false, l.lock.waiters⟩).trans (.wakeFirst _)
    have halts' := freed.now.symm ▸ freed.world.symm ▸ halts
    obtain ⟨now, halt, holds, length, judges⟩ := ih (freed.own own) halts'
    refine ⟨now.trans freed.now, halt, holds, freed.length ▸ length, fun Q steady h judged => ?_⟩
    exact judges Q steady (freed.kept _ (steady.others t) h) (freed.length.symm ▸ judged)

/-- What a task does that is woken with a signal. -/
inductive Resumed (handler : Handler E W) (task : Task E) (t : Nat) (signal : Wake) (l : Loop E W) :
    Loop E W → Prop
  | goes {r l₁} : l.Stirred l₁ → task.wait.Continues l.outcome? signal r →
    Resumed handler task t signal l (exec handler task.scope t r l₁)
  /-- A task that is cancelled before its first turn has none. -/
  | unbegun {r} : task.wait = .start r → signal = .cancelled →
    Resumed handler task t signal l (l.settle t (.error .cancelled))
  /-- A race whose limit has passed waits for the end of its part. -/
  | drains {part k l₁} : l.Stirred l₁ → task.wait = .race part k → signal = .resumed →
    l.outcome? part = none → Resumed handler task t signal l (l₁.wait t (.drain part false k))
  | over {o} : task.wait = .over o → Resumed handler task t signal l l

theorem resume_cases (handler : Handler E W) (task : Task E) (t : Nat) (signal : Wake)
    (l : Loop E W) :
    Resumed handler task t signal l (resume handler task t signal l) := by
  unfold resume
  split <;> rename_i waits
  · exact .goes (.refl l) (waits ▸ .start _)
  · exact .unbegun waits rfl
  · exact .goes (.refl l) (waits ▸ .sleep _ _)
  · exact .goes (.cancel l _ _) (waits ▸ .cancelled _ _)
  · split
    · rename_i ended
      exact .goes (.refl l) (waits ▸ .settled ended)
    · rename_i running
      exact .drains (.cancel l _ _) waits rfl running
  · exact .goes (.refl l) (waits ▸ .expired _ _ _)
  · exact .goes (.refl l) (waits ▸ .forwarded _ _ _)
  · have left := Stirred.setLock l ⟨l.lock.held, l.lock.waiters.filter (· != t)⟩
    simp only
    split
    · exact .goes (left.trans (.setLock _ _)) (waits ▸ .lock _ _)
    · split
      · exact .goes left (waits ▸ .lock _ _)
      · exact .goes (left.trans (.wakeFirst _)) (waits ▸ .lock _ _)
  · exact .over waits

/-- A job wakes a task, or does no more than tell one of the end of its part. -/
theorem runJob_cases (handler : Handler E W) (job : Job) (l : Loop E W) :
    l.Stirred (runJob handler job l) ∨
      ∃ t task signal l₁, job = .wake t ∧ l.tasks[t]? = some task ∧ l.Stirred l₁ ∧
        (∀ j, l₁.outcome? j = l.outcome? j) ∧
        signal = task.wake ∧
        runJob handler job l = resume handler task t signal l₁ := by
  cases job with
  | notify racer part => exact .inl (.notify l racer part)
  | wake t =>
    cases e : l.tasks[t]? with
    | none =>
      refine .inl ?_
      simp only [runJob, e]
      exact .refl l
    | some task =>
      refine .inr ⟨t, task, _, _, rfl, e, .taken l t, fun j => ?_, rfl, runJob_wake e⟩
      by_cases same : j = t
      · subst same
        simp only [outcome?, tasks_updateTask_self e, e]
        rfl
      · exact outcome?_congr (tasks_updateTask_of_ne same)

end Loop

/-! ## Routines that do nothing to a state -/

section

variable {S : Type} {handler : Handler E W} {state : W → S} {scope : Nat} {r : Routine E}

variable (handler state) in
/-- The routine does nothing to a state in a scope. -/
def Routine.Silent (scope : Nat) : Routine E → Prop
  | done _ => True
  | perform op k =>
    (∀ w, state (handler scope op w).2 = state w) ∧ ∀ reply, Silent scope (k reply)
  | clock k => ∀ now, Silent scope (k now)
  | sleep _ k => ∀ wake, Silent scope (k wake)
  | race part _ k => Silent scope part ∧ ∀ finish, Silent scope (k finish)
  | acquire k => ∀ wake, Silent scope (k wake)
  | release next => Silent scope next

namespace Routine.Silent

theorem andThen {f : Outcome → Routine E} (h : r.Silent handler state scope)
    (rest : ∀ o, (f o).Silent handler state scope) : (r.andThen f).Silent handler state scope := by
  induction r with
  | done o => exact rest o
  | perform op k ih => exact ⟨h.1, fun reply => ih reply (h.2 reply)⟩
  | clock k ih => exact fun now => ih now (h now)
  | sleep d k ih => exact fun wake => ih wake (h wake)
  | race part limit? k _ ih => exact ⟨h.1, fun finish => ih finish (h.2 finish)⟩
  | acquire k ih => exact fun wake => ih wake (h wake)
  | release next ih => exact ih h

/-- Where its turn ends, the state is the same, and what comes next does nothing to it either. -/
theorem halts {w : W} {s : S} (h : r.Silent handler state scope) (same : state w = s) (now : Rat)
    (t p : Nat) :
    r.Halts handler scope (fun halt w =>
      halt.Judged (fun _ _ wait => wait.Holds (Silent handler state scope)) t scope p ∧ state w = s)
      now w := by
  induction r generalizing w with
  | done o => exact ⟨trivial, same⟩
  | perform op k ih => exact ih _ (h.2 _) ((h.1 w).trans same)
  | clock k ih => exact ih _ (h _) same
  | sleep d k _ => exact ⟨h, same⟩
  | race part limit? k _ _ => exact ⟨⟨h.2, h.1⟩, same⟩
  | acquire k ih => exact ⟨ih _ (h _) same, h, same⟩
  | release next ih => exact ih h same

end Routine.Silent

end

end GraphClient
