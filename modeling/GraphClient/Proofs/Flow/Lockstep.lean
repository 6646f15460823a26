import Mathlib.Data.Option.Basic
import GraphClient.Proofs.Flow.Interleaving
import GraphClient.Proofs.Flow.Residual
import GraphClient.Proofs.Flow.Steps

/-!
# Two loops in lockstep

Two loops run routines of which the second ones do all that the first ones do, and may do some
operations and read the clock besides. As long as the worlds are related, both loops make the same
steps.

* `Routine.Mirrors`: a routine does what another one does, and perhaps more.
* `Loop.Mirrors`: the tasks of one loop mirror those of the other. `Mirrors.exec`, `Mirrors.runJob`,
  `Mirrors.next?`: each step keeps this.
* `Mirrors.run`, `Mirrors.after`: so do runs and histories.

A property of the first world may be assumed that is never regained once it is lost (`Lasting`).
-/

namespace GraphClient

variable {A : Type} {E E' : Effects} {W W' : Type}

section

variable (handler : Handler E W) (handler' : Handler E' W') (sound : W → Prop) (V : W → W' → Prop)

/-- The second routine does what the first one does in a scope, and may do more that does not matter to
how the worlds are related. The worlds are those in which the first one finds a property. -/
inductive Routine.Mirrors (scope : Nat) : Routine E → Routine E' → Prop
  | done (o) : Mirrors scope (.done o) (.done o)
  | perform {op op' k k'} :
      (∀ w w', V w w' → sound (handler scope op w).2 →
        V (handler scope op w).2 (handler' scope op' w').2) →
      (∀ w w', V w w' → sound (handler scope op w).2 →
        Mirrors scope (k (handler scope op w).1) (k' (handler' scope op' w').1)) →
      Mirrors scope (.perform op k) (.perform op' k')
  | extra {r op' k'} : (∀ w w', V w w' → V w (handler' scope op' w').2) →
      (∀ w w', V w w' → Mirrors scope r (k' (handler' scope op' w').1)) →
      Mirrors scope r (.perform op' k')
  | clock {k k'} : (∀ now, Mirrors scope (k now) (k' now)) → Mirrors scope (.clock k) (.clock k')
  | extraClock {r k'} : (∀ now, Mirrors scope r (k' now)) → Mirrors scope r (.clock k')
  | sleep {d k k'} : (∀ wake, Mirrors scope (k wake) (k' wake)) →
      Mirrors scope (.sleep d k) (.sleep d k')
  | race {part part' limit? k k'} : Mirrors scope part part' →
      (∀ finish, Mirrors scope (k finish) (k' finish)) →
      Mirrors scope (.race part limit? k) (.race part' limit? k')
  | acquire {k k'} : (∀ wake, Mirrors scope (k wake) (k' wake)) →
      Mirrors scope (.acquire k) (.acquire k')
  | release {next next'} : Mirrors scope next next' → Mirrors scope (.release next) (.release next')

/-- The two tasks wait for the same, and go on with routines of which one mirrors the other. -/
inductive Wait.Mirrors (scope : Nat) : Wait E → Wait E' → Prop
  | start {r r'} : Routine.Mirrors handler handler' sound V scope r r' →
      Mirrors scope (.start r) (.start r')
  | sleep {k k'} : (∀ wake, Routine.Mirrors handler handler' sound V scope (k wake) (k' wake)) →
      Mirrors scope (.sleep k) (.sleep k')
  | race {part k k'} :
      (∀ finish, Routine.Mirrors handler handler' sound V scope (k finish) (k' finish)) →
      Mirrors scope (.race part k) (.race part k')
  | drain {part forwarded k k'} :
      (∀ finish, Routine.Mirrors handler handler' sound V scope (k finish) (k' finish)) →
      Mirrors scope (.drain part forwarded k) (.drain part forwarded k')
  | lock {k k'} : (∀ wake, Routine.Mirrors handler handler' sound V scope (k wake) (k' wake)) →
      Mirrors scope (.lock k) (.lock k')
  | over (o) : Mirrors scope (.over o) (.over o)

/-- One task mirrors another one. -/
structure Task.Mirrors (task : Task E) (task' : Task E') : Prop where
  wait : Wait.Mirrors handler handler' sound V task.scope task.wait task'.wait
  signal : task'.signal? = task.signal?
  mustCancel : task'.mustCancel = task.mustCancel
  scope : task'.scope = task.scope
  racer : task'.racer? = task.racer?

/-- Each task of the second loop mirrors the one of the first loop at its place. Clock, queue, timers
and lock are the same. -/
structure Loop.Mirrors (l : Loop E W) (l' : Loop E' W') : Prop where
  now : l'.now = l.now
  world : V l.world l'.world
  length : l'.tasks.length = l.tasks.length
  task : ∀ {t : Nat} {task task'}, l.tasks[t]? = some task → l'.tasks[t]? = some task' →
    Task.Mirrors handler handler' sound V task task'
  ready : l'.ready = l.ready
  timers : l'.timers = l.timers
  lock : l'.lock = l.lock

/-- Once an operation has ended the property, it never holds again. -/
def Loop.Lasting : Prop := ∀ scope op w, sound (handler scope op w).2 → sound w

end

variable {handler : Handler E W} {handler' : Handler E' W'} {sound : W → Prop} {V : W → W' → Prop}

/-! ## Routines -/

namespace Routine.Mirrors

/-- A routine mirrors itself, if its operations are answered alike and keep how the worlds are
related. -/
theorem self {handler' : Handler E W'} {scope : Nat}
    (keeps : ∀ op w w', V w w' → sound (handler scope op w).2 →
      V (handler scope op w).2 (handler' scope op w').2 ∧
        (handler' scope op w').1 = (handler scope op w).1)
    (r : Routine E) : Mirrors handler handler' sound V scope r r := by
  induction r with
  | done o => exact .done o
  | perform op k ih =>
    refine .perform (fun w w' h s => (keeps op w w' h s).1) fun w w' h s => ?_
    rw [(keeps op w w' h s).2]
    exact ih _
  | clock k ih => exact .clock ih
  | sleep d k ih => exact .sleep ih
  | race part limit? k ihp ih => exact .race ihp ih
  | acquire k ih => exact .acquire ih
  | release next ih => exact .release ih

theorem andThen {scope : Nat} {r : Routine E} {r' : Routine E'} {f : Outcome → Routine E}
    {f' : Outcome → Routine E'} (h : Mirrors handler handler' sound V scope r r')
    (rest : ∀ o, Mirrors handler handler' sound V scope (f o) (f' o)) :
    Mirrors handler handler' sound V scope (r.andThen f) (r'.andThen f') := by
  induction h with
  | done o => exact rest o
  | perform keeps _ ih => exact .perform keeps ih
  | extra keeps _ ih => exact .extra keeps ih
  | clock _ ih => exact .clock ih
  | extraClock _ ih => exact .extraClock ih
  | sleep _ ih => exact .sleep ih
  | race part _ _ ih => exact .race part ih
  | acquire _ ih => exact .acquire ih
  | release _ ih => exact .release ih

end Routine.Mirrors

namespace Loop

variable {l l₁ : Loop E W} {l' : Loop E' W'} {t scope : Nat}

/-! ## What is never regained -/

namespace Lasting

variable (lasting : Lasting handler sound)

include lasting

theorem admits (scope : Nat) :
    Admits handler (fun _ _ _ => True) (fun w => ¬sound w) scope fun _ => True :=
  admits_anything (fun _ _ => trivial) fun op w lost s => lost (lasting scope op w s)

theorem of_exec {r : Routine E} (own : l.Within (InScope t scope) fun _ => True)
    (h : sound (exec handler scope t r l).world) : sound l.world := by
  by_contra lost
  have kept : l.Within (fun _ _ _ => True) fun w => ¬sound w := ⟨fun _ => trivial, lost⟩
  exact ((kept.others t).exec (lasting.admits scope) trivial own).world h

theorem of_runJob {job : Job} (h : sound (runJob handler job l).world) : sound l.world := by
  by_contra lost
  have kept : l.Within (fun _ _ _ => True) fun w => ¬sound w := ⟨fun _ => trivial, lost⟩
  exact (kept.runJob (fun _ => trivial) fun t task _ _ =>
    ⟨_, lasting.admits task.scope⟩).world h

theorem of_next? (next : l.next? handler = some l₁) (h : sound l₁.world) : sound l.world := by
  unfold next? at next
  split at next
  · rename_i job rest _
    obtain rfl := Option.some.inj next
    exact lasting.of_runJob (l := { l with ready := rest }) h
  · obtain ⟨due, _, rfl⟩ := Option.map_eq_some_iff.1 next
    have fired (timers : List Timer) (l : Loop E W) :
        (timers.foldl (fun l timer => l.resolve timer.task .resumed) l).world = l.world := by
      induction timers generalizing l with
      | nil => rfl
      | cons timer timers ih => exact ih _
    rwa [fired] at h

theorem of_leads {l₂ : Loop E W} (leads : Leads handler t l l₂) (h : sound l₂.world) :
    sound l.world := by
  induction leads using Relation.ReflTransGen.head_induction_on with
  | refl => exact h
  | head step _ ih => exact lasting.of_next? step.2 ih

theorem of_run {r : Routine E} {l₂ : Loop E W} {o : Outcome}
    (ran : l.run handler r scope = (l₂, some o)) (h : sound l₂.world) : sound l.world := by
  have begun := lasting.of_leads (run_eq_some_iff.1 ran).1 h
  let task : Task E := ⟨.start r, none, false, scope, none⟩
  have last : (l.tasks ++ [task])[l.tasks.length]? = some task := List.getElem?_concat_length
  exact lasting.of_exec (l := { l with tasks := l.tasks ++ [task] }) (Within.inScope last) begun

end Lasting

/-- A loop mirrors itself in another world, if its routines do. -/
theorem mirrors_self {handler' : Handler E W'} {v : W'} (related : V l.world v)
    (self : ∀ scope r, Routine.Mirrors handler handler' sound V scope r r) :
    Mirrors handler handler' sound V l ⟨l.now, v, l.tasks, l.ready, l.timers, l.lock⟩ := by
  refine ⟨rfl, related, rfl, fun {t task task'} e e' => ?_, rfl, rfl, rfl⟩
  obtain rfl := Option.some.inj (e.symm.trans e')
  refine ⟨?_, rfl, rfl, rfl, rfl⟩
  cases task.wait with
  | start r => exact .start (self _ r)
  | sleep k => exact .sleep fun wake => self _ (k wake)
  | race part k => exact .race fun finish => self _ (k finish)
  | drain part forwarded k => exact .drain fun finish => self _ (k finish)
  | lock k => exact .lock fun wake => self _ (k wake)
  | «over» o => exact .over o

/-! ## Operations of the loop -/

namespace Mirrors

variable (h : Mirrors handler handler' sound V l l')

include h

theorem counterpart {task : Task E} (e : l.tasks[t]? = some task) :
    ∃ task', l'.tasks[t]? = some task' ∧ Task.Mirrors handler handler' sound V task task' := by
  have inside : t < l'.tasks.length := h.length ▸ (List.getElem?_eq_some_iff.1 e).1
  exact ⟨_, List.getElem?_eq_getElem inside, h.task e (List.getElem?_eq_getElem inside)⟩

theorem absent (e : l.tasks[t]? = none) : l'.tasks[t]? = none := by
  rw [List.getElem?_eq_none_iff] at e ⊢
  rwa [h.length]

theorem outcome?_eq (t : Nat) : l'.outcome? t = l.outcome? t := by
  unfold Loop.outcome?
  cases e : l.tasks[t]? with
  | none => rw [h.absent e]; rfl
  | some task =>
    obtain ⟨task', e', m⟩ := h.counterpart e
    rw [e']
    simp only [Option.bind_some, Task.outcome?]
    have waits := m.wait
    generalize task.wait = w, task'.wait = w' at waits
    cases waits <;> rfl

theorem isOver_eq (t : Nat) : l'.isOver t = l.isOver t := by
  unfold Loop.isOver
  rw [h.outcome?_eq]

theorem awaits_eq (racer part : Nat) : l'.awaits racer part = l.awaits racer part := by
  unfold Loop.awaits
  cases e : l.tasks[racer]? with
  | none => rw [h.absent e]
  | some task =>
    obtain ⟨task', e', m⟩ := h.counterpart e
    rw [e']
    have waits := m.wait
    obtain ⟨w, signal, must, scope, racer?⟩ := task
    obtain ⟨w', signal', must', scope', racer?'⟩ := task'
    obtain rfl : signal' = signal := m.signal
    cases waits <;> cases signal' <;> rfl

theorem lockIsFree_eq : l'.lockIsFree = l.lockIsFree := by
  unfold lockIsFree
  rw [h.lock]
  congr 2
  funext t
  cases e : l.tasks[t]? with
  | none => rw [h.absent e]; rfl
  | some task =>
    obtain ⟨task', e', m⟩ := h.counterpart e
    simp only [e', Option.any_some, Task.isStopped, m.signal]

/-- Tasks that mirror one another are changed alike. -/
theorem updateTask {f : Task E → Task E} {g : Task E' → Task E'}
    (keeps : ∀ task task', l.tasks[t]? = some task →
      Task.Mirrors handler handler' sound V task task' →
      Task.Mirrors handler handler' sound V (f task) (g task')) :
    Mirrors handler handler' sound V (l.updateTask t f) (l'.updateTask t g) := by
  refine ⟨h.now, h.world, ?_, fun {j task task'} e e' => ?_, h.ready, h.timers, h.lock⟩
  · rw [length_updateTask, length_updateTask, h.length]
  · by_cases eq : j = t
    · subst eq
      have inside : j < l.tasks.length := by
        rw [← length_updateTask (l := l) (t := j) f]
        exact (List.getElem?_eq_some_iff.1 e).1
      have found : l.tasks[j]? = some l.tasks[j] := List.getElem?_eq_getElem inside
      obtain ⟨task₀, found', m⟩ := h.counterpart found
      obtain rfl := Option.some.inj ((tasks_updateTask_self found).symm.trans e)
      obtain rfl := Option.some.inj ((tasks_updateTask_self found').symm.trans e')
      exact keeps _ _ found m
    · exact h.task ((tasks_updateTask_of_ne eq).symm.trans e)
        ((tasks_updateTask_of_ne eq).symm.trans e')

theorem withWorld {w : W} {w' : W'} (related : V w w') :
    Mirrors handler handler' sound V { l with world := w } { l' with world := w' } :=
  ⟨h.now, related, h.length, h.task, h.ready, h.timers, h.lock⟩

theorem withReady (jobs : List Job) :
    Mirrors handler handler' sound V { l with ready := jobs } { l' with ready := jobs } :=
  ⟨h.now, h.world, h.length, h.task, rfl, h.timers, h.lock⟩

theorem withNow (now : Rat) :
    Mirrors handler handler' sound V { l with now := now } { l' with now := now } :=
  ⟨rfl, h.world, h.length, h.task, h.ready, h.timers, h.lock⟩

theorem enqueue (job : Job) :
    Mirrors handler handler' sound V (l.enqueue job) (l'.enqueue job) :=
  ⟨h.now, h.world, h.length, h.task, congrArg (· ++ [job]) h.ready, h.timers, h.lock⟩

theorem addTimer (t : Nat) (d : Rat) :
    Mirrors handler handler' sound V (l.addTimer t d) (l'.addTimer t d) := by
  refine ⟨h.now, h.world, h.length, h.task, h.ready, ?_, h.lock⟩
  simp only [Loop.addTimer, h.timers, h.now]

theorem setLock (lock : Lock) :
    Mirrors handler handler' sound V (l.setLock lock) (l'.setLock lock) :=
  ⟨h.now, h.world, h.length, h.task, h.ready, h.timers, rfl⟩

theorem resolve (t : Nat) (signal : Wake) :
    Mirrors handler handler' sound V (l.resolve t signal) (l'.resolve t signal) := by
  have signalled := h.updateTask (t := t) (f := fun task => { task with signal? := some signal })
    (g := fun task => { task with signal? := some signal })
    fun _ _ _ m => ⟨m.wait, rfl, m.mustCancel, m.scope, m.racer⟩
  exact ⟨signalled.now, signalled.world, signalled.length, signalled.task,
    congrArg (· ++ [Job.wake t]) signalled.ready, congrArg (List.filter fun timer : Timer => timer.task != t) signalled.timers,
    signalled.lock⟩

/-- Cancellations are remembered alike. -/
theorem mustCancel (t : Nat) :
    Mirrors handler handler' sound V (l.updateTask t fun task => { task with mustCancel := true })
      (l'.updateTask t fun task => { task with mustCancel := true }) :=
  h.updateTask fun _ _ _ m => ⟨m.wait, m.signal, rfl, m.scope, m.racer⟩

theorem wait {w : Wait E} {w' : Wait E'}
    (m : ∀ task, l.tasks[t]? = some task → Wait.Mirrors handler handler' sound V task.scope w w') :
    Mirrors handler handler' sound V (l.wait t w) (l'.wait t w') :=
  h.updateTask fun task _ e m' => ⟨m task e, rfl, m'.mustCancel, m'.scope, m'.racer⟩

theorem append {task : Task E} {task' : Task E'}
    (m : Task.Mirrors handler handler' sound V task task') :
    Mirrors handler handler' sound V { l with tasks := l.tasks ++ [task] }
      { l' with tasks := l'.tasks ++ [task'] } := by
  refine ⟨h.now, h.world, ?_, fun {j task₁ task₁'} e e' => ?_, h.ready, h.timers, h.lock⟩
  · simp only [List.length_append, h.length, List.length_singleton]
  · rcases getElem?_concat_cases e with old | ⟨rfl, rfl⟩
    · have inside := (List.getElem?_eq_some_iff.1 old).1
      exact h.task old ((List.getElem?_append_left (h.length ▸ inside)).symm.trans e')
    · rw [← h.length] at e'
      obtain rfl := Option.some.inj (List.getElem?_concat_length.symm.trans e')
      exact m

theorem spawn {r : Routine E} {r' : Routine E'} (m : Routine.Mirrors handler handler' sound V scope r r')
    (racer? : Option Nat) :
    Mirrors handler handler' sound V (l.spawn r scope racer?).1 (l'.spawn r' scope racer?).1 := by
  have begun : Task.Mirrors handler handler' sound V ⟨.start r, some .resumed, false, scope, racer?⟩
      ⟨.start r', some .resumed, false, scope, racer?⟩ := ⟨.start m, rfl, rfl, rfl, rfl⟩
  have added := (h.append begun).enqueue (.wake l.tasks.length)
  simp only [Loop.spawn, h.length]
  exact added

theorem settle (t : Nat) (o : Outcome) :
    Mirrors handler handler' sound V (l.settle t o) (l'.settle t o) := by
  have racer : (l'.tasks[t]?).bind Task.racer? = (l.tasks[t]?).bind Task.racer? := by
    cases e : l.tasks[t]? with
    | none => rw [h.absent e]; rfl
    | some task =>
      obtain ⟨task', e', m⟩ := h.counterpart e
      simp only [e', Option.bind_some, m.racer]
  have ended := h.updateTask (t := t) (f := fun task => { task with wait := .over o, signal? := none })
    (g := fun task => { task with wait := .over o, signal? := none })
    fun _ _ _ m => ⟨.over o, rfl, m.mustCancel, m.scope, m.racer⟩
  rw [settle_eq, settle_eq, racer]
  simp only [ended.awaits_eq]
  split
  · split
    · exact ended.enqueue _
    · exact ended
  · exact ended

theorem wakeFirst : Mirrors handler handler' sound V l.wakeFirst l'.wakeFirst := by
  unfold Loop.wakeFirst
  rw [h.lock]
  split
  · exact h
  · rename_i t _ _
    have signal : (l'.tasks[t]?).any (·.signal?.isNone) = (l.tasks[t]?).any (·.signal?.isNone) := by
      cases e : l.tasks[t]? with
      | none => rw [h.absent e]; rfl
      | some task =>
        obtain ⟨task', e', m⟩ := h.counterpart e
        simp only [e', Option.any_some, m.signal]
    rw [signal]
    split
    · exact h.resolve _ _
    · exact h

theorem cancel (bound t : Nat) :
    Mirrors handler handler' sound V (Loop.cancel bound t l) (Loop.cancel bound t l') := by
  induction bound generalizing t with
  | zero => exact h
  | succ bound ih =>
    unfold Loop.cancel
    cases e : l.tasks[t]? with
    | none => rw [h.absent e]; exact h
    | some task =>
      obtain ⟨task', e', m⟩ := h.counterpart e
      rw [e']
      have waits := m.wait
      have signal := m.signal
      obtain ⟨w, s, must, scope, racer?⟩ := task
      obtain ⟨w', s', must', scope', racer?'⟩ := task'
      obtain rfl : s' = s := signal
      cases waits with
      | «over» o => exact h
      | @drain part _ k k' goesOn =>
        cases s' with
        | some s => exact h.mustCancel t
        | none =>
          simp only [h.isOver_eq]
          split
          · exact h.mustCancel t
          · -- Whatever the cancellation of the part did to the task, its scope is the same.
            have own : (Loop.cancel bound part l).Within (InScope t scope) fun _ => True :=
              Within.cancel steady_inScope bound part (Within.inScope e)
            refine (ih part).updateTask fun task _ e₁ m' =>
              ⟨.drain ?_, m'.signal, m'.mustCancel, m'.scope, m'.racer⟩
            rw [own.task e₁ rfl]
            exact goesOn
      | start m => cases s' <;> first | exact h.mustCancel t | exact h.resolve t .cancelled
      | sleep m => cases s' <;> first | exact h.mustCancel t | exact h.resolve t .cancelled
      | race m => cases s' <;> first | exact h.mustCancel t | exact h.resolve t .cancelled
      | lock m => cases s' <;> first | exact h.mustCancel t | exact h.resolve t .cancelled

theorem notify (racer part : Nat) :
    Mirrors handler handler' sound V (l.notify racer part) (l'.notify racer part) := by
  unfold Loop.notify
  cases e : l.tasks[racer]? with
  | none => rw [h.absent e]; exact h
  | some task =>
    obtain ⟨task', e', m⟩ := h.counterpart e
    rw [e']
    have waits := m.wait
    have signal := m.signal
    obtain ⟨w, s, must, scope, racer?⟩ := task
    obtain ⟨w', s', must', scope', racer?'⟩ := task'
    obtain rfl : s' = s := signal
    cases waits with
    | race m | drain m =>
      cases s' with
      | some s => exact h
      | none =>
        simp only
        split
        · exact h.resolve racer _
        · exact h
    | _ => exact h


end Mirrors

/-! ## Steps -/

namespace Mirrors

section

variable (lasting : Lasting handler sound)

include lasting

/-- Two tasks of which one mirrors the other run until they wait or end. -/
theorem exec {r : Routine E} {r' : Routine E'} (h : Mirrors handler handler' sound V l l')
    (m : Routine.Mirrors handler handler' sound V scope r r')
    (own : l.Within (InScope t scope) fun _ => True)
    (fine : sound (exec handler scope t r l).world) :
    Mirrors handler handler' sound V (Loop.exec handler scope t r l)
      (Loop.exec handler' scope t r' l') := by
  have judged {l : Loop E W} (own : l.Within (InScope t scope) fun _ => True) {w : Wait E}
      {w' : Wait E'} (m : Wait.Mirrors handler handler' sound V scope w w') :
      ∀ task, l.tasks[t]? = some task →
        Wait.Mirrors handler handler' sound V task.scope w w' := by
    intro task e
    rw [own.task e rfl]
    exact m
  induction m generalizing l l' with
  | done o => exact h.settle t o
  | @perform op op' k k' keeps _ ih =>
    have after : sound (handler scope op l.world).2 :=
      lasting.of_exec (l := { l with world := _ }) ⟨own.task, trivial⟩ fine
    exact ih _ _ h.world after (h.withWorld (keeps _ _ h.world after)) ⟨own.task, trivial⟩ fine
  | extra keeps _ ih => exact ih _ _ h.world (h.withWorld (keeps _ _ h.world)) own fine
  | clock _ ih =>
    simp only [Loop.exec, h.now]
    exact ih l.now h own fine
  | extraClock _ ih => exact ih l'.now h own fine
  | sleep m _ =>
    have asleep := h.wait (t := t) (judged own (.sleep m))
    unfold Loop.exec
    simp only
    split
    · exact asleep.resolve t .resumed
    · exact asleep.addTimer t _
  | race m m' _ _ =>
    have spawned := h.spawn m (some t)
    have racing := spawned.wait (t := t) (w := .race l.tasks.length _)
      (judged (own.spawn fun _ => rfl) (.race m'))
    unfold Loop.exec
    simp only [Loop.spawn, h.length] at racing ⊢
    split
    · exact racing.addTimer t _
    · exact racing
  | acquire m ih =>
    unfold Loop.exec at fine ⊢
    rw [h.lockIsFree_eq, h.lock]
    split
    · rename_i free
      rw [if_pos free] at fine
      exact ih _ (h.setLock _) (own.setLock _) fine
    · exact (h.setLock _).wait (judged (own.setLock _) (.lock m))
  | release _ ih =>
    have freed := (h.setLock ⟨false, l.lock.waiters⟩).wakeFirst
    unfold Loop.exec at fine ⊢
    rw [h.lock]
    exact ih freed (own.setLock _).wakeFirst fine

/-- So do two tasks that go on after their wait. -/
theorem resume {task : Task E} {task' : Task E'} {signal : Wake}
    (h : Mirrors handler handler' sound V l l') (m : Task.Mirrors handler handler' sound V task task')
    (own : l.Within (InScope t task.scope) fun _ => True)
    (fine : sound (resume handler task t signal l).world) :
    Mirrors handler handler' sound V (Loop.resume handler task t signal l)
      (Loop.resume handler' task' t signal l') := by
  have cancelled (part : Nat) :
      (Loop.cancel l.tasks.length part l).Within (InScope t task.scope) fun _ => True :=
    own.cancel steady_inScope _ part
  obtain ⟨w, s, must, scope, racer?⟩ := task
  obtain ⟨w', s', must', scope', racer?'⟩ := task'
  obtain rfl : scope' = scope := m.scope
  have waits := m.wait
  simp only at waits own cancelled
  unfold Loop.resume at fine ⊢
  cases waits with
  | start goesOn =>
    cases signal with
    | resumed => exact h.exec lasting goesOn own fine
    | cancelled => exact h.settle t _
  | sleep goesOn => exact h.exec lasting (goesOn signal) own fine
  | @race part k k' goesOn =>
    cases signal with
    | cancelled =>
      simp only [h.length]
      exact (h.cancel _ part).exec lasting (goesOn .cancelled) (cancelled part) fine
    | resumed =>
      simp only [h.length, h.outcome?_eq]
      cases ended : l.outcome? part with
      | some o =>
        simp only [ended] at fine ⊢
        exact h.exec lasting (goesOn (.settled o)) own fine
      | none =>
        refine (h.cancel _ part).wait fun task e => ?_
        rw [(cancelled part).task e rfl]
        exact .drain goesOn
  | drain goesOn =>
    cases signal with
    | resumed => exact h.exec lasting (goesOn .expired) own fine
    | cancelled => exact h.exec lasting (goesOn .cancelled) own fine
  | lock goesOn =>
    simp only [h.lock] at fine ⊢
    have left := h.setLock ⟨l.lock.held, l.lock.waiters.filter (· != t)⟩
    have ownLeft := own.setLock ⟨l.lock.held, l.lock.waiters.filter (· != t)⟩
    cases signal with
    | resumed => exact (left.setLock _).exec lasting (goesOn .resumed) (ownLeft.setLock _) fine
    | cancelled =>
      by_cases held : l.lock.held = true
      · simp only [Loop.setLock, held, if_true] at fine left ownLeft ⊢
        exact left.exec lasting (goesOn .cancelled) ownLeft fine
      · simp only [Loop.setLock, held] at fine left ownLeft ⊢
        exact left.wakeFirst.exec lasting (goesOn .cancelled) ownLeft.wakeFirst fine
  | «over» o => exact h

theorem runJob {job : Job} (h : Mirrors handler handler' sound V l l')
    (fine : sound (runJob handler job l).world) :
    Mirrors handler handler' sound V (Loop.runJob handler job l) (Loop.runJob handler' job l') := by
  cases job with
  | notify racer part => exact h.notify racer part
  | wake t =>
    cases e : l.tasks[t]? with
    | none =>
      simp only [Loop.runJob, e, h.absent e]
      exact h
    | some task =>
      obtain ⟨task', e', m⟩ := h.counterpart e
      rw [runJob_wake e] at fine ⊢
      rw [runJob_wake e', m.mustCancel, m.signal]
      have cleared := h.updateTask (t := t)
        (f := fun task => { task with signal? := none, mustCancel := false })
        (g := fun task => { task with signal? := none, mustCancel := false })
        fun _ _ _ m => ⟨m.wait, rfl, rfl, m.scope, m.racer⟩
      exact cleared.resume lasting m (Within.inScope e).signal fine

/-- Where the first loop makes a step, the second one makes the same. -/
theorem next? (h : Mirrors handler handler' sound V l l') (next : l.next? handler = some l₁)
    (fine : sound l₁.world) :
    ∃ l₁', l'.next? handler' = some l₁' ∧ Mirrors handler handler' sound V l₁ l₁' := by
  cases ready : l.ready with
  | cons job rest =>
    obtain rfl := Option.some.inj ((next?_of_job ready).symm.trans next)
    exact ⟨_, next?_of_job (h.ready.trans ready), (h.withReady rest).runJob lasting fine⟩
  | nil =>
    rw [next?_of_ready_nil ready] at next
    obtain ⟨due, first, rfl⟩ := Option.map_eq_some_iff.1 next
    have fired (timers : List Timer) {l : Loop E W} {l' : Loop E' W'}
        (h : Mirrors handler handler' sound V l l') :
        Mirrors handler handler' sound V
          (timers.foldl (fun l timer => l.resolve timer.task .resumed) l)
          (timers.foldl (fun l timer => l.resolve timer.task .resumed) l') := by
      induction timers generalizing l l' with
      | nil => exact h
      | cons timer timers ih => exact ih (h.resolve timer.task .resumed)
    refine ⟨_, (next?_of_ready_nil (h.ready.trans ready)).trans ?_, fired _ (h.withNow due)⟩
    rw [h.timers, first]
    rfl

theorem leads {l₂ : Loop E W} (h : Mirrors handler handler' sound V l l')
    (leads : Leads handler t l l₂) (fine : sound l₂.world) :
    ∃ l₂', Leads handler' t l' l₂' ∧ Mirrors handler handler' sound V l₂ l₂' := by
  induction leads using Relation.ReflTransGen.head_induction_on generalizing l' with
  | refl => exact ⟨l', .refl l', h⟩
  | head step rest ih =>
    obtain ⟨l₁', next, h₁⟩ := h.next? lasting step.2 (lasting.of_leads rest fine)
    obtain ⟨l₂', leads', h₂⟩ := ih h₁
    exact ⟨l₂', leads'.step ((h.isOver_eq t).trans step.1) next, h₂⟩

/-- Where a run ends, the run of a routine that mirrors the first one ends with the same outcome. -/
theorem run {r : Routine E} {r' : Routine E'} {l₂ : Loop E W} {o : Outcome}
    (h : Mirrors handler handler' sound V l l')
    (m : Routine.Mirrors handler handler' sound V scope r r')
    (ran : l.run handler r scope = (l₂, some o)) (fine : sound l₂.world) :
    ∃ l₂', l'.run handler' r' scope = (l₂', some o) ∧ Mirrors handler handler' sound V l₂ l₂' := by
  obtain ⟨leads, ended⟩ := run_eq_some_iff.1 ran
  have startedAlike : Mirrors handler handler' sound V (l.started handler r scope)
      (l'.started handler' r' scope) := by
    let task : Task E := ⟨.start r, none, false, scope, none⟩
    have begun : Task.Mirrors handler handler' sound V task ⟨.start r', none, false, scope, none⟩ :=
      ⟨.start m, rfl, rfl, rfl, rfl⟩
    have last : (l.tasks ++ [task])[l.tasks.length]? = some task := List.getElem?_concat_length
    have own : Within (InScope l.tasks.length task.scope) (fun _ => True)
        { l with tasks := l.tasks ++ [task] } := Within.inScope last
    unfold started
    rw [h.length]
    exact (h.append begun).exec lasting m own (lasting.of_leads leads fine)
  obtain ⟨l₂', leads', h₂⟩ := startedAlike.leads lasting leads fine
  refine ⟨l₂', run_eq_some_iff.2 ⟨?_, ?_⟩, h₂⟩
  · rwa [h.length]
  · rw [h.length, h₂.outcome?_eq, ended]

end

/-- After the same moves, the loops mirror one another. -/
theorem after {routine : A → Routine E} {routine' : A → Routine E'}
    (h : Mirrors handler handler' sound V l l') (always : ∀ w, sound w)
    (m : ∀ a scope, Routine.Mirrors handler handler' sound V scope (routine a) (routine' a))
    (moves : List (Move A)) :
    Mirrors handler handler' sound V (l.after handler routine moves)
      (l'.after handler' routine' moves) := by
  have lasting : Lasting handler sound := fun _ _ w _ => always w
  induction moves generalizing l l' with
  | nil => exact h
  | cons move moves ih =>
    refine ih ?_
    cases move with
    | start a =>
      simp only [move, h.length]
      exact h.spawn (m a l.tasks.length) none
    | job n =>
      simp only [move, h.ready]
      split
      · exact (h.withReady _).runJob lasting (always _)
      · exact h
    | tick now => exact h.withNow now
    | fire t => exact h.resolve t .resumed
    | cancel t =>
      simp only [move, h.length]
      exact h.cancel l.tasks.length t

end Mirrors

end Loop

end GraphClient
