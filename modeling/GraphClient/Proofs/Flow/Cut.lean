import GraphClient.Proofs.Flow.Timed

/-!
# What cancelled tasks can still do

After a time limit has passed, the tasks under it go on having jobs in the queue for a while. They
reach no task up to the one that was cancelled first (`Loop.Cut`), whatever they do:

* `Cut.cancel`, `Cut.settle`, `Cut.exec`, … : each operation on a task above the cut keeps all that
  is below, the clock, and the jobs in the queue; it only adds jobs for tasks above (`Loop.Keeps`).
* `Cut.runJob`: so does each of their jobs.
-/

namespace GraphClient

variable {E : Effects} {W : Type}

open Routine (Unlocked)

/-- The job is for a task above the given one. -/
def Job.Above (c : Nat) : Job → Prop
  | .wake t => c < t
  | .notify racer _ => c < racer

/-- The wait is for a task above the given one, or for none, and not for the lock; the routines
that it can go on with satisfy a predicate. -/
def Wait.Above (c : Nat) (R : Routine E → Prop) : Wait E → Prop
  | .start r => R r
  | .sleep k => ∀ wake, R (k wake)
  | .race part k => c < part ∧ ∀ finish, R (k finish)
  | .drain part _ k => c < part ∧ ∀ finish, R (k finish)
  | .lock _ => False
  | .over _ => True

section

variable (handler : Handler E W) (scope : Nat) (J : W → Prop) (c : Nat)

/-- The task knows no task below the given one. -/
structure Task.Above (task : Task E) : Prop where
  mine : task.scope = scope
  wait : task.wait.Above c (Unlocked handler scope J)
  racer : ∀ racer, task.racer? = some racer → c ≤ racer

namespace Loop

/-- The tasks above a given one know no task below it. -/
structure Cut (l : Loop E W) : Prop where
  wide : c < l.tasks.length
  above : ∀ {t task}, c < t → l.tasks[t]? = some task → task.Above handler scope J c
  world : J l.world

/-- The task at the cut waits for none of those above. -/
def Deaf (c : Nat) (l : Loop E W) : Prop := ∀ part, c < part → l.awaits c part = false

/-- Nothing but the tasks above a cut has changed, and the queue holds new jobs for them. -/
structure Keeps (l l' : Loop E W) : Prop where
  now : l'.now = l.now
  below : ∀ t ≤ c, l'.tasks[t]? = l.tasks[t]?
  queue : ∃ jobs, l'.ready = l.ready ++ jobs ∧ ∀ job ∈ jobs, job.Above c
  cut : l'.Cut handler scope J c

end Loop

end

namespace Loop

variable {handler : Handler E W} {scope : Nat} {J : W → Prop} {c : Nat} {l l' l'' : Loop E W}

theorem Keeps.deaf (h : Keeps handler scope J c l l') (deaf : l.Deaf c) : l'.Deaf c :=
  fun part hp => (awaits_congr (h.below c (Nat.le_refl c))).trans (deaf part hp)

theorem Keeps.trans (h : Keeps handler scope J c l l') (h' : Keeps handler scope J c l' l'') :
    Keeps handler scope J c l l'' := by
  obtain ⟨jobs, ready, above⟩ := h.queue
  obtain ⟨jobs', ready', above'⟩ := h'.queue
  refine ⟨h'.now.trans h.now, fun t le => (h'.below t le).trans (h.below t le), ?_, h'.cut⟩
  refine ⟨jobs ++ jobs', by rw [ready', ready, List.append_assoc], fun job mem => ?_⟩
  rcases List.mem_append.1 mem with old | new
  · exact above job old
  · exact above' job new

namespace Cut

/-- Where the same tasks are, clock and queue apart, there is the same cut. -/
theorem keeps (h : l.Cut handler scope J c) (tasks : l'.tasks = l.tasks)
    (world : l'.world = l.world) (now : l'.now = l.now) {jobs : List Job}
    (ready : l'.ready = l.ready ++ jobs) (above : ∀ job ∈ jobs, job.Above c) :
    Keeps handler scope J c l l' where
  now := now
  below t _ := by rw [tasks]
  queue := ⟨jobs, ready, above⟩
  cut :=
    { wide := tasks ▸ h.wide
      above := fun ht e => h.above ht (tasks ▸ e)
      world := world ▸ h.world }

theorem refl (h : l.Cut handler scope J c) : Keeps handler scope J c l l :=
  h.keeps rfl rfl rfl (List.append_nil l.ready).symm nofun

theorem enqueue (h : l.Cut handler scope J c) {job : Job} (above : job.Above c) :
    Keeps handler scope J c l (l.enqueue job) :=
  h.keeps rfl rfl rfl rfl fun _ mem => List.mem_singleton.1 mem ▸ above

theorem timers (h : l.Cut handler scope J c) (timers : List Timer) :
    Keeps handler scope J c l { l with timers := timers } :=
  h.keeps rfl rfl rfl (List.append_nil l.ready).symm nofun

theorem updateTask (h : l.Cut handler scope J c) {t : Nat} (ht : c < t) {f : Task E → Task E}
    (above : ∀ task, task.Above handler scope J c → (f task).Above handler scope J c) :
    Keeps handler scope J c l (l.updateTask t f) where
  now := rfl
  below t' le := tasks_updateTask_of_ne (by omega)
  queue := ⟨[], (List.append_nil l.ready).symm, nofun⟩
  cut :=
    { wide := by
        rw [length_updateTask]
        exact h.wide
      above := by
        intro t' task' ht' e
        simp only [Loop.updateTask, List.getElem?_modify, Option.map_eq_map,
          Option.map_eq_some_iff] at e
        obtain ⟨task, e, rfl⟩ := e
        split
        · exact above task (h.above ht' e)
        · exact h.above ht' e
      world := h.world }

theorem resolve (h : l.Cut handler scope J c) {t : Nat} (ht : c < t) (signal : Wake) :
    Keeps handler scope J c l (l.resolve t signal) := by
  have signalled : Keeps handler scope J c l
      (l.updateTask t fun task => { task with signal? := some signal }) :=
    h.updateTask ht fun _ above => ⟨above.mine, above.wait, above.racer⟩
  have dropped : Keeps handler scope J c l
      ((l.updateTask t fun task => { task with signal? := some signal }).dropTimer t) :=
    signalled.trans (signalled.cut.timers _)
  have woken : Job.Above c (.wake t) := ht
  exact dropped.trans (dropped.cut.enqueue woken)

theorem wait (h : l.Cut handler scope J c) {t : Nat} (ht : c < t) {w : Wait E}
    (above : w.Above c (Unlocked handler scope J)) : Keeps handler scope J c l (l.wait t w) :=
  h.updateTask ht fun _ above' => ⟨above'.mine, above, above'.racer⟩

theorem cancel (h : l.Cut handler scope J c) (bound : Nat) {t : Nat} (ht : c < t) :
    Keeps handler scope J c l (Loop.cancel bound t l) := by
  induction bound generalizing t with
  | zero => exact h.refl
  | succ bound ih =>
    have remember : Keeps handler scope J c l
        (l.updateTask t fun task => { task with mustCancel := true }) :=
      h.updateTask ht fun _ above => ⟨above.mine, above.wait, above.racer⟩
    unfold Loop.cancel
    split
    · exact h.refl
    · rename_i task e
      split
      · exact h.refl
      · exact remember
      · rename_i part forwarded k drains _
        split
        · exact remember
        · have above : (Wait.drain part true k).Above c (Unlocked handler scope J) := by
            have drained := (h.above ht e).wait
            rwa [drains] at drained
          have cancelled := ih (t := part) above.1
          exact cancelled.trans
            (cancelled.cut.updateTask ht fun _ above' => ⟨above'.mine, above, above'.racer⟩)
      · exact h.resolve ht .cancelled

theorem notify (h : l.Cut handler scope J c) {racer : Nat} (hr : c < racer) (part : Nat) :
    Keeps handler scope J c l (l.notify racer part) := by
  unfold Loop.notify
  split
  · split
    · exact h.resolve hr _
    · exact h.refl
  · split
    · exact h.resolve hr _
    · exact h.refl
  · exact h.refl

theorem settle (h : l.Cut handler scope J c) (deaf : l.Deaf c) {t : Nat} (ht : c < t)
    (outcome : Outcome) :
    Keeps handler scope J c l (l.settle t outcome) := by
  have ended : Keeps handler scope J c l
      (l.updateTask t fun task => { task with wait := .over outcome, signal? := none }) :=
    h.updateTask ht fun _ above => ⟨above.mine, trivial, above.racer⟩
  rw [settle_eq]
  simp only
  split
  · rename_i racer racing
    split
    · rename_i told
      suffices above : Job.Above c (.notify racer t) from ended.trans (ended.cut.enqueue above)
      obtain ⟨task, e, racing⟩ := Option.bind_eq_some_iff.1 racing
      rcases Nat.lt_or_eq_of_le ((h.above ht e).racer racer racing) with above | rfl
      · exact above
      · -- The task at the cut does not wait for those above.
        rw [ended.deaf deaf t ht] at told
        cases told
    · exact ended
  · exact ended

/-- A task above the cut that never uses the lock keeps what is below. -/
theorem exec {r : Routine E} (unlocked : Unlocked handler scope J r) {t : Nat} (ht : c < t)
    (h : l.Cut handler scope J c) (deaf : l.Deaf c) :
    Keeps handler scope J c l (exec handler scope t r l) := by
  induction unlocked generalizing l with
  | done o => exact h.settle deaf ht o
  | perform keeps _ ih =>
    have next : Cut handler scope J c { l with world := (handler scope _ l.world).2 } :=
      ⟨h.wide, h.above, keeps l.world h.world⟩
    have rest := ih l.world h.world next deaf
    exact ⟨rest.now, rest.below, rest.queue, rest.cut⟩
  | sleep unlocked _ =>
    have asleep := h.wait (w := .sleep _) ht unlocked
    unfold Loop.exec
    simp only
    split
    · exact asleep.trans (asleep.cut.resolve ht .resumed)
    · exact asleep.trans (asleep.cut.timers _)
  | @race part limit? k hpart hk _ _ =>
    have spawned : Keeps handler scope J c l (l.spawn part scope (some t)).1 := by
      refine ⟨rfl, fun t' le => tasks_spawn_of_lt (by have := h.wide; omega), ?_, ?_⟩
      · exact ⟨[.wake l.tasks.length], rfl, fun _ mem => List.mem_singleton.1 mem ▸ h.wide⟩
      · refine ⟨?_, fun {t' task'} ht' e => ?_, h.world⟩
        · rw [length_spawn]
          have := h.wide
          omega
        · rcases Nat.lt_or_ge t' l.tasks.length with old | new
          · exact h.above ht' ((tasks_spawn_of_lt old).symm.trans e)
          · have : t' < l.tasks.length + 1 := by
              rw [← length_spawn part scope (some t)]
              exact (List.getElem?_eq_some_iff.1 e).1
            obtain rfl : t' = l.tasks.length := by omega
            obtain rfl := Option.some.inj (tasks_spawn_self.symm.trans e)
            refine ⟨rfl, hpart, fun racer racing => ?_⟩
            obtain rfl := Option.some.inj racing
            exact Nat.le_of_lt ht
    have racing := spawned.trans
      (spawned.cut.wait (w := .race l.tasks.length k) ht ⟨h.wide, hk⟩)
    cases limit? with
    | none => exact racing
    | some limit => exact racing.trans (racing.cut.timers _)

theorem resume {task : Task E} {t : Nat} (signal : Wake) (ht : c < t)
    (above : task.Above handler scope J c) (h : l.Cut handler scope J c) (deaf : l.Deaf c) :
    Keeps handler scope J c l (resume handler task t signal l) := by
  have own : task.scope = scope := above.mine
  have allowed := above.wait
  unfold Loop.resume
  rw [own]
  split <;> rename_i wait <;> rw [wait] at allowed
  · exact h.exec allowed ht deaf
  · exact h.settle deaf ht _
  · exact h.exec (allowed _) ht deaf
  · have cancelled := h.cancel l.tasks.length allowed.1
    exact cancelled.trans (cancelled.cut.exec (allowed.2 _) ht (cancelled.deaf deaf))
  · split
    · exact h.exec (allowed.2 _) ht deaf
    · have cancelled := h.cancel l.tasks.length allowed.1
      exact cancelled.trans (cancelled.cut.wait ht allowed)
  · exact h.exec (allowed.2 _) ht deaf
  · exact h.exec (allowed.2 _) ht deaf
  · exact allowed.elim
  · exact h.refl

theorem runJob {job : Job} (above : job.Above c) (h : l.Cut handler scope J c)
    (deaf : l.Deaf c) :
    Keeps handler scope J c l (runJob handler job l) := by
  cases job with
  | notify racer part => exact h.notify above part
  | wake t =>
    unfold Loop.runJob
    simp only
    split
    · exact h.refl
    · rename_i task e
      have signalled : Keeps handler scope J c l
          (l.updateTask t fun task => { task with signal? := none, mustCancel := false }) :=
        h.updateTask above fun _ above => ⟨above.mine, above.wait, above.racer⟩
      exact signalled.trans
        (signalled.cut.resume _ above (h.above above e) (signalled.deaf deaf))

end Cut

end Loop

end GraphClient
