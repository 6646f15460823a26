import GraphClient.Proofs.Flow.Steps

/-!
# The end of a race passes outwards

Tasks that race one another: the task of number `base` races the next one, this one the next again,
and so on. When one of them ends, all that race it are told, one after the other, while the tasks
above a cut may still have jobs in the queue.

* `leads_wake`, `leads_told`: a task that is to run, or is to be told of the end of its
  part, gets to go on.
* `leads_of_settle`: if each race passes on what its part ends with, the first task ends with what
  any of them ends with.
* `Draining`: a limit has passed, and its race waits for the part, which was cancelled.
* `leads_of_expiry`: from there the first task ends with the outcome of that race.
-/

namespace GraphClient

/-- The task is told of the end of its part, and was not cancelled itself. -/
def Wait.Expects {E : Effects} (part : Nat) (w : Wait E) : Prop :=
  (∃ k, w = .race part k) ∨ ∃ k, w = .drain part false k

/-- The task ends as soon as it is cancelled, and its part, if it has one, is above a cut. -/
def Wait.Stops {E : Effects} {W : Type} (handler : Handler E W) (scope : Nat) (J : W → Prop)
    (c : Nat) (w : Wait E) : Prop :=
  (∃ k, w = .sleep k ∧ Routine.AtOnce handler scope J (k .cancelled) (.error .cancelled)) ∨
  ∃ part k, w = .race part k ∧ c < part ∧
    Routine.AtOnce handler scope J (k .cancelled) (.error .cancelled)

namespace Loop

open Routine (AtOnce Guards)

variable {E : Effects} {W : Type} {handler : Handler E W} {scope : Nat} {J : W → Prop}
  {base c i : Nat} {l l' : Loop E W}

/-- The number of the task that races the one at a place, if there is one. -/
def parent? (base : Nat) : Nat → Option Nat
  | 0 => none
  | i + 1 => some (base + i)

/-- The task at a place that races the next one. -/
def racing (base scope i : Nat) (k : RaceEnd → Routine E) : Task E :=
  ⟨.race (base + i + 1) k, none, false, scope, parent? base i⟩

variable (handler scope J base) in
/-- The tasks before a place race one another, and pass on what their parts end with. -/
def PassOn (i : Nat) (l : Loop E W) : Prop :=
  ∀ j < i, ∃ k, (∀ o, AtOnce handler scope J (k (.settled o)) o) ∧
    l.tasks[base + j]? = some (racing base scope j k)

variable (handler scope J c) in
/-- All jobs are for tasks above the cut. -/
structure Quiet (l : Loop E W) : Prop where
  cut : l.Cut handler scope J c
  queue : ∀ job ∈ l.ready, job.Above c

theorem exec_atOnce {r : Routine E} {o : Outcome} (h : AtOnce handler scope J r o) (t : Nat)
    (hw : J l.world) :
    ∃ w, J w ∧ exec handler scope t r l = Loop.settle { l with world := w } t o := by
  induction h generalizing l with
  | done o => exact ⟨l.world, hw, rfl⟩
  | perform keeps _ ih =>
    exact ih l.world hw (l := { l with world := (handler scope _ l.world).2 }) (keeps l.world hw)

theorem PassOn.running (h : PassOn handler scope J base (i + 1) l) : l.isOver base = false := by
  obtain ⟨k, -, e⟩ := h 0 (Nat.succ_pos i)
  unfold isOver outcome?
  rw [← Nat.add_zero base, e]
  rfl

theorem PassOn.congr (h : PassOn handler scope J base i l)
    (same : ∀ j < i, l'.tasks[base + j]? = l.tasks[base + j]?) :
    PassOn handler scope J base i l' := by
  intro j hj
  obtain ⟨k, settled, e⟩ := h j hj
  exact ⟨k, settled, (same j hj).trans e⟩

theorem Deaf.congr (h : l.Deaf c) (same : l'.tasks[c]? = l.tasks[c]?) : l'.Deaf c :=
  fun part hp => (awaits_congr same).trans (h part hp)

theorem Cut.congr (h : l.Cut handler scope J c) (wide : l'.tasks.length = l.tasks.length)
    (same : ∀ t, c < t → l'.tasks[t]? = l.tasks[t]?) (world : J l'.world) :
    l'.Cut handler scope J c :=
  ⟨wide ▸ h.wide, fun ht e => h.above ht ((same _ ht).symm.trans e), world⟩

theorem isOver_resolve (t j : Nat) (signal : Wake) :
    (l.resolve t signal).isOver j = l.isOver j := by
  by_cases same : j = t
  · subst same
    unfold isOver outcome?
    cases e : l.tasks[j]? with
    | none =>
      have none : (l.resolve j signal).tasks[j]? = none := by
        rw [List.getElem?_eq_none_iff] at e ⊢
        exact (length_updateTask _).trans_le e
      rw [none]
    | some task =>
      rw [tasks_resolve_self e]
      rfl
  · exact isOver_congr (tasks_resolve_of_ne same)

/-- A task that is to run gets to go on, while the tasks above the cut have their jobs done. -/
theorem leads_wake {t : Nat} {task : Task E} {jobs : List Job} (hb : base ≤ c) (ht : t ≤ c)
    (h : l.Cut handler scope J c) (deaf : l.Deaf c) (running : l.isOver base = false)
    (e : l.tasks[t]? = some task) (ready : l.ready = jobs ++ [.wake t])
    (above : ∀ job ∈ jobs, job.Above c) :
    ∃ l', Leads handler base l (resume handler task t
        (if task.mustCancel then .cancelled else task.signal?.getD .resumed) l') ∧
      l'.Quiet handler scope J c ∧ l'.now = l.now ∧
      l'.tasks[t]? = some { task with signal? := none, mustCancel := false } ∧
      ∀ t' ≤ c, t' ≠ t → l'.tasks[t']? = l.tasks[t']? := by
  obtain ⟨l₁, leads, kept⟩ := h.skip hb deaf running ready above
  obtain ⟨more, ready₁, above₁⟩ := kept.queue
  have popped : l₁.ready = .wake t :: more := ready₁
  have e₁ : (Loop.tasks { l₁ with ready := more })[t]? = some task := (kept.below t ht).trans e
  let clear (task : Task E) : Task E := { task with signal? := none, mustCancel := false }
  refine ⟨Loop.updateTask { l₁ with ready := more } t clear, ?_, ⟨?_, above₁⟩, kept.now,
    tasks_updateTask_self e₁, fun t' le ne => ?_⟩
  · refine leads.trans (.job ((isOver_congr (kept.below base hb)).trans running) popped ?_)
    rw [runJob_wake e₁]
    exact .refl _
  · refine kept.cut.congr (length_updateTask _) (fun t' ht' => ?_) kept.cut.world
    exact tasks_updateTask_of_ne (by omega)
  · exact (tasks_updateTask_of_ne ne).trans (kept.below t' le)

/-- A task that is told of the end of its part gets to go on. -/
theorem leads_told {racer part : Nat} {w : Wait E} {racer? : Option Nat} {jobs : List Job}
    (hb : base ≤ c) (hr : racer < c) (h : l.Cut handler scope J c) (deaf : l.Deaf c)
    (running : l.isOver base = false)
    (e : l.tasks[racer]? = some ⟨w, none, false, scope, racer?⟩)
    (expects : w.Expects part)
    (ready : l.ready = jobs ++ [.notify racer part]) (above : ∀ job ∈ jobs, job.Above c) :
    ∃ l', Leads handler base l
        (resume handler ⟨w, some .resumed, false, scope, racer?⟩ racer .resumed l') ∧
      l'.Quiet handler scope J c ∧ l'.now = l.now ∧ ∀ t ≤ c, l'.tasks[t]? = l.tasks[t]? := by
  obtain ⟨l₁, leads, kept⟩ := h.skip hb deaf running ready above
  obtain ⟨more, ready₁, above₁⟩ := kept.queue
  have popped : l₁.ready = .notify racer part :: more := ready₁
  have e₁ : l₁.tasks[racer]? = some ⟨w, none, false, scope, racer?⟩ :=
    (kept.below racer (Nat.le_of_lt hr)).trans e
  have told : Loop.notify { l₁ with ready := more } racer part =
      Loop.resolve { l₁ with ready := more } racer .resumed := by
    unfold Loop.notify
    rcases expects with ⟨k, rfl⟩ | ⟨k, rfl⟩
    · simp only [e₁, if_true]
    · simp only [e₁, if_true, Bool.false_eq_true, if_false]
  have running₁ : l₁.isOver base = false := (isOver_congr (kept.below base hb)).trans running
  have resolved : (Loop.resolve { l₁ with ready := more } racer .resumed).Cut handler scope J c :=
    kept.cut.congr (length_updateTask _)
      (fun t ht => tasks_resolve_of_ne (by omega)) kept.cut.world
  have deaf' : (Loop.resolve { l₁ with ready := more } racer .resumed).Deaf c :=
    (kept.deaf deaf).congr (tasks_resolve_of_ne (by omega))
  obtain ⟨l', leads', quiet, now, self, others⟩ := leads_wake hb (Nat.le_of_lt hr) resolved deaf'
    ((isOver_resolve racer base .resumed).trans running₁) (tasks_resolve_self e₁) rfl above₁
  refine ⟨l', leads.trans (.job running₁ popped ?_), quiet, now.trans kept.now, fun t le => ?_⟩
  · rw [runJob, told]
    exact leads'
  · by_cases same : t = racer
    · subst same
      exact self.trans e.symm
    · exact (others t le same).trans ((tasks_resolve_of_ne same).trans (kept.below t le))

/-- The end of a task is told to the one that races it. -/
theorem ready_settle_expected {t racer : Nat} {task : Task E} {w : Wait E} {m : Bool}
    {racer? : Option Nat} (outcome : Outcome) (e : l.tasks[t]? = some task)
    (raced : task.racer? = some racer) (ne : racer ≠ t)
    (er : l.tasks[racer]? = some ⟨w, none, m, scope, racer?⟩) (expects : w.Expects t) :
    (l.settle t outcome).ready = l.ready ++ [.notify racer t] := by
  have awaits : (l.settle t outcome).awaits racer t = true := by
    unfold Loop.awaits
    rw [tasks_settle_of_ne l t outcome ne, er]
    rcases expects with ⟨k, rfl⟩ | ⟨k, rfl⟩
    · exact beq_self_eq_true t
    · exact beq_self_eq_true t
  rcases ready_settle outcome e with ⟨racer', raced', -, ready⟩ | ⟨untold, -⟩
  · obtain rfl := Option.some.inj (raced.symm.trans raced')
    exact ready
  · rw [untold racer raced] at awaits
    cases awaits

theorem deaf_settle {outcome : Outcome} {task : Task E} (e : l.tasks[c]? = some task) :
    (l.settle c outcome).Deaf c := by
  intro part _
  unfold Loop.awaits
  rw [tasks_settle, tasks_updateTask_self e]

theorem Cut.settle_le {t : Nat} (h : l.Cut handler scope J c) (ht : t ≤ c) (outcome : Outcome) :
    (l.settle t outcome).Cut handler scope J c :=
  h.congr (length_settle l t outcome)
    (fun t' ht' => tasks_settle_of_ne l t outcome (by omega)) (by rw [world_settle]; exact h.world)

/-- The end of a task is told to the one that races it. If this ends at once, it has ended when the
jobs before are done. -/
theorem leads_to_settle {part racer : Nat} {o o' : Outcome} {task : Task E} {w : Wait E}
    {racer? : Option Nat} (hb : base ≤ c) (le : part ≤ c) (lt : racer < part)
    (e : l.tasks[part]? = some task) (raced : task.racer? = some racer)
    (er : l.tasks[racer]? = some ⟨w, none, false, scope, racer?⟩) (expects : w.Expects part)
    (goesOn : ∀ l' : Loop E W, l'.outcome? part = some o → J l'.world → ∃ w', J w' ∧
      resume handler ⟨w, some .resumed, false, scope, racer?⟩ racer .resumed l' =
        Loop.settle { l' with world := w' } racer o')
    (quiet : l.Quiet handler scope J c) (deaf : (l.settle part o).Deaf c)
    (running : (l.settle part o).isOver base = false) :
    ∃ l' : Loop E W, Leads handler base (l.settle part o) (l'.settle racer o') ∧
      l'.Quiet handler scope J c ∧ (l'.settle racer o').Deaf c ∧ l'.now = l.now ∧
      ∀ t ≤ c, t ≠ part → l'.tasks[t]? = l.tasks[t]? := by
  have kept (t : Nat) (ht : t ≠ part) := tasks_settle_of_ne l part o ht
  have told := ready_settle_expected o e raced (Nat.ne_of_lt lt) er expects
  obtain ⟨l₁, leads, quiet₁, now₁, same₁⟩ := leads_told hb (by omega) (quiet.cut.settle_le le o) deaf
    running ((kept racer (by omega)).trans er) expects told quiet.queue
  have ended : l₁.outcome? part = some o :=
    (outcome?_congr (same₁ part le)).trans (outcome?_settle o e)
  obtain ⟨w', hw', resumed⟩ := goesOn l₁ ended quiet₁.cut.world
  refine ⟨{ l₁ with world := w' }, resumed ▸ leads,
    ⟨quiet₁.cut.congr rfl (fun _ _ => rfl) hw', quiet₁.queue⟩, ?_, ?_, fun t le ne => ?_⟩
  · exact deaf.congr ((tasks_settle_of_ne _ _ _ (by omega)).trans (same₁ c (Nat.le_refl c)))
  · exact now₁.trans (now_settle l part o)
  · exact (same₁ t le).trans (kept t ne)

/-- What a task ends with passes outwards through all the races around it. -/
theorem leads_of_settle {o : Outcome} {task : Task E} (le : base + i ≤ c)
    (e : l.tasks[base + i]? = some task) (raced : task.racer? = parent? base i)
    (quiet : l.Quiet handler scope J c) (deaf : (l.settle (base + i) o).Deaf c)
    (passOn : PassOn handler scope J base i l) :
    ∃ l', Leads handler base (l.settle (base + i) o) l' ∧ l'.outcome? base = some o ∧
      l'.now = l.now := by
  induction i generalizing l task with
  | zero => exact ⟨_, .refl _, outcome?_settle o e, now_settle l base o⟩
  | succ i ih =>
    obtain ⟨k, settled, er⟩ := passOn i (Nat.lt_succ_self i)
    have running := (passOn.congr fun j hj =>
      tasks_settle_of_ne l (base + (i + 1)) o (j := base + j) (by omega)).running
    have goesOn (l' : Loop E W) (ended : l'.outcome? (base + (i + 1)) = some o) (hw : J l'.world) :
        ∃ w', J w' ∧ resume handler { racing base scope i k with signal? := some .resumed }
          (base + i) .resumed l' = Loop.settle { l' with world := w' } (base + i) o := by
      obtain ⟨w', hw', run⟩ := exec_atOnce (settled o) (base + i) hw
      exact ⟨w', hw', by simp only [Loop.resume, racing, Nat.add_assoc, ended, run]⟩
    obtain ⟨l₁, leads, quiet₁, deaf₁, now₁, same₁⟩ := leads_to_settle (by omega) le (by omega) e
      raced er (.inl ⟨k, rfl⟩) goesOn quiet deaf running
    obtain ⟨l', leads', finished, now⟩ := ih (by omega) ((same₁ _ (by omega) (by omega)).trans er) rfl
      quiet₁ deaf₁ fun j hj => passOn.congr (fun j hj => same₁ _ (by omega) (by omega)) j (by omega)
    exact ⟨l', leads.trans leads', finished, now.trans now₁⟩

/-! ## A limit passes -/

theorem cancel_of_waits {w : Wait E} {task : Task E} (bound : Nat) {t : Nat}
    (stops : w.Stops handler scope J c) (e : l.tasks[t]? = some task) (waits : task.wait = w) :
    cancel (bound + 1) t l =
      if task.signal?.isNone then l.resolve t .cancelled
      else l.updateTask t fun task => { task with mustCancel := true } := by
  unfold cancel
  simp only [e]
  cases signal : task.signal? <;> rcases stops with ⟨k, rfl, -⟩ | ⟨part, k, rfl, -⟩ <;>
    simp only [waits, Option.isNone_none, Option.isNone_some, if_true, Bool.false_eq_true, if_false]

/-- The cancelled task ends, and cancels its part before. -/
theorem resume_of_stops {task : Task E} (stops : task.wait.Stops handler scope J c)
    (own : task.scope = scope) (quiet : l.Quiet handler scope J c) :
    ∃ l' : Loop E W, resume handler task c .cancelled l = l'.settle c (.error .cancelled) ∧
      l'.Quiet handler scope J c ∧ l'.now = l.now ∧ ∀ t ≤ c, l'.tasks[t]? = l.tasks[t]? := by
  rcases stops with ⟨k, waits, stop⟩ | ⟨part, k, waits, hp, stop⟩
  · obtain ⟨w, hw, run⟩ := exec_atOnce stop c quiet.cut.world
    refine ⟨{ l with world := w }, ?_, ⟨?_, quiet.queue⟩, rfl, fun _ _ => rfl⟩
    · simp only [Loop.resume, waits, own, run]
    · exact quiet.cut.congr rfl (fun _ _ => rfl) hw
  · have kept := quiet.cut.cancel l.tasks.length hp
    obtain ⟨jobs, ready, above⟩ := kept.queue
    obtain ⟨w, hw, run⟩ := exec_atOnce stop c kept.cut.world
    refine ⟨{ cancel l.tasks.length part l with world := w }, ?_, ⟨?_, fun job mem => ?_⟩,
      kept.now, kept.below⟩
    · simp only [Loop.resume, waits, own, run]
    · exact kept.cut.congr rfl (fun _ _ => rfl) hw
    · rcases List.mem_append.1 (ready ▸ mem) with old | new
      · exact quiet.queue job old
      · exact above job new

theorem PassOn.running_of (h : PassOn handler scope J base i l) {task : Task E}
    (e : l.tasks[base + i]? = some task) (running : task.isOver = false) :
    l.isOver base = false := by
  cases i with
  | zero =>
    unfold isOver outcome?
    rw [← Nat.add_zero base, e]
    exact running
  | succ i => exact h.running

theorem deaf_of_signalled {task : Task E} (e : l.tasks[c]? = some task)
    (signalled : task.signal?.isSome) : l.Deaf c := by
  intro part _
  unfold Loop.awaits
  rw [e]
  obtain ⟨wait, _ | signal, m, s, r⟩ := task
  · cases signalled
  · cases wait <;> rfl

variable (handler scope J base) in
/-- A race whose limit has passed waits for its part, which was cancelled and is to run a last
time. -/
structure Draining (i : Nat) (k : RaceEnd → Routine E) (l : Loop E W) : Prop where
  drains : l.tasks[base + i]? =
    some ⟨.drain (base + i + 1) false k, none, false, scope, parent? base i⟩
  part : ∃ task jobs, l.tasks[base + i + 1]? = some task ∧
    task.wait.Stops handler scope J (base + i + 1) ∧ task.scope = scope ∧
    task.racer? = some (base + i) ∧ task.signal?.isSome ∧
    (if task.mustCancel then .cancelled else task.signal?.getD .resumed) = Wake.cancelled ∧
    l.ready = jobs ++ [.wake (base + i + 1)] ∧ ∀ job ∈ jobs, job.Above (base + i + 1)
  cut : l.Cut handler scope J (base + i + 1)
  passOn : PassOn handler scope J base i l

/-- All the races around it end with an outcome of its own. -/
theorem Draining.leads {k : RaceEnd → Routine E} {expired : Outcome}
    (h : Draining handler scope J base i k l) (guards : Guards handler scope J k expired) :
    ∃ l', Leads handler base l l' ∧ l'.outcome? base = some expired ∧ l'.now = l.now := by
  obtain ⟨task, jobs, e, stops, own, raced, signalled, cancelled, ready, above⟩ := h.part
  -- The part runs a last time and ends.
  obtain ⟨l₁, leads₁, quiet₁, now₁, self₁, same₁⟩ := leads_wake (by omega) (Nat.le_refl _) h.cut
    (deaf_of_signalled e signalled) (h.passOn.running_of h.drains rfl) e ready above
  obtain ⟨l₂, stopped, quiet₂, now₂, same₂⟩ := resume_of_stops stops own quiet₁
  rw [cancelled, stopped] at leads₁
  have e₂ := (same₂ _ (Nat.le_refl _)).trans self₁
  have kept (t : Nat) (ht : t < base + i + 1) : l₂.tasks[t]? = l.tasks[t]? :=
    (same₂ t (by omega)).trans (same₁ t (by omega) (by omega))
  have drains₂ := (kept (base + i) (by omega)).trans h.drains
  have passOn₂ := h.passOn.congr fun j hj => kept (base + j) (by omega)
  have running : (l₂.settle (base + i + 1) (.error .cancelled)).isOver base = false :=
    (isOver_congr (tasks_settle_of_ne _ _ _ (by omega))).trans (passOn₂.running_of drains₂ rfl)
  -- The race is told, and goes on with its own outcome.
  have goesOn (l' : Loop E W) (_ : l'.outcome? (base + i + 1) = some (.error .cancelled))
      (hw : J l'.world) : ∃ w', J w' ∧
        resume handler ⟨.drain (base + i + 1) false k, some .resumed, false, scope, parent? base i⟩
          (base + i) .resumed l' = Loop.settle { l' with world := w' } (base + i) expired := by
    obtain ⟨w', hw', run⟩ := exec_atOnce guards.expired (base + i) hw
    exact ⟨w', hw', by simp only [Loop.resume, run]⟩
  obtain ⟨l₃, leads₃, quiet₃, deaf₃, now₃, same₃⟩ := leads_to_settle (by omega) (Nat.le_refl _)
    (by omega) e₂ raced drains₂ (.inr ⟨k, rfl⟩) goesOn quiet₂ (deaf_settle e₂) running
  obtain ⟨l', leads', finished, now'⟩ := leads_of_settle (by omega)
    ((same₃ _ (by omega) (by omega)).trans drains₂) rfl quiet₃ deaf₃
    (passOn₂.congr fun j hj => same₃ _ (by omega) (by omega))
  refine ⟨l', leads₁.trans (leads₃.trans leads'), finished, ?_⟩
  calc l'.now = l₂.now := now'.trans now₃
    _ = l.now := now₂.trans now₁

/-- A task that is asked to stop runs a last time: its cancellation is the last job of the queue,
unless a job for the task was the only one before. -/
theorem cancel_part {t : Nat} {task : Task E} (bound : Nat)
    (stops : task.wait.Stops handler scope J t) (e : l.tasks[t]? = some task)
    (queue : task.signal? = none ∧ task.mustCancel = false ∧ (∀ job ∈ l.ready, job.Above t) ∨
      task.signal? = some .resumed ∧ l.ready = [.wake t]) :
    ∃ f jobs timers, cancel (bound + 1) t l =
        { l.updateTask t f with ready := jobs ++ [.wake t], timers := timers } ∧
      (f task).wait = task.wait ∧ (f task).scope = task.scope ∧ (f task).racer? = task.racer? ∧
      (f task).signal?.isSome ∧
      (if (f task).mustCancel then .cancelled else (f task).signal?.getD .resumed) =
        Wake.cancelled ∧
      ∀ job ∈ jobs, job.Above t := by
  have asked := cancel_of_waits bound stops e rfl
  rcases queue with ⟨signal, fresh, above⟩ | ⟨signal, ready⟩
  · rw [signal, Option.isNone_none, if_pos rfl] at asked
    refine ⟨fun task => { task with signal? := some .cancelled }, l.ready, _, asked, rfl, rfl, rfl,
      rfl, ?_, above⟩
    simp only [fresh, Bool.false_eq_true, if_false, Option.getD_some]
  · rw [signal, Option.isNone_some, if_neg Bool.false_ne_true] at asked
    refine ⟨fun task => { task with mustCancel := true }, [], l.timers, asked.trans ?_, rfl, rfl, rfl,
      ?_, rfl, nofun⟩
    · rw [List.nil_append, ← ready]
      rfl
    · rw [signal, Option.isSome_some]

theorem outcome?_of_stops {t : Nat} {task : Task E} (e : l.tasks[t]? = some task)
    (stops : task.wait.Stops handler scope J c) : l.outcome? t = none := by
  unfold outcome?
  rw [e]
  rcases stops with ⟨k, waits, -⟩ | ⟨part, k, waits, -⟩ <;>
    simp only [Option.bind_some, Task.outcome?, waits]

/-- A race whose limit has passed cancels its part and waits for the end of it. -/
theorem runJob_expired {k : RaceEnd → Routine E}
    (expires : l.tasks[base + i]? = some { racing base scope i k with signal? := some .resumed })
    (unsettled : l.outcome? (base + i + 1) = none) :
    runJob handler (.wake (base + i)) l =
      (cancel l.tasks.length (base + i + 1) (l.updateTask (base + i) fun task =>
        { task with signal? := none, mustCancel := false })).wait (base + i)
          (.drain (base + i + 1) false k) := by
  have still : Loop.outcome? (l.updateTask (base + i) fun task =>
      { task with signal? := none, mustCancel := false }) (base + i + 1) = none :=
    (outcome?_congr (tasks_updateTask_of_ne (by omega))).trans unsettled
  rw [runJob_wake expires]
  simp only [Loop.resume, racing, Bool.false_eq_true, if_false, Option.getD_some, still,
    length_updateTask]

theorem draining_of_expiry {k : RaceEnd → Routine E} {task : Task E}
    (expires : l.tasks[base + i]? = some { racing base scope i k with signal? := some .resumed })
    (e : l.tasks[base + i + 1]? = some task)
    (stops : task.wait.Stops handler scope J (base + i + 1)) (own : task.scope = scope)
    (raced : task.racer? = some (base + i))
    (queue : task.signal? = none ∧ task.mustCancel = false ∧
        (∀ job ∈ l.ready, job.Above (base + i + 1)) ∨
      task.signal? = some .resumed ∧ l.ready = [.wake (base + i + 1)])
    (cut : l.Cut handler scope J (base + i + 1)) (passOn : PassOn handler scope J base i l) :
    Draining handler scope J base i k (runJob handler (.wake (base + i)) l) ∧
      (runJob handler (.wake (base + i)) l).now = l.now := by
  rw [runJob_expired expires (outcome?_of_stops e stops)]
  let l₁ : Loop E W := l.updateTask (base + i) fun task =>
    { task with signal? := none, mustCancel := false }
  have kept (j : Nat) (ne : j ≠ base + i) : l₁.tasks[j]? = l.tasks[j]? := tasks_updateTask_of_ne ne
  have e₁ : l₁.tasks[base + i + 1]? = some task := (kept _ (by omega)).trans e
  have self₁ : l₁.tasks[base + i]? = some (racing base scope i k) := tasks_updateTask_self expires
  obtain ⟨bound, many⟩ : ∃ bound, l.tasks.length = bound + 1 :=
    Nat.exists_eq_add_one_of_ne_zero (by have := cut.wide; omega)
  obtain ⟨f, jobs, timers, cancels, waits, scope', racer', signalled, cancelled, above⟩ :=
    cancel_part bound stops e₁ queue
  rw [many, show cancel (bound + 1) (base + i + 1) _ = _ from cancels]
  -- Apart from the race and its part, all tasks are as they were.
  let l₂ : Loop E W := { l₁.updateTask (base + i + 1) f with
    ready := jobs ++ [.wake (base + i + 1)], timers := timers }
  have raced₂ : l₂.tasks[base + i]? = some (racing base scope i k) :=
    (tasks_updateTask_of_ne (by omega)).trans self₁
  have same₂ (j : Nat) (ne : j ≠ base + i) (ne' : j ≠ base + i + 1) :
      (l₂.wait (base + i) (.drain (base + i + 1) false k)).tasks[j]? = l.tasks[j]? :=
    (tasks_wait_of_ne ne).trans ((tasks_updateTask_of_ne ne').trans (kept j ne))
  have part₂ : (l₂.wait (base + i) (.drain (base + i + 1) false k)).tasks[base + i + 1]? =
      some (f task) := (tasks_wait_of_ne (by omega)).trans (tasks_updateTask_self e₁)
  have wide₂ : (l₂.wait (base + i) (.drain (base + i + 1) false k)).tasks.length =
      l.tasks.length :=
    (length_updateTask _).trans ((length_updateTask _).trans (length_updateTask _))
  exact ⟨
    { drains := tasks_wait_self raced₂
      part := ⟨f task, jobs, part₂, waits ▸ stops, scope'.trans own, racer'.trans raced, signalled,
        cancelled, rfl, above⟩
      cut := cut.congr wide₂ (fun t ht => same₂ t (by omega) (by omega)) cut.world
      passOn := passOn.congr fun j hj => same₂ _ (by omega) (by omega) }, rfl⟩

/-- When the limit of a race passes, all the races around it end with the outcome of that one. A
job of the part may be in the queue at the same time. -/
theorem leads_of_expiry {k : RaceEnd → Routine E} {expired : Outcome} {task : Task E}
    {jobs : List Job} (guards : Guards handler scope J k expired)
    (expires : l.tasks[base + i]? = some { racing base scope i k with signal? := some .resumed })
    (e : l.tasks[base + i + 1]? = some task)
    (stops : task.wait.Stops handler scope J (base + i + 1)) (own : task.scope = scope)
    (raced : task.racer? = some (base + i)) (ready : l.ready = .wake (base + i) :: jobs)
    (queue : task.signal? = none ∧ task.mustCancel = false ∧
        (∀ job ∈ jobs, job.Above (base + i + 1)) ∨
      task.signal? = some .resumed ∧ jobs = [.wake (base + i + 1)])
    (cut : l.Cut handler scope J (base + i + 1)) (passOn : PassOn handler scope J base i l) :
    ∃ l', Leads handler base l l' ∧ l'.outcome? base = some expired ∧ l'.now = l.now := by
  have popped : Cut handler scope J (base + i + 1) { l with ready := jobs } :=
    cut.congr rfl (fun _ _ => rfl) cut.world
  obtain ⟨draining, now₁⟩ := draining_of_expiry (l := { l with ready := jobs }) expires e stops own
    raced queue popped (passOn.congr fun _ _ => rfl)
  obtain ⟨l', leads, finished, now⟩ := draining.leads guards
  exact ⟨l', .job (passOn.running_of expires rfl) ready leads, finished, now.trans now₁⟩

end Loop

end GraphClient
