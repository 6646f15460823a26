import GraphClient.Proofs.Flow.Cascade

/-!
# A routine that nothing else runs beside

While nothing else runs and no time limit passes, the tasks of a routine run one inside the other: a
race waits for its part, and its part goes on from where the race stands.

* `Routine.evaluate`: what the routine comes to in this way, at which time and in which world.
* `Loop.Clear`: a task runs, the others have ended or wait for their parts with time limits.
* `Clear.goes`: from there the loop comes to the same end, or to a state in which a limit passes.
* `run_of_evaluate`, `evaluate_of_run`: so does the run of a routine in an idle loop.
-/

namespace GraphClient

variable {E : Effects} {W : Type}

/-- When a routine goes on, in which world, and whether it holds the lock. -/
structure Situation (W : Type) where
  now : Rat
  world : W
  held : Bool

/-- What a routine comes to: it ends, it waits for the lock that it holds itself, or a time limit
passes. -/
inductive Ending (W : Type) where
  | over (outcome : Outcome) (s : Situation W)
  | stuck
  | late

namespace Ending

/-- Goes on from an end. -/
def andThen (x : Ending W) (f : Outcome → Situation W → Ending W) : Ending W :=
  match x with
  | .over o s => f o s
  | .stuck => stuck
  | .late => late

/-- The end of a race whose part came to this end. A limit passes unless the part ends before it, or at
once. -/
def within (limit? : Option Rat) (start : Rat) (x : Ending W)
    (f : Outcome → Situation W → Ending W) : Ending W :=
  match x with
  | .over o s =>
    if s.now = start ∨ ∀ q ∈ limit?, s.now < start + q then f o s else late
  | .stuck => if limit?.isSome then late else stuck
  | .late => late

theorem within_over {limit? : Option Rat} {start : Rat} {o : Outcome} {s : Situation W}
    {f : Outcome → Situation W → Ending W}
    (inTime : s.now = start ∨ ∀ q ∈ limit?, s.now < start + q) :
    (Ending.over o s).within limit? start f = f o s := if_pos inTime

theorem within_stuck {limit? : Option Rat} {start : Rat} {f : Outcome → Situation W → Ending W} :
    (stuck : Ending W).within limit? start f = if limit?.isSome then late else stuck := rfl

theorem within_over_late {limit? : Option Rat} {start : Rat} {o : Outcome} {s : Situation W}
    {f : Outcome → Situation W → Ending W}
    (late' : ¬(s.now = start ∨ ∀ q ∈ limit?, s.now < start + q)) :
    (Ending.over o s).within limit? start f = late := if_neg late'

end Ending

namespace Routine

/-- What a routine comes to when nothing else runs. -/
def evaluate (handler : Handler E W) (scope : Nat) : Routine E → Situation W → Ending W
  | .done o, s => .over o s
  | .perform op k, s =>
    evaluate handler scope (k (handler scope op s.world).1)
      { s with world := (handler scope op s.world).2 }
  | .clock k, s => evaluate handler scope (k s.now) s
  | .sleep d k, s =>
    evaluate handler scope (k .resumed) { s with now := if d ≤ 0 then s.now else s.now + d }
  | .race part limit? k, s =>
    (evaluate handler scope part s).within limit? s.now fun o s' =>
      evaluate handler scope (k (.settled o)) s'
  | .acquire k, s => if s.held then .stuck else evaluate handler scope (k .resumed) { s with held := true }
  | .release next, s => evaluate handler scope next { s with held := false }

variable {handler : Handler E W} {scope : Nat}

theorem evaluate_andThen (r : Routine E) (f : Outcome → Routine E) (s : Situation W) :
    evaluate handler scope (r.andThen f) s =
      (evaluate handler scope r s).andThen fun o s' => evaluate handler scope (f o) s' := by
  induction r generalizing s with
  | done o => rfl
  | perform op k ih => exact ih _ _
  | clock k ih => exact ih _ s
  | sleep d k ih => exact ih _ _
  | race part limit? k _ ih =>
    simp only [andThen, evaluate, ih]
    cases evaluate handler scope part s with
    | «over» o s' =>
      simp only [Ending.within]
      split <;> rfl
    | stuck =>
      simp only [Ending.within]
      split <;> rfl
    | late => rfl
  | acquire k ih =>
    simp only [andThen, evaluate, ih]
    split <;> rfl
  | release next ih => exact ih _

/-- The clock does not run backwards. -/
theorem now_le_of_evaluate {r : Routine E} {s s' : Situation W} {o : Outcome}
    (h : evaluate handler scope r s = .over o s') : s.now ≤ s'.now := by
  induction r generalizing s s' o with
  | done o =>
    obtain ⟨-, rfl⟩ := Ending.over.inj h
    exact le_refl _
  | perform op k ih => exact ih _ (s := { s with world := (handler scope op s.world).2 }) h
  | clock k ih => exact ih _ h
  | sleep d k ih =>
    have later := ih .resumed (s := { s with now := if d ≤ 0 then s.now else s.now + d }) h
    simp only at later
    split at later
    · exact later
    · rename_i some'
      exact (le_add_of_nonneg_right (not_le.1 some').le).trans later
  | race part limit? k ihp ih =>
    simp only [evaluate] at h
    cases e : evaluate handler scope part s with
    | «over» o₁ s₁ =>
      simp only [e, Ending.within] at h
      split at h
      · exact (ihp e).trans (ih _ h)
      · cases h
    | stuck =>
      simp only [e, Ending.within] at h
      split at h <;> cases h
    | late => simp only [e, Ending.within] at h; cases h
  | acquire k ih =>
    simp only [evaluate] at h
    split at h
    · cases h
    · exact ih .resumed (s := { s with held := true }) h
  | release next ih => exact ih (s := { s with held := false }) h

end Routine

/-- The wait is for a part of a race whose limit has not passed. -/
def Wait.isRace : Wait E → Bool
  | race .. => true
  | _ => false

namespace Loop

open Routine (evaluate)

/-- The clock is about to jump to the limit of a race. -/
def limitPasses (l : Loop E W) : Bool :=
  l.ready.isEmpty && l.timers.any fun timer =>
    l.timers.all (fun other => timer.due ≤ other.due) && (l.tasks[timer.task]?).any (·.wait.isRace)

/-- No limit passes up to a time, if it is later at all. -/
def InTime (l : Loop E W) (now : Rat) : Prop := now = l.now ∨ ∀ timer ∈ l.timers, now < timer.due

/-- What a loop shows to a routine that is alone in it. -/
def situation (l : Loop E W) : Situation W := ⟨l.now, l.world, l.lock.held⟩

section

variable (handler : Handler E W) (scope base t : Nat)

/-- A task runs, and nothing else is to run before a limit passes. -/
structure Clear (l : Loop E W) : Prop where
  ready : l.ready = []
  waiters : l.lock.waiters = []
  first : ∃ task, l.tasks[base]? = some task ∧ task.isOver = false
  task : ∃ task, l.tasks[t]? = some task ∧ task.scope = scope ∧ task.mustCancel = false ∧
    task.isOver = false
  limits : ∀ timer ∈ l.timers, timer.task ≠ t ∧
    ∃ task part k, l.tasks[timer.task]? = some task ∧ task.wait = .race part k

/-- A later state in which only the running task and the ones started since have changed. No limit has
passed. -/
structure Later (l l₁ : Loop E W) : Prop where
  le : l.now ≤ l₁.now
  inTime : l.InTime l₁.now
  timers : l₁.timers = l.timers
  length : l.tasks.length ≤ l₁.tasks.length
  others : ∀ j < l.tasks.length, j ≠ t → l₁.tasks[j]? = l.tasks[j]?
  racer : (l₁.tasks[t]?).bind Task.racer? = (l.tasks[t]?).bind Task.racer?

/-- From a state, the loop comes to an end of the running task as given, or to a state in which nothing
is left to do, or in which a limit passes. -/
inductive Goes (l : Loop E W) : Ending W → Loop E W → Prop
  | ends {o e l'} : Later t l l' → Clear scope base t l' → Leads handler base e (l'.settle t o) →
      Goes l (.over o l'.situation) e
  | stops {e l'} : l.timers = [] → Leads handler base e l' → l'.isOver base = false →
      l'.next? handler = none → Goes l .stuck e
  | passes {x e l'} : (∀ o s, x = .over o s → ¬l.InTime s.now) → (x = .stuck → l.timers ≠ []) →
      Leads handler base e l' → l'.limitPasses = true → Goes l x e

end

variable {handler : Handler E W} {scope base t : Nat} {l l' l₁ e : Loop E W}

theorem Later.refl (t : Nat) (l : Loop E W) : Later t l l :=
  ⟨le_refl _, .inl rfl, rfl, Nat.le_refl _, fun _ _ _ => rfl, rfl⟩

/-- Up to a time after the later one, no limit passes if it does not from then on. -/
theorem Later.inTime_iff (h : Later t l l₁) {now : Rat} (le : l₁.now ≤ now) :
    l₁.InTime now ↔ l.InTime now := by
  unfold InTime
  rw [h.timers]
  constructor
  · rintro (rfl | before)
    · exact h.inTime
    · exact .inr before
  · rintro (rfl | before)
    · exact .inl (le_antisymm h.le le)
    · exact .inr before

theorem Later.trans (h : Later t l l₁) (h' : Later t l₁ l') : Later t l l' where
  le := h.le.trans h'.le
  inTime := (h.inTime_iff h'.le).1 h'.inTime
  timers := h'.timers.trans h.timers
  length := h.length.trans h'.length
  others j lt ne := (h'.others j (Nat.lt_of_lt_of_le lt h.length) ne).trans (h.others j lt ne)
  racer := h'.racer.trans h.racer

theorem Goes.head {x : Ending W} {e₀ : Loop E W} (leads : Leads handler base e₀ e)
    (h : Goes handler scope base t l x e) : Goes handler scope base t l x e₀ := by
  cases h with
  | ends later clear leads' => exact .ends later clear (leads.trans leads')
  | stops none' leads' running idle => exact .stops none' (leads.trans leads') running idle
  | passes late stuck leads' passes => exact .passes late stuck (leads.trans leads') passes

/-- What the loop comes to from a later state, it comes to from the earlier one. -/
theorem Goes.of_later {x : Ending W} (later : Later t l l₁) (h : Goes handler scope base t l₁ x e)
    (after : ∀ o s, x = .over o s → l₁.now ≤ s.now) : Goes handler scope base t l x e := by
  cases h with
  | ends later' clear leads => exact .ends (later.trans later') clear leads
  | stops none' leads running idle => exact .stops (later.timers ▸ none') leads running idle
  | passes late stuck leads passes =>
    refine .passes (fun o s same inTime => ?_) (later.timers ▸ stuck) leads passes
    exact late o s same ((later.inTime_iff (after o s same)).2 inTime)

namespace Clear

theorem running (h : l.Clear scope base t) : l.isOver base = false := by
  obtain ⟨task, e, running⟩ := h.first
  unfold isOver outcome?
  rw [e]
  exact running

/-- The task runs on in a later state. -/
theorem of_later (h : l.Clear scope base t) (later : Later t l l₁) (ready : l₁.ready = [])
    (waiters : l₁.lock.waiters = [])
    (task : ∃ task, l₁.tasks[t]? = some task ∧ task.scope = scope ∧ task.mustCancel = false ∧
      task.isOver = false) : l₁.Clear scope base t := by
  have inside {j : Nat} {task : Task E} (e : l.tasks[j]? = some task) (ne : j ≠ t) :
      l₁.tasks[j]? = some task :=
    (later.others j (List.getElem?_eq_some_iff.1 e).1 ne).trans e
  refine ⟨ready, waiters, ?_, task, fun timer mem => ?_⟩
  · by_cases same : base = t
    · obtain ⟨task, e, -, -, running⟩ := task
      exact ⟨task, same ▸ e, running⟩
    · obtain ⟨task, e, running⟩ := h.first
      exact ⟨task, inside e same, running⟩
  · obtain ⟨ne, task, part, k, e, waits⟩ := h.limits timer (later.timers ▸ mem)
    exact ⟨ne, task, part, k, inside e ne, waits⟩

/-- In a loop with the same timers and nothing to do, a limit passes. -/
theorem limitPasses (h : l.Clear scope base t) (some' : l.timers ≠ []) (ready : l₁.ready = [])
    (timers : ∀ timer ∈ l.timers, timer ∈ l₁.timers)
    (least : ∀ timer ∈ l₁.timers, timer ∈ l.timers ∨ ∃ other ∈ l.timers, other.due ≤ timer.due)
    (others : ∀ j < l.tasks.length, j ≠ t → l₁.tasks[j]? = l.tasks[j]?) : l₁.limitPasses = true := by
  obtain ⟨_, -, ⟨timer, mem, rfl⟩, first⟩ := nextDue?_spec some'
  obtain ⟨ne, task, part, k, e, waits⟩ := h.limits timer mem
  have found : l₁.tasks[timer.task]? = some task :=
    (others _ (List.getElem?_eq_some_iff.1 e).1 ne).trans e
  have first' : ∀ other ∈ l₁.timers, timer.due ≤ other.due := by
    intro other mem'
    rcases least other mem' with old | ⟨earlier, old, le⟩
    · exact first other old
    · exact (first earlier old).trans le
  unfold Loop.limitPasses
  rw [ready, List.isEmpty_nil, Bool.true_and, List.any_eq_true]
  refine ⟨timer, timers timer mem, ?_⟩
  rw [found, Option.any_some, waits, Wait.isRace, Bool.and_true, List.all_eq_true]
  exact fun other mem' => decide_eq_true (first' other mem')

end Clear

/-- A task that is to run goes on. -/
theorem leads_woken {task : Task E} (running : l.isOver base = false) (ready : l.ready = [.wake t])
    (e : l.tasks[t]? = some task) (signal : task.signal? = some .resumed)
    (fresh : task.mustCancel = false) :
    Leads handler base l (resume handler task t .resumed
      (({ l with ready := [] } : Loop E W).updateTask t
        fun task => { task with signal? := none, mustCancel := false })) := by
  refine .job running ready ?_
  rw [runJob_wake (l := { l with ready := [] }) e, signal, fresh]
  exact .refl _

variable (scope t) in
/-- The running task of an earlier state waits, and its wait is about to end. No limit has passed. -/
structure Paused (w : Wait E) (l l₁ : Loop E W) : Prop where
  ready : l₁.ready = []
  waiters : l₁.lock.waiters = []
  le : l.now ≤ l₁.now
  inTime : l.InTime l₁.now
  timers : l₁.timers.filter (·.task != t) = l.timers
  length : l.tasks.length ≤ l₁.tasks.length
  others : ∀ j < l.tasks.length, j ≠ t → l₁.tasks[j]? = l.tasks[j]?
  task : ∃ task, l₁.tasks[t]? = some task ∧ task.wait = w ∧ task.scope = scope ∧
    task.mustCancel = false ∧ task.isOver = false ∧
    task.racer? = (l.tasks[t]?).bind Task.racer?

theorem Paused.running {w : Wait E} (h : Clear scope base t l) (paused : Paused scope t w l l₁) :
    l₁.isOver base = false := by
  unfold isOver Loop.outcome?
  by_cases same : base = t
  · obtain ⟨task, e, -, -, -, unfinished, -⟩ := paused.task
    rw [same, e]
    exact unfinished
  · obtain ⟨task, e, unfinished⟩ := h.first
    rw [paused.others base (List.getElem?_eq_some_iff.1 e).1 same, e]
    exact unfinished

variable (handler) in
/-- The wait ends and the task goes on. -/
theorem Paused.woken {w : Wait E} (h : Clear scope base t l) (paused : Paused scope t w l l₁) :
    ∃ task l', task.wait = w ∧ task.scope = scope ∧
      Leads handler base (l₁.resolve t .resumed) (resume handler task t .resumed l') ∧
      Clear scope base t l' ∧ Later t l l' ∧ l'.situation = l₁.situation ∧
      ∀ j ≠ t, l'.tasks[j]? = l₁.tasks[j]? := by
  obtain ⟨task, e, waits, own, fresh, unfinished, racer⟩ := paused.task
  let l' : Loop E W := ({ l₁.resolve t .resumed with ready := [] } : Loop E W).updateTask t
    fun task => { task with signal? := none, mustCancel := false }
  have signalled : (l₁.resolve t .resumed).tasks[t]? = some { task with signal? := some .resumed } :=
    tasks_resolve_self e
  have self : l'.tasks[t]? = some { task with signal? := none, mustCancel := false } := by
    have found := tasks_updateTask_self (l := { l₁.resolve t .resumed with ready := [] })
      (f := fun task => { task with signal? := none, mustCancel := false }) signalled
    exact found
  have others (j : Nat) (ne : j ≠ t) : l'.tasks[j]? = l₁.tasks[j]? :=
    (tasks_updateTask_of_ne ne).trans (tasks_resolve_of_ne ne)
  have length : l'.tasks.length = l₁.tasks.length := (length_updateTask _).trans (length_resolve _)
  have later : Later t l l' :=
    { le := paused.le, inTime := paused.inTime, timers := paused.timers
      length := length ▸ paused.length
      others := fun j lt ne => (others j ne).trans (paused.others j lt ne)
      racer := by rw [self]; exact racer }
  have clear : Clear scope base t l' := h.of_later later rfl paused.waiters
    ⟨_, self, own, rfl, unfinished⟩
  have running : (l₁.resolve t .resumed).isOver base = false :=
    (isOver_resolve t base .resumed).trans (paused.running h)
  refine ⟨{ task with signal? := some .resumed }, l', waits, own, ?_, clear, later, rfl, others⟩
  exact leads_woken running (congrArg (· ++ [Job.wake t]) paused.ready) signalled rfl fresh

/-- The clock jumps to the timer of a task, if all others are later. -/
theorem next?_of_first {timers : List Timer} {due : Rat} (ready : l.ready = [])
    (all : l.timers = timers ++ [⟨due, t⟩]) (before : ∀ timer ∈ timers, due < timer.due) :
    l.next? handler = some (Loop.resolve { l with now := due } t .resumed) := by
  have first : nextDue? l.timers = some due := by
    have mem : (⟨due, t⟩ : Timer) ∈ l.timers := all ▸ List.mem_concat_self
    refine nextDue?_eq_some mem fun other mem => ?_
    rw [all] at mem
    rcases List.mem_append.1 mem with old | new
    · exact (before other old).le
    · rw [List.mem_singleton.1 new]
  have passing : l.timers.filter (·.due = due) = [⟨due, t⟩] := by
    have none' : timers.filter (·.due = due) = [] :=
      List.filter_eq_nil_iff.2 fun timer mem => by simpa using (before timer mem).ne'
    rw [all, List.filter_append, none', List.filter_singleton]
    simp
  rw [next?_of_timers ready first, passing]
  rfl

namespace Clear

/-- The timers are those of limits. -/
theorem filter_timers (h : l.Clear scope base t) : l.timers.filter (·.task != t) = l.timers :=
  List.filter_eq_self.2 fun timer mem => bne_iff_ne.2 (h.limits timer mem).1

/-- The task waits with nothing else changed than clock and timers. -/
theorem paused (h : l.Clear scope base t) {w : Wait E} (waits : Task.outcome? ⟨w, none, false, 0, none⟩ = none)
    {now : Rat} {timers : List Timer} (le : l.now ≤ now) (inTime : l.InTime now)
    (filtered : timers.filter (·.task != t) = l.timers) :
    Paused scope t w l { l.wait t w with now := now, timers := timers } := by
  obtain ⟨task, e, own, fresh, -⟩ := h.task
  refine ⟨h.ready, h.waiters, le, inTime, filtered, (length_updateTask _).ge,
    fun j _ ne => tasks_wait_of_ne ne, _, tasks_wait_self e, rfl, own, fresh, ?_, by rw [e]; rfl⟩
  unfold Task.isOver
  exact congrArg Option.isSome waits

/-- The task sleeps and goes on, unless a limit passes meanwhile. -/
theorem goes_sleep {d : Rat} {k : Wake → Routine E} (h : l.Clear scope base t)
    (ih : ∀ l₁ : Loop E W, l₁.Clear scope base t →
      Goes handler scope base t l₁ (evaluate handler scope (k .resumed) l₁.situation)
        (exec handler scope t (k .resumed) l₁)) :
    Goes handler scope base t l (evaluate handler scope (.sleep d k) l.situation)
      (exec handler scope t (.sleep d k) l) := by
  have wakes {now : Rat} {timers : List Timer} (le : l.now ≤ now) (inTime : l.InTime now)
      (filtered : timers.filter (·.task != t) = l.timers) :
      Goes handler scope base t l (evaluate handler scope (k .resumed) { l.situation with now := now })
        (({ l.wait t (.sleep k) with now := now, timers := timers } : Loop E W).resolve t .resumed) := by
    obtain ⟨task, l', waits, own, leads, clear, later, same, -⟩ :=
      (h.paused (w := .sleep k) rfl le inTime filtered).woken handler h
    have goesOn : resume handler task t .resumed l' = exec handler scope t (k .resumed) l' := by
      simp only [resume, waits, own]
    have goes := ih l' clear
    rw [same] at goes
    refine (goes.of_later later fun o s ended => ?_).head (goesOn ▸ leads)
    exact (congrArg Situation.now same).le.trans (Routine.now_le_of_evaluate ended)
  by_cases none' : d ≤ 0
  · have goes := wakes (le_refl _) (.inl rfl) h.filter_timers
    simp only [evaluate, exec, if_pos none']
    exact goes
  · have later : l.now < l.now + d := lt_add_of_pos_right _ (not_le.1 none')
    simp only [evaluate, exec, if_neg none']
    have filtered : (l.timers ++ [⟨l.now + d, t⟩] : List Timer).filter (·.task != t) = l.timers := by
      rw [List.filter_append, h.filter_timers, List.filter_singleton, bne_self_eq_false]
      exact List.append_nil l.timers
    by_cases before : ∀ timer ∈ l.timers, l.now + d < timer.due
    · -- The clock jumps to the end of the sleep.
      have asleep := (h.paused (w := .sleep k) rfl later.le (.inr before) filtered).running h
      exact (wakes later.le (.inr before) filtered).head
        (.step asleep (next?_of_first h.ready rfl before) (.refl _))
    · push Not at before
      obtain ⟨timer, mem, le⟩ := before
      refine .passes (fun o s ended inTime => ?_) (fun _ => List.ne_nil_of_mem mem) (.refl _)
        (h.limitPasses (List.ne_nil_of_mem mem) h.ready (fun other => List.mem_append_left _)
          (fun other mem' => ?_) fun j _ ne => tasks_wait_of_ne ne)
      · have after : l.now + d ≤ s.now := Routine.now_le_of_evaluate ended
        rcases inTime with same | before
        · exact absurd (same ▸ after) (not_le.2 later)
        · exact absurd (before timer mem) (not_lt.2 (le.trans after))
      · rcases List.mem_append.1 mem' with old | new
        · exact .inl old
        · exact .inr ⟨timer, mem, List.mem_singleton.1 new ▸ le⟩

end Clear

/-- The loop in which a race has begun, with its part about to run. -/
def raced (scope t : Nat) (part : Routine E) (limit? : Option Rat) (k : RaceEnd → Routine E)
    (l : Loop E W) : Loop E W :=
  let waiting := (l.spawn part scope (some t)).1.wait t (.race l.tasks.length k)
  Loop.updateTask { waiting with
      ready := []
      timers := l.timers ++ limit?.toList.map fun limit => ⟨l.now + limit, t⟩ }
    l.tasks.length fun task => { task with signal? := none, mustCancel := false }

section

variable {part : Routine E} {limit? : Option Rat} {k : RaceEnd → Routine E} {task : Task E}

theorem tasks_raced_part (e : l.tasks[t]? = some task) :
    (l.raced scope t part limit? k).tasks[l.tasks.length]? =
      some ⟨.start part, none, false, scope, some t⟩ := by
  have ne : l.tasks.length ≠ t := (List.getElem?_eq_some_iff.1 e).1.ne'
  exact tasks_updateTask_self (l := { (l.spawn part scope (some t)).1.wait t _ with
    ready := [], timers := _ }) ((tasks_wait_of_ne ne).trans tasks_spawn_self)

theorem tasks_raced_racer (e : l.tasks[t]? = some task) :
    (l.raced scope t part limit? k).tasks[t]? =
      some { task with wait := .race l.tasks.length k, signal? := none } := by
  have lt := (List.getElem?_eq_some_iff.1 e).1
  exact (tasks_updateTask_of_ne lt.ne).trans (tasks_wait_self ((tasks_spawn_of_lt lt).trans e))

theorem tasks_raced_of_ne {j : Nat} (lt : j < l.tasks.length) (ne : j ≠ t) :
    (l.raced scope t part limit? k).tasks[j]? = l.tasks[j]? :=
  (tasks_updateTask_of_ne lt.ne).trans ((tasks_wait_of_ne ne).trans (tasks_spawn_of_lt lt))

theorem length_raced : (l.raced scope t part limit? k).tasks.length = l.tasks.length + 1 :=
  (length_updateTask _).trans ((length_updateTask _).trans (length_spawn part scope (some t)))

theorem timers_raced : (l.raced scope t part limit? k).timers =
    l.timers ++ limit?.toList.map fun limit => ⟨l.now + limit, t⟩ := rfl

namespace Clear

/-- The part of the race runs. -/
theorem raced (h : l.Clear scope base t) (part : Routine E) (limit? : Option Rat)
    (k : RaceEnd → Routine E) :
    (l.raced scope t part limit? k).Clear scope base l.tasks.length := by
  obtain ⟨task, e, own, fresh, -⟩ := h.task
  refine ⟨rfl, h.waiters, ?_, ⟨_, tasks_raced_part e, rfl, rfl, rfl⟩, fun timer mem => ?_⟩
  · by_cases same : base = t
    · subst same
      exact ⟨_, tasks_raced_racer e, rfl⟩
    · obtain ⟨first, e₁, unfinished⟩ := h.first
      exact ⟨first, (tasks_raced_of_ne (List.getElem?_eq_some_iff.1 e₁).1 same).trans e₁, unfinished⟩
  · rw [timers_raced] at mem
    rcases List.mem_append.1 mem with old | new
    · obtain ⟨ne, racer, part', k', e₁, waits⟩ := h.limits timer old
      have lt := (List.getElem?_eq_some_iff.1 e₁).1
      exact ⟨lt.ne, racer, part', k', (tasks_raced_of_ne lt ne).trans e₁, waits⟩
    · obtain ⟨limit, -, rfl⟩ := List.mem_map.1 new
      exact ⟨(List.getElem?_eq_some_iff.1 e).1.ne, _, _, k, tasks_raced_racer e, rfl⟩

theorem leads_raced (h : l.Clear scope base t) :
    Leads handler base (exec handler scope t (.race part limit? k) l)
      (exec handler scope l.tasks.length part (l.raced scope t part limit? k)) := by
  obtain ⟨task, e, own, fresh, -⟩ := h.task
  let begun : Loop E W := { (l.spawn part scope (some t)).1.wait t (.race l.tasks.length k) with
    timers := l.timers ++ limit?.toList.map fun limit => ⟨l.now + limit, t⟩ }
  have began : exec handler scope t (.race part limit? k) l = begun := by
    cases limit? with
    | none => simp only [exec, begun, Option.toList, List.map_nil, List.append_nil]; rfl
    | some limit => rfl
  have self : begun.tasks[l.tasks.length]? = some ⟨.start part, some .resumed, false, scope, some t⟩ :=
    (tasks_wait_of_ne (List.getElem?_eq_some_iff.1 e).1.ne').trans tasks_spawn_self
  have running : begun.isOver base = false := by
    by_cases same : base = t
    · have racer : begun.tasks[t]? = some { task with wait := .race l.tasks.length k, signal? := none } :=
        tasks_wait_self ((tasks_spawn_of_lt (List.getElem?_eq_some_iff.1 e).1).trans e)
      unfold isOver Loop.outcome?
      rw [same, racer]
      rfl
    · obtain ⟨first, e₁, -⟩ := h.first
      have kept : begun.tasks[base]? = l.tasks[base]? :=
        (tasks_wait_of_ne same).trans (tasks_spawn_of_lt (List.getElem?_eq_some_iff.1 e₁).1)
      exact (isOver_congr kept).trans h.running
  rw [began]
  exact leads_woken running (congrArg (· ++ [Job.wake l.tasks.length]) h.ready) self rfl rfl

variable (handler) in
/-- The end of the part is passed to the race, which goes on. -/
theorem leads_settled (o : Outcome) {l₃ : Loop E W} (h : l.Clear scope base t)
    (later : Later l.tasks.length (l.raced scope t part limit? k) l₃)
    (clear : l₃.Clear scope base l.tasks.length) :
    ∃ l', Leads handler base (l₃.settle l.tasks.length o) (exec handler scope t (k (.settled o)) l') ∧
      l'.Clear scope base t ∧ Later t l l' ∧ l'.situation = l₃.situation := by
  obtain ⟨task, e, own, fresh, -⟩ := h.task
  have lt : t < l.tasks.length := (List.getElem?_eq_some_iff.1 e).1
  have wide : l.tasks.length < (l.raced scope t part limit? k).tasks.length := by
    rw [length_raced]
    exact Nat.lt_succ_self _
  obtain ⟨ended, e₃, -⟩ := clear.task
  have raced : ended.racer? = some t := by
    have same := later.racer
    rw [e₃, tasks_raced_part e] at same
    exact same
  have racer : l₃.tasks[t]? = some { task with wait := .race l.tasks.length k, signal? := none } :=
    (later.others t (lt.trans wide) lt.ne).trans (tasks_raced_racer e)
  have kept (j : Nat) (ne : j ≠ l.tasks.length) :
      (l₃.settle l.tasks.length o).tasks[j]? = l₃.tasks[j]? := tasks_settle_of_ne l₃ _ o ne
  -- The race is told.
  let told : Loop E W := { l₃.settle l.tasks.length o with ready := [] }
  have queue : (l₃.settle l.tasks.length o).ready = [.notify t l.tasks.length] := by
    rw [ready_settle_expected o e₃ raced lt.ne racer (.inl ⟨k, rfl⟩), clear.ready]
    rfl
  have notified : runJob handler (.notify t l.tasks.length) told = told.resolve t .resumed := by
    have waits : told.tasks[t]? = some { task with wait := .race l.tasks.length k, signal? := none } :=
      (kept t lt.ne).trans racer
    simp only [runJob, notify, waits, if_true]
  have running : (l₃.settle l.tasks.length o).isOver base = false := by
    obtain ⟨first, e₁, -⟩ := h.first
    exact (isOver_congr (kept base (List.getElem?_eq_some_iff.1 e₁).1.ne)).trans clear.running
  have now : told.now = l₃.now := now_settle l₃ _ o
  have timers : told.timers = l.timers ++ limit?.toList.map fun limit => ⟨l.now + limit, t⟩ :=
    (timers_settle l₃ _ o).trans later.timers
  have paused : Paused scope t (.race l.tasks.length k) l told :=
    { ready := rfl
      waiters := (congrArg Lock.waiters (lock_settle l₃ _ o)).trans clear.waiters
      le := now ▸ later.le
      inTime := by
        rw [now]
        exact later.inTime.imp_right fun before timer mem => before timer (List.mem_append_left _ mem)
      timers := by
        rw [timers, List.filter_append, h.filter_timers, List.filter_map]
        simp [Function.comp_def]
      length := by
        rw [show told.tasks.length = l₃.tasks.length from length_settle l₃ _ o]
        exact wide.le.trans later.length
      others := fun j lt' ne => (kept j lt'.ne).trans
        ((later.others j (lt'.trans wide) lt'.ne).trans (tasks_raced_of_ne lt' ne))
      task := ⟨_, (kept t lt.ne).trans racer, rfl, own, fresh, rfl, by rw [e]; rfl⟩ }
  obtain ⟨racer', l', waits, own', leads, clear', later', same, others⟩ :=
    paused.woken handler h
  have ended' : l'.outcome? l.tasks.length = some o :=
    (outcome?_congr (others _ lt.ne')).trans (outcome?_settle o e₃)
  have goesOn : resume handler racer' t .resumed l' = exec handler scope t (k (.settled o)) l' := by
    simp only [resume, waits, own', ended']
  refine ⟨l', .job running queue (notified ▸ goesOn ▸ leads), clear', later', same.trans ?_⟩
  simp only [situation, told, now_settle, world_settle, lock_settle]

end Clear

end

namespace Clear

/-- A race comes to what its part comes to, and goes on, unless a limit passes meanwhile. -/
theorem goes_race {part : Routine E} {limit? : Option Rat} {k : RaceEnd → Routine E}
    (h : l.Clear scope base t)
    (ihp : ∀ (p : Nat) (l₁ : Loop E W), l₁.Clear scope base p →
      Goes handler scope base p l₁ (evaluate handler scope part l₁.situation)
        (exec handler scope p part l₁))
    (ih : ∀ (o : Outcome) (l₁ : Loop E W), l₁.Clear scope base t →
      Goes handler scope base t l₁ (evaluate handler scope (k (.settled o)) l₁.situation)
        (exec handler scope t (k (.settled o)) l₁)) :
    Goes handler scope base t l (evaluate handler scope (.race part limit? k) l.situation)
      (exec handler scope t (.race part limit? k) l) := by
  refine Goes.head h.leads_raced ?_
  have inside := ihp _ _ (h.raced part limit? k)
  rw [show (l.raced scope t part limit? k).situation = l.situation from rfl] at inside
  simp only [evaluate]
  generalize came : evaluate handler scope part l.situation = x at inside
  cases inside with
  | @ends o _ l₃ later clear₃ leads =>
    obtain ⟨l', goesOn, clear', later', same⟩ := h.leads_settled handler o later clear₃
    have before : l₃.situation.now = l.situation.now ∨
        ∀ q ∈ limit?, l₃.situation.now < l.situation.now + q := by
      refine later.inTime.imp_right fun before q mem => before ⟨l.now + q, t⟩ ?_
      exact List.mem_append_right _ (List.mem_map.2 ⟨q, Option.mem_toList.2 mem, rfl⟩)
    have goes := ih o l' clear'
    rw [same] at goes
    rw [Ending.within_over before]
    refine (goes.of_later later' fun o s ended => ?_).head (leads.trans goesOn)
    exact (congrArg Situation.now same).le.trans (Routine.now_le_of_evaluate ended)
  | stops none' leads running idle =>
    obtain ⟨outer, unlimited⟩ := List.append_eq_nil_iff.1 none'
    obtain rfl : limit? = none := Option.toList_eq_nil_iff.1 (List.map_eq_nil_iff.1 unlimited)
    exact .stops outer leads running idle
  | passes late stuck leads passes =>
    -- If the part ends in time for this limit, one of those around passes before.
    have early {o : Outcome} {s : Situation W} (ended : x = .over o s)
        (inTime : s.now = l.now ∨ ∀ q ∈ limit?, s.now < l.now + q) :
        s.now ≠ l.now ∧ ∃ timer ∈ l.timers, timer.due ≤ s.now := by
      obtain ⟨moved, passed⟩ := not_or.1 (late o s ended)
      push Not at passed
      obtain ⟨timer, mem, le⟩ := passed
      refine ⟨moved, ?_⟩
      rcases List.mem_append.1 mem with outer | own
      · exact ⟨timer, outer, le⟩
      · obtain ⟨q, mem', rfl⟩ := List.mem_map.1 own
        exact absurd (inTime.resolve_left moved q (Option.mem_toList.1 mem')) (not_lt.2 le)
    cases x with
    | «over» o₁ s₁ =>
      by_cases inTime : s₁.now = l.situation.now ∨ ∀ q ∈ limit?, s₁.now < l.situation.now + q
      · obtain ⟨moved, timer, mem, le⟩ := early rfl inTime
        rw [Ending.within_over inTime]
        refine .passes (fun o s ended inTime' => ?_) (fun _ => List.ne_nil_of_mem mem) leads passes
        have after := Routine.now_le_of_evaluate ended
        rcases inTime' with same | before
        · exact moved (le_antisymm (same ▸ after) (Routine.now_le_of_evaluate came))
        · exact absurd (before timer mem) (not_lt.2 (le.trans after))
      · rw [Ending.within_over_late inTime]
        exact .passes (fun _ _ ended => by cases ended) nofun leads passes
    | stuck =>
      rw [Ending.within_stuck]
      split
      · exact .passes (fun _ _ ended => by cases ended) nofun leads passes
      · rename_i unlimited
        obtain rfl : limit? = none := Option.not_isSome_iff_eq_none.1 unlimited
        refine .passes (fun _ _ ended => by cases ended) (fun _ none' => stuck rfl ?_) leads passes
        rw [timers_raced, none']
        rfl
    | late => exact .passes (fun _ _ ended => by cases ended) nofun leads passes

/-- The task takes the lock or gives it back. -/
theorem withLock (h : l.Clear scope base t) (held : Bool) :
    (l.setLock ⟨held, []⟩).Clear scope base t ∧ Later t l (l.setLock ⟨held, []⟩) :=
  ⟨⟨h.ready, rfl, h.first, h.task, h.limits⟩,
    ⟨le_refl _, .inl rfl, rfl, Nat.le_refl _, fun _ _ _ => rfl, rfl⟩⟩

/-- The loop comes to what the routine of the running task comes to. -/
theorem goes (r : Routine E) (h : l.Clear scope base t) :
    Goes handler scope base t l (evaluate handler scope r l.situation) (exec handler scope t r l) := by
  induction r generalizing l t with
  | done o => exact .ends (.refl t l) h (.refl _)
  | perform op k ih =>
    have kept : Clear scope base t { l with world := (handler scope op l.world).2 } :=
      ⟨h.ready, h.waiters, h.first, h.task, h.limits⟩
    have later : Later t l { l with world := (handler scope op l.world).2 } :=
      ⟨le_refl _, .inl rfl, rfl, Nat.le_refl _, fun _ _ _ => rfl, rfl⟩
    exact (ih (handler scope op l.world).1 kept).of_later later fun _ _ =>
      Routine.now_le_of_evaluate
  | clock k ih => exact ih l.now h
  | sleep d k ih => exact h.goes_sleep fun l₁ h₁ => ih .resumed h₁
  | race part limit? k ihp ih =>
    exact h.goes_race (fun p l₁ h₁ => ihp h₁) fun o l₁ h₁ => ih (.settled o) h₁
  | acquire k ih =>
    have free : l.lockIsFree = !l.lock.held := by
      unfold lockIsFree
      rw [h.waiters, List.all_nil, Bool.and_true]
    cases held : l.lock.held with
    | false =>
      obtain ⟨taken, later⟩ := h.withLock true
      simp only [evaluate, situation, held, Bool.false_eq_true, if_false, exec, free, Bool.not_false,
        if_true, setLock, h.waiters]
      exact (ih .resumed taken).of_later later fun _ _ => Routine.now_le_of_evaluate
    | true =>
      -- The task waits for itself.
      let waiting := (l.setLock ⟨true, l.lock.waiters ++ [t]⟩).wait t (.lock k)
      have waits : exec handler scope t (.acquire k) l = waiting := by
        rw [exec, free, held]
        rfl
      have unfinished := (h.paused (w := .lock k) rfl (le_refl _) (.inl rfl) h.filter_timers).running h
      have running : waiting.isOver base = false := unfinished
      have came : evaluate handler scope (.acquire k) l.situation = .stuck := by
        rw [evaluate, situation, held]
        rfl
      rw [waits, came]
      by_cases none' : l.timers = []
      · refine .stops none' (.refl _) running ?_
        rw [next?_of_ready_nil (l := waiting) h.ready, show waiting.timers = [] from none']
        rfl
      · exact .passes (fun _ _ ended => by cases ended) (fun _ => none') (.refl _)
          (h.limitPasses none' h.ready (fun _ mem => mem) (fun _ mem => .inl mem)
            fun j _ ne => tasks_wait_of_ne ne)
  | release next ih =>
    obtain ⟨given, later⟩ := h.withLock false
    have none' : (l.setLock ⟨false, l.lock.waiters⟩).wakeFirst = l.setLock ⟨false, []⟩ := by
      unfold wakeFirst
      simp only [setLock, h.waiters]
    simp only [evaluate, exec, none']
    exact (ih given).of_later later fun _ _ => Routine.now_le_of_evaluate

end Clear

/-! ## Runs -/

/-- Nothing runs in the loop and nobody waits for the lock. -/
structure Idle (l : Loop E W) : Prop where
  ready : l.ready = []
  timers : l.timers = []
  waiters : l.lock.waiters = []

namespace Idle

variable {r : Routine E}

/-- In an idle loop, a routine comes to what it comes to when nothing runs beside it. -/
theorem goes (handler : Handler E W) (scope : Nat) (idle : l.Idle) (r : Routine E) :
    ∃ l₀ : Loop E W, l₀.timers = [] ∧ (l₀.tasks[l.tasks.length]?).bind Task.racer? = none ∧
      Goes handler scope l.tasks.length l.tasks.length l₀ (evaluate handler scope r l.situation)
        (l.started handler r scope) := by
  have last : (l.tasks ++ [(⟨.start r, none, false, scope, none⟩ : Task E)])[l.tasks.length]? =
    some ⟨.start r, none, false, scope, none⟩ := List.getElem?_concat_length
  let l₀ : Loop E W := { l with tasks := l.tasks ++ [⟨.start r, none, false, scope, none⟩] }
  have clear : l₀.Clear scope l.tasks.length l.tasks.length := by
    refine ⟨idle.ready, idle.waiters, ⟨_, last, rfl⟩, ⟨_, last, rfl, rfl, rfl⟩, fun timer mem => ?_⟩
    rw [show l₀.timers = [] from idle.timers] at mem
    cases mem
  exact ⟨l₀, idle.timers, by rw [last]; rfl, clear.goes r⟩

/-- A routine that ends when nothing runs beside it ends in an idle loop. -/
theorem run_of_evaluate (idle : l.Idle) {o : Outcome} {s : Situation W}
    (came : evaluate handler scope r l.situation = .over o s) :
    ∃ l', l.run handler r scope = (l', some o) ∧ l'.now = s.now ∧ l'.world = s.world := by
  obtain ⟨l₀, none', racer, goes⟩ := idle.goes handler scope r
  rw [came] at goes
  cases goes with
  | @ends _ _ l₁ later clear leads =>
    obtain ⟨task, e, -⟩ := clear.task
    exact ⟨_, run_eq_some_iff.2 ⟨leads, outcome?_settle o e⟩, now_settle .., world_settle ..⟩
  | passes late _ _ _ =>
    refine absurd (.inr fun timer mem => ?_) (late o s rfl)
    rw [none'] at mem
    cases mem

/-- If no limit passes, a routine comes in an idle loop to what it comes to when nothing runs beside it,
or waits for the lock that it holds. -/
theorem evaluate_of_run (idle : l.Idle)
    (inTime : ∀ l', Through handler r scope l l' → l'.limitPasses = false) :
    evaluate handler scope r l.situation ≠ .late := by
  obtain ⟨l₀, none', -, goes⟩ := idle.goes handler scope r
  intro came
  rw [came] at goes
  cases goes with
  | passes _ _ leads passes => exact absurd passes (inTime _ leads ▸ Bool.false_ne_true)

/-- A routine that waits for the lock it holds does not end. -/
theorem run_of_stuck (idle : l.Idle) (came : evaluate handler scope r l.situation = .stuck) (l' : Loop E W)
    (o : Outcome) : l.run handler r scope ≠ (l', some o) := by
  obtain ⟨l₀, none', -, goes⟩ := idle.goes handler scope r
  rw [came] at goes
  intro ran
  obtain ⟨leads', ended⟩ := run_eq_some_iff.1 ran
  cases goes with
  | stops _ leads running stops =>
    have isOver : l'.isOver l.tasks.length = true := by rw [Loop.isOver, ended]; rfl
    exact absurd (leads.running leads' stops running) (isOver ▸ Bool.noConfusion)
  | passes _ stuck _ _ => exact stuck rfl none'

end Idle

end Loop

end GraphClient
