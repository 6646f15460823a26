import GraphClient.Proofs.Flow.Deadline

/-!
# A cancellation goes down task by task

When the limit of a race passes, its task asks the part to stop and waits for its end. If the part
races another one, it asks that one to stop and ends without waiting for it, and so on. Each turn of
the queue takes the cancellation one task further. The race has its own turn after the third one.

* `Cascade`: how far the cancellation has come.
* `Cascade.falls`, `Cascade.tells`, `Cascade.told`: what a turn does.
* `raises`: when the race goes on, three of the tasks inside it have ended, and no others.
* `Timed.raises`: so it is when the first limit of a timed routine passes.
-/

namespace GraphClient.Loop

open Routine (AtOnce Timed Wakes)

variable {E : Effects} {W : Type} (handler : Handler E W) (scope : Nat) (J : W → Prop)

/-- What the task at a depth inside a race waits for: the innermost one sleeps, and each of the others
races the next one. They end as soon as they are cancelled. -/
inductive Inside (t m : Nat) : Nat → Wait E → Prop
  | race {j k} : j < m → AtOnce handler scope J (k .cancelled) (.error .cancelled) →
      Inside t m j (.race (t + (j + 1)) k)
  | sleep {k} : AtOnce handler scope J (k .cancelled) (.error .cancelled) → Inside t m m (.sleep k)

/-- Inside the race of a task, a number of tasks stand one inside the other. Those up to a depth have
ended, and the next one was asked to stop. -/
structure Cascade (base t m a : Nat) (racer : Task E) (queue : List Job) (l : Loop E W) : Prop where
  running : l.isOver base = false
  racer : l.tasks[t]? = some racer
  ended : ∀ j, 0 < j → j ≤ a → l.isOver (t + j) = true
  inside : ∀ j, a ≤ j → j < m → ∃ w, Inside handler scope J t m (j + 1) w ∧ l.tasks[t + (j + 1)]? =
    some ⟨w, if j = a then some .cancelled else none, false, scope, some (t + j)⟩
  ready : l.ready = queue
  world : J l.world

/-- Steps of the loop, while the clock stands still and no task starts. -/
structure Meanwhile (base : Nat) (l l' : Loop E W) : Prop where
  leads : Leads handler base l l'
  now : l'.now = l.now
  length : l'.tasks.length = l.tasks.length

/-- The next step of the loop goes on with a routine in a task. -/
def GoesOn (t : Nat) (r : Routine E) (l : Loop E W) : Prop :=
  ∃ l', l.next? handler = some (exec handler scope t r l') ∧ l'.world = l.world ∧
    ∀ j ≠ t, l'.tasks[j]? = l.tasks[j]?

variable {handler scope J} {base t m a : Nat} {racer : Task E} {rest : List Job} {l : Loop E W}

/-- Asked to stop, a task inside the race is to run once more. -/
theorem cancel_inside {w : Wait E} {j n : Nat} {racer? : Option Nat}
    (inside : Inside handler scope J t m j w)
    (e : l.tasks[n]? = some ⟨w, none, false, scope, racer?⟩) :
    cancel l.tasks.length n l = l.resolve n .cancelled := by
  obtain ⟨bound, many⟩ : ∃ bound, l.tasks.length = bound + 1 :=
    Nat.exists_eq_add_one_of_ne_zero (by have := (List.getElem?_eq_some_iff.1 e).1; omega)
  rw [many]
  unfold cancel
  rw [e]
  cases inside <;> rfl

namespace Cascade

/-- The job by which the next task is to stop, if there is one. -/
def ahead (t m a : Nat) : List Job := if a < m then [.wake (t + (a + 1))] else []

/-- The task that was asked to stop has its turn: it asks the next one to stop and ends. -/
theorem turn (h : Cascade handler scope J base t m a racer (.wake (t + (a + 1)) :: rest) l)
    (lt : a < m) : ∃ l₁ : Loop E W, ∃ task : Task E,
      l.next? handler = some (l₁.settle (t + (a + 1)) (.error .cancelled)) ∧
      l₁.tasks[t + (a + 1)]? = some task ∧ task.racer? = some (t + a) ∧
      l₁.ready = rest ++ ahead t m (a + 1) ∧ l₁.now = l.now ∧ l₁.tasks.length = l.tasks.length ∧
      J l₁.world ∧ (∀ j, j ≤ t + a → l₁.tasks[j]? = l.tasks[j]?) ∧
      ∀ j, a + 1 ≤ j → j < m → ∃ w, Inside handler scope J t m (j + 1) w ∧ l₁.tasks[t + (j + 1)]? =
        some ⟨w, if j = a + 1 then some .cancelled else none, false, scope, some (t + j)⟩ := by
  obtain ⟨w, inside, e⟩ := h.inside a (Nat.le_refl a) lt
  rw [if_pos rfl] at e
  let clear (task : Task E) : Task E := { task with signal? := none, mustCancel := false }
  let l₀ : Loop E W := Loop.updateTask { l with ready := rest } (t + (a + 1)) clear
  have popped : (Loop.tasks { l with ready := rest })[t + (a + 1)]? =
    some ⟨w, some .cancelled, false, scope, some (t + a)⟩ := e
  have step : l.next? handler = some (resume handler ⟨w, some .cancelled, false, scope, some (t + a)⟩
      (t + (a + 1)) .cancelled l₀) := by
    rw [next?_of_job h.ready, runJob_wake popped]
    rfl
  have self : l₀.tasks[t + (a + 1)]? = some ⟨w, none, false, scope, some (t + a)⟩ :=
    tasks_updateTask_self popped
  have others (j : Nat) (ne : j ≠ t + (a + 1)) : l₀.tasks[j]? = l.tasks[j]? := tasks_updateTask_of_ne ne
  cases inside with
  | sleep stop =>
    obtain ⟨world, hw, ran⟩ := exec_atOnce stop (t + (a + 1)) (l := l₀) h.world
    refine ⟨{ l₀ with world }, _, step.trans (congrArg some ran), self, rfl, ?_, rfl,
      length_updateTask _, hw, fun j le => others j (by omega), fun j le lt => by omega⟩
    rw [ahead, if_neg (Nat.lt_irrefl _), List.append_nil]
    rfl
  | @race j k deeper stop =>
    obtain ⟨w', inside', e'⟩ := h.inside (a + 1) (Nat.le_succ a) deeper
    rw [if_neg (Nat.succ_ne_self a)] at e'
    have next : l₀.tasks[t + (a + 1 + 1)]? = some ⟨w', none, false, scope, some (t + (a + 1))⟩ :=
      (others _ (by omega)).trans e'
    obtain ⟨world, hw, ran⟩ := exec_atOnce stop (t + (a + 1))
      (l := l₀.resolve (t + (a + 1 + 1)) .cancelled) h.world
    have went : resume handler ⟨.race (t + (a + 1 + 1)) k, some .cancelled, false, scope, some (t + a)⟩
        (t + (a + 1)) .cancelled l₀ =
          Loop.settle { l₀.resolve (t + (a + 1 + 1)) .cancelled with world } (t + (a + 1))
            (.error .cancelled) := by
      rw [← ran, ← cancel_inside inside' next]
      rfl
    refine ⟨{ l₀.resolve (t + (a + 1 + 1)) .cancelled with world }, _,
      step.trans (congrArg some went), (tasks_resolve_of_ne (by omega)).trans self, rfl, ?_, rfl,
      (length_resolve _).trans (length_updateTask _), hw,
      fun j le => (tasks_resolve_of_ne (by omega)).trans (others j (by omega)), ?_⟩
    · rw [ahead, if_pos deeper]
      rfl
    · intro j le lt'
      by_cases first : j = a + 1
      · subst first
        rw [if_pos rfl]
        exact ⟨w', inside', tasks_resolve_self next⟩
      · obtain ⟨w'', inside'', e''⟩ := h.inside j (by omega) lt'
        rw [if_neg (by omega)] at e''
        rw [if_neg first]
        exact ⟨w'', inside'',
          (tasks_resolve_of_ne (by omega)).trans ((others _ (by omega)).trans e'')⟩

/-- A task that has ended waits for none. -/
theorem awaits_of_isOver {n part : Nat} (ended : l.isOver n = true) : l.awaits n part = false := by
  unfold isOver outcome? at ended
  unfold Loop.awaits
  cases e : l.tasks[n]? with
  | none => rfl
  | some task =>
    rw [e] at ended
    obtain ⟨wait, signal, m, s, r⟩ := task
    cases wait <;> cases signal <;> first | rfl | cases ended

/-- The cancellation comes to the next task: what is asked of this one and all that is above has come
to pass. -/
theorem step (h : Cascade handler scope J base t m a racer (.wake (t + (a + 1)) :: rest) l)
    (le : base ≤ t) (lt : a < m) (told : List Job)
    (tells : ∀ (l₁ : Loop E W) (task : Task E), l₁.tasks[t + (a + 1)]? = some task →
      task.racer? = some (t + a) → (∀ j, j ≤ t + a → l₁.tasks[j]? = l.tasks[j]?) →
      (l₁.settle (t + (a + 1)) (.error .cancelled)).ready = l₁.ready ++ told) :
    ∃ l', Meanwhile handler base l l' ∧
      Cascade handler scope J base t m (a + 1) racer (rest ++ ahead t m (a + 1) ++ told) l' := by
  obtain ⟨l₁, task, step, e, raced, ready, now, length, world, same, inside⟩ := h.turn lt
  have same' (j : Nat) (low : j ≤ t + a) :
      (l₁.settle (t + (a + 1)) (.error .cancelled)).tasks[j]? = l.tasks[j]? :=
    (tasks_settle_of_ne _ _ _ (by omega)).trans (same j low)
  refine ⟨_, ⟨.step h.running step (.refl _), (now_settle _ _ _).trans now,
    (length_settle _ _ _).trans length⟩, ?_⟩
  exact
    { running := (isOver_congr (same' base (by omega))).trans h.running
      racer := (same' t (by omega)).trans h.racer
      ended := fun j pos low => by
        by_cases last : j = a + 1
        · subst last
          unfold isOver
          rw [outcome?_settle _ e]
          rfl
        · exact (isOver_congr (same' _ (by omega))).trans (h.ended j pos (by omega))
      inside := fun j low lt => by
        obtain ⟨w, inside, e⟩ := inside j low lt
        exact ⟨w, inside, (tasks_settle_of_ne _ _ _ (by omega)).trans e⟩
      ready := by rw [tells l₁ task e raced same, ready]
      world := (world_settle _ _ _).symm ▸ world }

/-- Nobody waits any more for a task deeper inside. -/
theorem falls (h : Cascade handler scope J base t m a racer (.wake (t + (a + 1)) :: rest) l)
    (le : base ≤ t) (deep : 0 < a) (lt : a < m) :
    ∃ l', Meanwhile handler base l l' ∧
      Cascade handler scope J base t m (a + 1) racer (rest ++ ahead t m (a + 1)) l' := by
  obtain ⟨l', meanwhile, next⟩ := h.step le lt [] fun l₁ task e raced same => by
    rw [List.append_nil]
    rcases ready_settle (.error .cancelled) e with ⟨parent, raced', awaits, -⟩ | ⟨-, ready⟩
    · obtain rfl := Option.some.inj (raced.symm.trans raced')
      have ended := (isOver_congr (same _ (Nat.le_refl _))).trans (h.ended a deep (Nat.le_refl a))
      rw [awaits_congr (tasks_settle_of_ne l₁ _ _ (by omega)), awaits_of_isOver ended] at awaits
      cases awaits
    · exact ready
  rw [List.append_nil] at next
  exact ⟨l', meanwhile, next⟩

/-- The race waits for the first of the tasks inside. -/
theorem tells {k : RaceEnd → Routine E} {racer? : Option Nat}
    (h : Cascade handler scope J base t m 0 ⟨.drain (t + 1) false k, none, false, scope, racer?⟩
      (.wake (t + 1) :: rest) l) (le : base ≤ t) (lt : 0 < m) :
    ∃ l', Meanwhile handler base l l' ∧
      Cascade handler scope J base t m 1 ⟨.drain (t + 1) false k, none, false, scope, racer?⟩
        (rest ++ ahead t m 1 ++ [.notify t (t + 1)]) l' :=
  h.step le lt _ fun l₁ task e raced same =>
    ready_settle_expected _ e raced (by omega) ((same t (by omega)).trans h.racer) (.inr ⟨k, rfl⟩)

/-- The race is told of the end of its part. -/
theorem told {k : RaceEnd → Routine E} {racer? : Option Nat}
    (h : Cascade handler scope J base t m a ⟨.drain (t + 1) false k, none, false, scope, racer?⟩
      (.notify t (t + 1) :: rest) l) :
    ∃ l', Meanwhile handler base l l' ∧
      Cascade handler scope J base t m a
        ⟨.drain (t + 1) false k, some .resumed, false, scope, racer?⟩ (rest ++ [.wake t]) l' := by
  have popped : (Loop.tasks { l with ready := rest })[t]? =
    some ⟨.drain (t + 1) false k, none, false, scope, racer?⟩ := h.racer
  have notified : runJob handler (.notify t (t + 1)) { l with ready := rest } =
      Loop.resolve { l with ready := rest } t .resumed := by
    simp only [runJob, Loop.notify, popped, if_true, Bool.false_eq_true, if_false]
  have step : l.next? handler = some (Loop.resolve { l with ready := rest } t .resumed) :=
    notified ▸ next?_of_job h.ready
  refine ⟨_, ⟨.step h.running step (.refl _), rfl, length_resolve _⟩, ?_⟩
  exact
    { running := (isOver_resolve t base .resumed).trans h.running
      racer := tasks_resolve_self popped
      ended := fun j pos low => (isOver_resolve t _ .resumed).trans (h.ended j pos low)
      inside := fun j low lt => by
        obtain ⟨w, inside, e⟩ := h.inside j low lt
        exact ⟨w, inside, (tasks_resolve_of_ne (by omega)).trans e⟩
      ready := rfl
      world := h.world }

/-- The race is to go on: of the tasks inside, those that the cancellation has passed have ended. -/
theorem back {k : RaceEnd → Routine E} {racer? : Option Nat}
    (h : Cascade handler scope J base t m a
      ⟨.drain (t + 1) false k, some .resumed, false, scope, racer?⟩ (.wake t :: rest) l) :
    GoesOn handler scope t (k .expired) l ∧
      ∀ j, 0 < j → j ≤ m → (l.isOver (t + j) = true ↔ j ≤ a) := by
  have popped : (Loop.tasks { l with ready := rest })[t]? =
    some ⟨.drain (t + 1) false k, some .resumed, false, scope, racer?⟩ := h.racer
  let l₁ : Loop E W := Loop.updateTask { l with ready := rest } t fun task =>
    { task with signal? := none, mustCancel := false }
  have step : l.next? handler = some (exec handler scope t (k .expired) l₁) := by
    rw [next?_of_job h.ready, runJob_wake popped]
    rfl
  refine ⟨⟨l₁, step, rfl, fun j ne => tasks_updateTask_of_ne ne⟩,
    fun j pos low => ⟨fun ended => ?_, h.ended j pos⟩⟩
  · by_contra deep
    obtain ⟨j, rfl⟩ := Nat.exists_eq_succ_of_ne_zero (Nat.ne_of_gt pos)
    obtain ⟨w, inside, e⟩ := h.inside j (by omega) (by omega)
    unfold isOver outcome? at ended
    rw [e] at ended
    cases inside <;> cases ended

end Cascade

variable {i : Nat} {k : RaceEnd → Routine E}

/-- The limit of a race has passed: its task asks the part to stop and waits for the end of it. -/
theorem cascade_of_expiry (running : l.isOver base = false)
    (expires : l.tasks[base + i]? = some { racing base scope i k with signal? := some .resumed })
    (inside : ∀ j < m, ∃ w, Inside handler scope J (base + i) m (j + 1) w ∧
      l.tasks[base + i + (j + 1)]? = some ⟨w, none, false, scope, some (base + i + j)⟩)
    (some' : 0 < m) (ready : l.ready = [.wake (base + i)]) (world : J l.world) :
    ∃ l', Meanwhile handler base l l' ∧ Cascade handler scope J base (base + i) m 0
      ⟨.drain (base + i + 1) false k, none, false, scope, parent? base i⟩
      [.wake (base + i + 1)] l' := by
  obtain ⟨w, within, e⟩ := inside 0 some'
  have unsettled : Loop.outcome? { l with ready := [] } (base + i + 1) = none := by
    unfold outcome?
    rw [show (Loop.tasks { l with ready := [] })[base + i + 1]? = _ from e]
    cases within <;> rfl
  let l₁ : Loop E W := Loop.updateTask { l with ready := [] } (base + i) fun task =>
    { task with signal? := none, mustCancel := false }
  have others (j : Nat) (ne : j ≠ base + i) : l₁.tasks[j]? = l.tasks[j]? := tasks_updateTask_of_ne ne
  have self : l₁.tasks[base + i]? = some (racing base scope i k) :=
    tasks_updateTask_self (l := { l with ready := [] }) expires
  have part : l₁.tasks[base + i + 1]? = some ⟨w, none, false, scope, some (base + i)⟩ :=
    (others _ (by omega)).trans e
  have step : l.next? handler = some ((l₁.resolve (base + i + 1) .cancelled).wait (base + i)
      (.drain (base + i + 1) false k)) := by
    rw [next?_of_job ready, runJob_expired (l := { l with ready := [] }) expires unsettled,
      ← cancel_inside within part, length_updateTask]
  let l₂ : Loop E W := (l₁.resolve (base + i + 1) .cancelled).wait (base + i)
    (.drain (base + i + 1) false k)
  have racer : l₂.tasks[base + i]? =
      some ⟨.drain (base + i + 1) false k, none, false, scope, parent? base i⟩ :=
    tasks_wait_self ((tasks_resolve_of_ne (by omega)).trans self)
  have waits : l₂.isOver (base + i) = false := by
    unfold isOver outcome?
    rw [racer]
    rfl
  have kept (j : Nat) (ne : j ≠ base + i) (ne' : j ≠ base + i + 1) : l₂.tasks[j]? = l.tasks[j]? :=
    (tasks_wait_of_ne ne).trans ((tasks_resolve_of_ne ne').trans (others j ne))
  refine ⟨l₂, ⟨.step running step (.refl _), rfl,
    (length_updateTask _).trans ((length_resolve _).trans (length_updateTask _))⟩, ?_⟩
  exact
    { running := by
        by_cases outermost : base = base + i
        · exact (congrArg l₂.isOver outermost).trans waits
        · exact (isOver_congr (kept base outermost (by omega))).trans running
      racer := racer
      ended := fun j pos low => absurd pos (by omega)
      inside := fun j _ lt => by
        by_cases first : j = 0
        · subst first
          rw [if_pos rfl]
          exact ⟨w, within, (tasks_wait_of_ne (by omega)).trans (tasks_resolve_self part)⟩
        · obtain ⟨w', within', e'⟩ := inside j lt
          rw [if_neg first]
          exact ⟨w', within', (kept _ (by omega) (by omega)).trans e'⟩
      ready := rfl
      world := world }

theorem Meanwhile.trans {l' l'' : Loop E W} (h : Meanwhile handler base l l')
    (h' : Meanwhile handler base l' l'') : Meanwhile handler base l l'' :=
  ⟨h.leads.trans h'.leads, h'.now.trans h.now, h'.length.trans h.length⟩

/-- When the race goes on whose limit has passed, three of the tasks inside it have ended, and no
others. -/
theorem raises (running : l.isOver base = false)
    (expires : l.tasks[base + i]? = some { racing base scope i k with signal? := some .resumed })
    (inside : ∀ j < m, ∃ w, Inside handler scope J (base + i) m (j + 1) w ∧
      l.tasks[base + i + (j + 1)]? = some ⟨w, none, false, scope, some (base + i + j)⟩)
    (some' : 0 < m) (ready : l.ready = [.wake (base + i)]) (world : J l.world) :
    ∃ l', Meanwhile handler base l l' ∧ GoesOn handler scope (base + i) (k .expired) l' ∧
      ∀ j, 0 < j → j ≤ m → (l'.isOver (base + i + j) = true ↔ j ≤ 3) := by
  have low : base ≤ base + i := Nat.le_add_right base i
  obtain ⟨l₀, begins, h₀⟩ := cascade_of_expiry running expires inside some' ready world
  obtain ⟨l₁, tells, h₁⟩ := h₀.tells low some'
  by_cases two : 1 < m
  · simp only [Cascade.ahead, if_pos two, List.nil_append, List.cons_append] at h₁
    obtain ⟨l₂, falls, h₂⟩ := h₁.falls low Nat.one_pos two
    obtain ⟨l₃, told, h₃⟩ := h₂.told
    by_cases three : 2 < m
    · simp only [Cascade.ahead, if_pos three, List.cons_append, List.nil_append, List.append_eq] at h₃
      obtain ⟨l₄, falls', h₄⟩ := h₃.falls low Nat.two_pos three
      obtain ⟨goesOn, ended⟩ := h₄.back
      exact ⟨l₄, (((begins.trans tells).trans falls).trans told).trans falls', goesOn, ended⟩
    · simp only [Cascade.ahead, if_neg three, List.nil_append, List.append_eq] at h₃
      obtain ⟨goesOn, ended⟩ := h₃.back
      exact ⟨l₃, ((begins.trans tells).trans falls).trans told, goesOn, fun j pos le =>
        (ended j pos le).trans ⟨fun _ => by omega, fun _ => by omega⟩⟩
  · simp only [Cascade.ahead, if_neg two, List.nil_append] at h₁
    obtain ⟨l₂, told, h₂⟩ := h₁.told
    obtain ⟨goesOn, ended⟩ := h₂.back
    exact ⟨l₂, (begins.trans tells).trans told, goesOn, fun j pos le =>
      (ended j pos le).trans ⟨fun _ => by omega, fun _ => by omega⟩⟩

/-! ## The first limit passes -/

variable {xs ys races : List (Race E)} {race : Race E} {due : Rat} {k' : Wake → Routine E}

/-- When a limit passes before all others and before the sleeper wakes, only its race is told. -/
theorem Asleep.passes (h : Asleep handler scope J base (xs ++ race :: ys) due k' l)
    (least : ∀ other ∈ xs ++ ys, race.due < other.due) (before : race.due < due) :
    l.next? handler =
      some (Loop.resolve { l with now := race.due } (base + xs.length) .resumed) := by
  have passing : l.timers.filter (·.due = race.due) = [⟨race.due, base + xs.length⟩] := by
    rw [h.timers, List.filter_append,
      Race.filter_timers_of_mem fun other mem => (least other mem).ne']
    simp [before.ne']
  rw [next?_of_timers h.ready (h.next least before.le), passing]
  rfl

/-- Inside a race of a tower stand the races after it, and the sleeper. -/
theorem Asleep.inside (h : Asleep handler scope J base (xs ++ race :: ys) due k' l)
    (stops : AtOnce handler scope J (k' .cancelled) (.error .cancelled)) :
    ∀ j < ys.length + 1, ∃ w, Inside handler scope J (base + xs.length) (ys.length + 1) (j + 1) w ∧
      l.tasks[base + xs.length + (j + 1)]? =
        some ⟨w, none, false, scope, some (base + xs.length + j)⟩ := by
  intro j lt
  have place : base + xs.length + (j + 1) = base + (xs.length + 1 + j) := by omega
  have parent : parent? base (xs.length + 1 + j) = some (base + xs.length + j) := by
    rw [Nat.add_right_comm]
    exact congrArg some (Nat.add_assoc ..).symm
  rcases Nat.lt_or_ge j ys.length with deeper | innermost
  · have found : (xs ++ race :: ys)[xs.length + 1 + j]? = some ys[j] := by
      rw [List.getElem?_append_right (by omega), show xs.length + 1 + j - xs.length = j + 1 by omega,
        List.getElem?_cons_succ, List.getElem?_eq_getElem deeper]
    have guards := h.guards ys[j] (by simp)
    refine ⟨_, .race (by omega) guards.cancelled, ?_⟩
    rw [place, h.racing _ _ found, racing, parent]
    congr 3
    omega
  · obtain rfl : j = ys.length := by omega
    have inner := h.inner
    rw [show (xs ++ race :: ys).length = xs.length + 1 + ys.length by simp; omega, parent] at inner
    exact ⟨_, .sleep stops, place ▸ inner⟩

/-- When a limit passes first, three of the tasks inside its race have ended as the race goes on, and
no others. -/
theorem Asleep.raises (h : Asleep handler scope J base (xs ++ race :: ys) due k' l)
    (stops : AtOnce handler scope J (k' .cancelled) (.error .cancelled))
    (least : ∀ other ∈ xs ++ ys, race.due < other.due) (before : race.due < due) :
    ∃ l', Leads handler base l l' ∧ l'.now = race.due ∧ l'.tasks.length = l.tasks.length ∧
      GoesOn handler scope (base + xs.length) (race.goesOn .expired) l' ∧
      ∀ j, xs.length < j → base + j < l.tasks.length →
        (l'.isOver (base + j) = true ↔ j ≤ xs.length + 3) := by
  let l₁ : Loop E W := Loop.resolve { l with now := race.due } (base + xs.length) .resumed
  have running : l.isOver base = false := (h.passOn (Nat.le_refl _)).running_of h.inner rfl
  have expires : l₁.tasks[base + xs.length]? =
      some { racing base scope xs.length race.goesOn with signal? := some .resumed } :=
    tasks_resolve_self (h.racing xs.length race (by simp))
  have ready : l₁.ready = [.wake (base + xs.length)] := by
    rw [ready_resolve, h.ready, List.nil_append]
  obtain ⟨l', meanwhile, goesOn, ended⟩ := Loop.raises (l := l₁) (m := ys.length + 1)
    ((isOver_resolve _ base .resumed).trans running) expires (fun j lt => by
      obtain ⟨w, inside, e⟩ := h.inside stops j lt
      exact ⟨w, inside, (tasks_resolve_of_ne (by omega)).trans e⟩) (Nat.succ_pos _) ready h.world
  refine ⟨l', .step running (h.passes least before) meanwhile.leads, meanwhile.now,
    meanwhile.length.trans (length_resolve _), goesOn, fun j deep lt => ?_⟩
  obtain ⟨j, rfl⟩ := Nat.exists_eq_add_of_le (Nat.le_of_lt deep)
  have length := h.length
  rw [List.length_append, List.length_cons] at length
  rw [← Nat.add_assoc, ended j (by omega) (by omega)]
  omega

/-- The state is one that the loop comes through when it runs a routine. -/
def Through (handler : Handler E W) (r : Routine E) (scope : Nat) (l l' : Loop E W) : Prop :=
  Leads handler l.tasks.length (exec handler scope l.tasks.length r
    { l with tasks := l.tasks ++ [⟨.start r, none, false, scope, none⟩] }) l'

/-- When a limit of a timed routine passes before the routine ends, the loop comes to a state in which
the first one to pass is about to end its race. All the races entered so far have tasks of their own.
Of those inside that race, the first three have ended, and no others. -/
theorem Timed.raises {T : Rat} {r : Routine E} {limits : List (Rat × Outcome)} {o : Outcome}
    (h : Timed handler scope J l.now r limits T o) (ready : l.ready = []) (timers : l.timers = [])
    (world : J l.world) (distinct : (limits.map Prod.fst).Nodup)
    (passes : ∃ limit ∈ limits, limit.1 ≤ T)
    (untied : ∀ limit ∈ limits, ¬Wakes handler scope J l.now r limit.1) :
    ∃ i entered time expired r' l', limits[i]? = some (time, expired) ∧
      (∀ limit ∈ limits, time ≤ limit.1) ∧ i < entered ∧ entered ≤ limits.length ∧
      Through handler r scope l l' ∧ l'.now = time ∧
      l'.tasks.length = l.tasks.length + entered + 1 ∧
      GoesOn handler scope (l.tasks.length + i) r' l' ∧ AtOnce handler scope J r' expired ∧
      ∀ j, i < j → j ≤ entered → (l'.isOver (l.tasks.length + j) = true ↔ j ≤ i + 3) := by
  cases Timed.comes h (running_start ready timers world r) rfl with
  | ends _ _ _ early =>
    obtain ⟨limit, mem, late⟩ := passes
    exact absurd (early limit mem) (not_lt.2 late)
  | @sleeps l₁ races due k inner leads asleep stops rest some' same wakes =>
    have same : Race.limits races ++ inner = limits := same
    have apart : ((Race.limits races).map Prod.fst).Nodup := by
      rw [← same, List.map_append] at distinct
      exact (List.nodup_append.1 distinct).1
    obtain ⟨xs, race, ys, rfl, le, least⟩ := exists_first apart some'
    have found : limits[xs.length]? = some (race.due, race.expired) := by
      simp [← same, Race.limits]
    -- The sleeper does not wake at the very time.
    have before : race.due < due := by
      refine lt_of_le_of_ne le fun tie => ?_
      exact untied _ (List.mem_of_getElem? found) (tie ▸ wakes)
    obtain ⟨l', leads', time, length, goesOn, ended⟩ := asleep.raises stops least before
    have tasks : l₁.tasks.length = l.tasks.length + (xs ++ race :: ys).length + 1 := asleep.length
    refine ⟨xs.length, (xs ++ race :: ys).length, race.due, race.expired, _, l', found,
      fun limit mem => ?_, by simp, ?_, leads.trans leads', time, length.trans tasks, goesOn,
      (asleep.guards race (by simp)).expired, fun j deep low => ended j deep (by omega)⟩
    · rw [← same] at mem
      rcases List.mem_append.1 mem with outer | later
      · obtain ⟨other, mem', rfl⟩ := List.mem_map.1 outer
        exact Race.le_of_first least other mem'
      · exact le.trans (rest.lt asleep.world limit later).le
    · have races : (Race.limits (xs ++ race :: ys)).length = (xs ++ race :: ys).length :=
        List.length_map _
      calc (xs ++ race :: ys).length = (Race.limits (xs ++ race :: ys)).length := races.symm
        _ ≤ limits.length := (same ▸ List.prefix_append _ _).length_le

end GraphClient.Loop
