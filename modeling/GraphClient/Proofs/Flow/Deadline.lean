import Mathlib.Data.List.Nodup
import GraphClient.Proofs.Flow.Unwinding

/-!
# Races inside races

A timed routine runs as a tower of tasks: each races the next one against a time limit of its own,
and the last one sleeps. The clock jumps to the sleeper's time or to a limit, whichever is first.

* `Tower`: the tasks and timers of the races so far.
* `Running.yields`, `Running.sleeps`, `Running.rises`, `Running.ends`: what the last task can do.
* `Asleep.wakes`, `Asleep.expires`: the sleeper goes on if no limit passes before, and otherwise the
  first limit ends the whole tower.
* `Timed.comes`: a timed routine ends before any limit passes, or comes to a sleep that a limit ends.
* `Timed.verdict`: a timed routine ends with its own outcome if no limit passes before, and with
  that of the first limit otherwise.
* `run_of_timed`: so does the loop that runs it.
-/

namespace GraphClient.Loop

open Routine (AtOnce Guards Timed Unlocked Wakes)

variable {E : Effects} {W : Type}

/-- A race: when its limit passes, how it goes on, and what it ends with if the limit passes. -/
structure Race (E : Effects) where
  due : Rat
  goesOn : RaceEnd → Routine E
  expired : Outcome

namespace Race

/-- The limits of some races. -/
def limits (races : List (Race E)) : List (Rat × Outcome) :=
  races.map fun race => (race.due, race.expired)

/-- The timers of some races, the first of which is the task of the given number. -/
def timers (base : Nat) : List (Race E) → List Timer
  | [] => []
  | race :: races => ⟨race.due, base⟩ :: timers (base + 1) races

variable {base : Nat} {races : List (Race E)}

theorem timers_append (xs ys : List (Race E)) :
    timers base (xs ++ ys) = timers base xs ++ timers (base + xs.length) ys := by
  induction xs generalizing base with
  | nil => rfl
  | cons race xs ih =>
    rw [List.cons_append, timers, ih, timers, List.cons_append, List.length_cons,
      Nat.add_assoc, Nat.add_comm 1]

theorem due_of_mem_timers {timer : Timer} (mem : timer ∈ timers base races) :
    ∃ race ∈ races, race.due = timer.due := by
  induction races generalizing base with
  | nil => cases mem
  | cons race races ih =>
    rcases List.mem_cons.1 mem with rfl | inRest
    · exact ⟨race, List.mem_cons_self, rfl⟩
    · obtain ⟨race', mem', same⟩ := ih inRest
      exact ⟨race', List.mem_cons_of_mem race mem', same⟩

theorem mem_timers (base : Nat) {race : Race E} (mem : race ∈ races) :
    ∃ timer ∈ timers base races, timer.due = race.due := by
  induction races generalizing base with
  | nil => cases mem
  | cons first races ih =>
    rcases List.mem_cons.1 mem with rfl | inRest
    · exact ⟨⟨race.due, base⟩, List.mem_cons_self, rfl⟩
    · obtain ⟨timer, mem', same⟩ := ih (base + 1) inRest
      exact ⟨timer, List.mem_cons_of_mem _ mem', same⟩

theorem task_lt_of_mem_timers {timer : Timer} (mem : timer ∈ timers base races) :
    timer.task < base + races.length := by
  induction races generalizing base with
  | nil => cases mem
  | cons race races ih =>
    rw [List.length_cons]
    rcases List.mem_cons.1 mem with rfl | inRest
    · exact Nat.lt_add_of_pos_right (Nat.succ_pos _)
    · have := ih inRest
      omega

theorem filter_timers {due : Rat} (others : ∀ race ∈ races, race.due ≠ due) :
    (timers base races).filter (·.due = due) = [] := by
  refine List.filter_eq_nil_iff.2 fun timer mem => ?_
  obtain ⟨race, mem', same⟩ := due_of_mem_timers mem
  rw [decide_eq_true_iff, ← same]
  exact others race mem'

/-- One of the races has a time of its own. -/
theorem filter_timers_of_mem {xs ys : List (Race E)} {race : Race E}
    (others : ∀ other ∈ xs ++ ys, other.due ≠ race.due) :
    (timers base (xs ++ race :: ys)).filter (·.due = race.due) =
      [⟨race.due, base + xs.length⟩] := by
  have before : (timers base xs).filter (·.due = race.due) = [] :=
    filter_timers fun other mem => others other (List.mem_append_left ys mem)
  have after : (timers (base + xs.length + 1) ys).filter (·.due = race.due) = [] :=
    filter_timers fun other mem => others other (List.mem_append_right xs mem)
  rw [timers_append, timers, List.filter_append, before, List.nil_append, List.filter_cons_of_pos,
    after]
  exact decide_eq_true rfl

/-- The timers of the races are not that of the task inside them. -/
theorem filter_inner : (timers base races).filter (·.task != base + races.length) =
    timers base races :=
  List.filter_eq_self.2 fun _ mem => bne_iff_ne.2 (Nat.ne_of_lt (task_lt_of_mem_timers mem))

theorem le_of_first {xs ys : List (Race E)} {race : Race E}
    (least : ∀ other ∈ xs ++ ys, race.due < other.due) :
    ∀ other ∈ xs ++ race :: ys, race.due ≤ other.due := by
  intro other mem
  rcases List.mem_append.1 mem with before | self | ⟨_, after⟩
  · exact (least other (List.mem_append_left ys before)).le
  · exact le_refl _
  · exact (least other (List.mem_append_right xs after)).le

end Race

variable (handler : Handler E W) (scope : Nat) (J : W → Prop) (base : Nat)

/-- The tasks of the number `base` and on race one another; none of their limits has passed. One
more task runs inside the last one. -/
structure Tower (races : List (Race E)) (l : Loop E W) : Prop where
  racing : ∀ i race, races[i]? = some race →
    l.tasks[base + i]? = some (racing base scope i race.goesOn)
  guards : ∀ race ∈ races, Guards handler scope J race.goesOn race.expired
  early : ∀ race ∈ races, l.now < race.due
  length : l.tasks.length = base + races.length + 1
  world : J l.world

/-- The innermost task of a tower is about to run. -/
structure Running (races : List (Race E)) (l : Loop E W) : Prop
    extends Tower handler scope J base races l where
  ready : l.ready = []
  timers : l.timers = Race.timers base races
  inner : ∃ w signal?, l.tasks[base + races.length]? =
    some ⟨w, signal?, false, scope, parent? base races.length⟩

/-- The innermost task of a tower sleeps until some time. -/
structure Asleep (races : List (Race E)) (due : Rat) (k : Wake → Routine E) (l : Loop E W) : Prop
    extends Tower handler scope J base races l where
  ready : l.ready = []
  timers : l.timers = Race.timers base races ++ [⟨due, base + races.length⟩]
  inner : l.tasks[base + races.length]? =
    some ⟨.sleep k, none, false, scope, parent? base races.length⟩

/-- What a timed routine inside some races ends with, and when: its own outcome if that is first,
and otherwise the outcome of the first limit. -/
def Verdict (limits : List (Rat × Outcome)) (T : Rat) (o : Outcome) (time : Rat)
    (outcome : Outcome) : Prop :=
  (∀ limit ∈ limits, T < limit.1) ∧ time = T ∧ outcome = o ∨
    (time, outcome) ∈ limits ∧ time < T ∧ ∀ limit ∈ limits, time ≤ limit.1

variable {handler scope J base} {races : List (Race E)} {l : Loop E W}

theorem next?_of_timers {due : Rat} (ready : l.ready = []) (next : nextDue? l.timers = some due) :
    l.next? handler = some ((l.timers.filter (·.due = due)).foldl
      (fun l timer => l.resolve timer.task .resumed) { l with now := due }) := by
  unfold next?
  rw [ready, next]
  rfl

namespace Tower

theorem passOn (h : Tower handler scope J base races l) {i : Nat} (le : i ≤ races.length) :
    PassOn handler scope J base i l := by
  intro j hj
  have found := List.getElem?_eq_getElem (Nat.lt_of_lt_of_le hj le)
  exact ⟨_, (h.guards _ (List.getElem_mem _)).settled, h.racing j _ found⟩

/-- A tower changes with its innermost task only. -/
theorem congr {l' : Loop E W} (h : Tower handler scope J base races l)
    (same : ∀ j < base + races.length, l'.tasks[j]? = l.tasks[j]?)
    (length : l'.tasks.length = l.tasks.length) (early : ∀ race ∈ races, l'.now < race.due)
    (world : J l'.world) : Tower handler scope J base races l' where
  racing i race found :=
    (same _ (Nat.add_lt_add_left (List.getElem?_eq_some_iff.1 found).1 base)).trans
      (h.racing i race found)
  guards := h.guards
  early := early
  length := length.trans h.length
  world := world

/-- No task is above the innermost one. -/
theorem cut (h : Tower handler scope J base races l) :
    l.Cut handler scope J (base + races.length) where
  wide := by
    rw [h.length]
    omega
  above {t task} ht e := by
    have := (List.getElem?_eq_some_iff.1 e).1
    rw [h.length] at this
    omega
  world := h.world

end Tower

/-- The innermost task of a tower, when its turn has come, goes on. -/
theorem leads_of_pending {r : Routine E} {w : Wait E} (h : Tower handler scope J base races l)
    (ready : l.ready = [.wake (base + races.length)]) (timers : l.timers = Race.timers base races)
    (e : l.tasks[base + races.length]? =
      some ⟨w, some .resumed, false, scope, parent? base races.length⟩)
    (runs : w = .start r ∨ ∃ k, w = .sleep k ∧ k .resumed = r) :
    ∃ l', Leads handler base l (exec handler scope (base + races.length) r l') ∧
      Running handler scope J base races l' ∧ l'.now = l.now := by
  let clear (task : Task E) : Task E := { task with signal? := none, mustCancel := false }
  let l' : Loop E W := Loop.updateTask { l with ready := [] } (base + races.length) clear
  have popped : (Loop.tasks { l with ready := [] })[base + races.length]? =
    some ⟨w, some .resumed, false, scope, parent? base races.length⟩ := e
  have ran : runJob handler (.wake (base + races.length)) { l with ready := [] } =
      exec handler scope (base + races.length) r l' := by
    rw [runJob_wake popped]
    rcases runs with rfl | ⟨k, rfl, rfl⟩ <;> rfl
  have unfinished : Task.isOver (E := E)
      ⟨w, some .resumed, false, scope, parent? base races.length⟩ = false := by
    rcases runs with rfl | ⟨k, rfl, -⟩ <;> rfl
  refine ⟨l', .job ((h.passOn (Nat.le_refl _)).running_of e unfinished) ready (ran ▸ .refl _),
    ⟨h.congr (fun j lt => tasks_updateTask_of_ne (by omega)) (length_updateTask _) h.early h.world,
      rfl, timers, w, none, tasks_updateTask_self popped⟩, rfl⟩

/-- What the innermost task ends with passes through the whole tower. -/
theorem Running.ends (h : Running handler scope J base races l) (o : Outcome) :
    ∃ l', Leads handler base (l.settle (base + races.length) o) l' ∧
      l'.outcome? base = some o ∧ l'.now = l.now := by
  obtain ⟨w, signal?, e⟩ := h.inner
  exact leads_of_settle (Nat.le_refl _) e rfl ⟨h.cut, h.ready ▸ nofun⟩ (deaf_settle e)
    (h.passOn (Nat.le_refl _))

/-- The sleeper goes on if no limit passes before. -/
theorem Asleep.wakes {due : Rat} {k : Wake → Routine E}
    (h : Asleep handler scope J base races due k l) (first : ∀ race ∈ races, due < race.due) :
    ∃ l', Leads handler base l (exec handler scope (base + races.length) (k .resumed) l') ∧
      Running handler scope J base races l' ∧ l'.now = due := by
  have next : nextDue? l.timers = some due := by
    have mem : (⟨due, base + races.length⟩ : Timer) ∈ l.timers := by
      rw [h.timers]
      exact List.mem_append_right _ (List.mem_singleton_self _)
    refine nextDue?_eq_some mem fun other mem => ?_
    rw [h.timers] at mem
    rcases List.mem_append.1 mem with limit | sleeper
    · obtain ⟨race, mem', same⟩ := Race.due_of_mem_timers limit
      exact same ▸ (first race mem').le
    · rw [List.mem_singleton.1 sleeper]
  have only : l.timers.filter (·.due = due) = [⟨due, base + races.length⟩] := by
    rw [h.timers, List.filter_append, Race.filter_timers fun race mem => (first race mem).ne']
    simp
  let l₁ : Loop E W := Loop.resolve { l with now := due } (base + races.length) .resumed
  have step : l.next? handler = some l₁ := by
    rw [next?_of_timers h.ready next, only]
    rfl
  have timers : l₁.timers = Race.timers base races := by
    rw [timers_resolve, h.timers, List.filter_append, Race.filter_inner]
    simp
  have tower : Tower handler scope J base races l₁ :=
    h.toTower.congr (fun j lt => tasks_resolve_of_ne (by omega)) (length_updateTask _) first h.world
  have ready : l₁.ready = [.wake (base + races.length)] := by
    rw [ready_resolve, h.ready, List.nil_append]
  obtain ⟨l', leads, running, now⟩ := leads_of_pending tower ready timers
    (tasks_resolve_self h.inner) (.inr ⟨k, rfl, rfl⟩)
  exact ⟨l', .step ((h.passOn (Nat.le_refl _)).running_of h.inner rfl) step leads, running, now⟩

theorem parent?_eq_some {j racer : Nat} (h : parent? base j = some racer) :
    racer + 1 = base + j := by
  cases j with
  | zero => cases h
  | succ j =>
    obtain rfl := Option.some.inj h
    omega

variable (handler scope J base) in
/-- The limit of a race has passed, and its task is to run. So is the sleeper, if it was to wake at
the same time. -/
structure Fired (xs ys : List (Race E)) (race : Race E) (k : Wake → Routine E) (n : Nat)
    (l l₁ : Loop E W) : Prop where
  size : n = xs.length + 1 + ys.length
  tower : Tower handler scope J base (xs ++ race :: ys) l
  stops : AtOnce handler scope J (k .cancelled) (.error .cancelled)
  unlocked : Unlocked handler scope J (k .resumed)
  expires : l₁.tasks[base + xs.length]? =
    some { racing base scope xs.length race.goesOn with signal? := some .resumed }
  inner : ∃ signal? jobs,
    l₁.tasks[base + n]? = some ⟨.sleep k, signal?, false, scope, parent? base n⟩ ∧
    l₁.ready = .wake (base + xs.length) :: jobs ∧
    (signal? = none ∧ jobs = [] ∨ signal? = some .resumed ∧ jobs = [.wake (base + n)])
  same : ∀ j < n, j ≠ xs.length → l₁.tasks[base + j]? = l.tasks[base + j]?
  length : l₁.tasks.length = base + n + 1
  world : J l₁.world

namespace Fired

variable {xs ys : List (Race E)} {race : Race E} {k : Wake → Routine E} {n : Nat} {l₁ : Loop E W}

/-- The other races go on. -/
theorem racing (h : Fired handler scope J base xs ys race k n l l₁) {j : Nat} (lt : j < n)
    (ne : j ≠ xs.length) : ∃ other ∈ xs ++ race :: ys,
      l₁.tasks[base + j]? = some (racing base scope j other.goesOn) := by
  have size : (xs ++ race :: ys).length = n := by
    rw [h.size, List.length_append, List.length_cons]
    omega
  have found := List.getElem?_eq_getElem (size.symm ▸ lt)
  exact ⟨_, List.getElem_mem _, (h.same j lt ne).trans (h.tower.racing j _ found)⟩

theorem passOn (h : Fired handler scope J base xs ys race k n l l₁) :
    PassOn handler scope J base xs.length l₁ := by
  have size := h.size
  have low : xs.length ≤ (xs ++ race :: ys).length := by simp
  exact (h.tower.passOn low).congr fun j lt => h.same j (by omega) (by omega)

/-- The tasks inside the part of the race know none outside of it. -/
theorem cut (h : Fired handler scope J base xs ys race k n l l₁) :
    l₁.Cut handler scope J (base + xs.length + 1) := by
  have size := h.size
  have length := h.length
  refine ⟨by omega, fun {t task} ht e => ?_, h.world⟩
  have lt := (List.getElem?_eq_some_iff.1 e).1
  obtain ⟨j, rfl⟩ : ∃ j, t = base + j := ⟨t - base, by omega⟩
  have outside {racer : Nat} (raced : parent? base j = some racer) :
      base + xs.length + 1 ≤ racer := by
    have := parent?_eq_some raced
    omega
  by_cases innermost : j = n
  · subst innermost
    obtain ⟨signal?, jobs, inner, -⟩ := h.inner
    obtain rfl := Option.some.inj (inner.symm.trans e)
    refine ⟨rfl, fun wake => ?_, fun racer => outside⟩
    cases wake with
    | resumed => exact h.unlocked
    | cancelled => exact h.stops.unlocked
  · obtain ⟨other, mem, e'⟩ := h.racing (j := j) (by omega) (by omega)
    obtain rfl := Option.some.inj (e'.symm.trans e)
    exact ⟨rfl, ⟨by omega, (h.tower.guards other mem).unlocked⟩, fun racer => outside⟩

/-- The whole tower ends with the outcome of the race. -/
theorem leads (h : Fired handler scope J base xs ys race k n l l₁) :
    ∃ l', Leads handler base l₁ l' ∧ l'.outcome? base = some race.expired ∧ l'.now = l₁.now := by
  have size := h.size
  have guards : Guards handler scope J race.goesOn race.expired :=
    h.tower.guards race (List.mem_append_right _ List.mem_cons_self)
  obtain ⟨signal?, jobs, inner, ready, sleeper⟩ := h.inner
  -- The part of the race is the sleeper, or the next race.
  by_cases innermost : n = xs.length + 1
  · rw [innermost] at inner
    refine leads_of_expiry guards h.expires inner (.inl ⟨k, rfl, h.stops⟩) rfl rfl ready ?_ h.cut
      h.passOn
    rcases sleeper with ⟨signal, rfl⟩ | ⟨signal, rfl⟩
    · exact .inl ⟨signal, rfl, nofun⟩
    · exact .inr ⟨signal, by rw [innermost, Nat.add_assoc]⟩
  · obtain ⟨other, mem, e⟩ := h.racing (j := xs.length + 1) (by omega) (by omega)
    refine leads_of_expiry guards h.expires e (.inr ⟨_, other.goesOn, rfl, by omega,
      (h.tower.guards other mem).cancelled⟩) rfl rfl ready (.inl ⟨rfl, rfl, ?_⟩) h.cut h.passOn
    rcases sleeper with ⟨-, rfl⟩ | ⟨-, rfl⟩
    · exact nofun
    · intro job mem
      rw [List.mem_singleton.1 mem]
      show base + xs.length + 1 < base + n
      omega

end Fired

/-- The time of a race whose limit passes first. -/
theorem Asleep.next {xs ys : List (Race E)} {race : Race E} {due : Rat} {k : Wake → Routine E}
    (h : Asleep handler scope J base (xs ++ race :: ys) due k l)
    (least : ∀ other ∈ xs ++ ys, race.due < other.due) (le : race.due ≤ due) :
    nextDue? l.timers = some race.due := by
  have mem : (⟨race.due, base + xs.length⟩ : Timer) ∈ l.timers := by
    rw [h.timers, Race.timers_append]
    exact List.mem_append_left _ (List.mem_append_right _ List.mem_cons_self)
  refine nextDue?_eq_some mem fun other mem => ?_
  rw [h.timers] at mem
  rcases List.mem_append.1 mem with limit | sleeper
  · obtain ⟨other', mem', same⟩ := Race.due_of_mem_timers limit
    exact same ▸ Race.le_of_first least other' mem'
  · rw [List.mem_singleton.1 sleeper]
    exact le

/-- The first limit passes before the sleeper goes on, or at the same time. -/
theorem Asleep.fires {xs ys : List (Race E)} {race : Race E} {due : Rat} {k : Wake → Routine E}
    (h : Asleep handler scope J base (xs ++ race :: ys) due k l)
    (stops : AtOnce handler scope J (k .cancelled) (.error .cancelled))
    (unlocked : Unlocked handler scope J (k .resumed))
    (least : ∀ other ∈ xs ++ ys, race.due < other.due) (le : race.due ≤ due) :
    ∃ n l₁, l.next? handler = some l₁ ∧ Fired handler scope J base xs ys race k n l l₁ ∧
      l₁.now = race.due := by
  obtain ⟨n, size⟩ : ∃ n, n = (xs ++ race :: ys).length := ⟨_, rfl⟩
  have after : n = xs.length + 1 + ys.length := by
    simp only [size, List.length_append, List.length_cons]
    omega
  have inner := h.inner
  have length := h.length
  rw [← size] at inner length
  have passing : l.timers.filter (·.due = race.due) =
      ⟨race.due, base + xs.length⟩ :: if due = race.due then [⟨due, base + n⟩] else [] := by
    rw [h.timers, List.filter_append, Race.filter_timers_of_mem fun other mem =>
      (least other mem).ne', ← size]
    by_cases tie : due = race.due <;> simp [tie]
  -- The race is told that its limit has passed; the sleeper is woken after it, if at all.
  let l₁ : Loop E W := Loop.resolve { l with now := race.due } (base + xs.length) .resumed
  have expires₁ : l₁.tasks[base + xs.length]? =
      some { racing base scope xs.length race.goesOn with signal? := some .resumed } :=
    tasks_resolve_self (h.racing xs.length race (by simp))
  have inner₁ : l₁.tasks[base + n]? = some ⟨.sleep k, none, false, scope, parent? base n⟩ :=
    (tasks_resolve_of_ne (by omega)).trans inner
  have same₁ (j : Nat) (ne : j ≠ xs.length) : l₁.tasks[base + j]? = l.tasks[base + j]? :=
    tasks_resolve_of_ne (by omega)
  have length₁ : l₁.tasks.length = base + n + 1 := (length_resolve _).trans length
  have ready₁ : l₁.ready = [.wake (base + xs.length)] := by
    rw [ready_resolve, h.ready, List.nil_append]
  by_cases tie : due = race.due
  · let l₂ : Loop E W := l₁.resolve (base + n) .resumed
    have step : l.next? handler = some l₂ := by
      rw [next?_of_timers h.ready (h.next least le), passing, if_pos tie]
      rfl
    exact ⟨n, l₂, step,
      { size := after, tower := h.toTower, stops, unlocked
        expires := (tasks_resolve_of_ne (by omega)).trans expires₁
        inner := ⟨_, _, tasks_resolve_self inner₁,
          congrArg (· ++ [Job.wake (base + n)]) ready₁, .inr ⟨rfl, rfl⟩⟩
        same := fun j lt ne => (tasks_resolve_of_ne (by omega)).trans (same₁ j ne)
        length := (length_resolve _).trans length₁
        world := h.world }, rfl⟩
  · have step : l.next? handler = some l₁ := by
      rw [next?_of_timers h.ready (h.next least le), passing, if_neg tie]
      rfl
    exact ⟨n, l₁, step,
      { size := after, tower := h.toTower, stops, unlocked, expires := expires₁
        inner := ⟨_, _, inner₁, ready₁, .inl ⟨rfl, rfl⟩⟩
        same := fun j _ ne => same₁ j ne
        length := length₁
        world := h.world }, rfl⟩

/-- When a limit passes before the sleeper goes on, or at the same time, the whole tower ends with
the outcome of that race. -/
theorem Asleep.expires {xs ys : List (Race E)} {race : Race E} {due : Rat} {k : Wake → Routine E}
    (h : Asleep handler scope J base (xs ++ race :: ys) due k l)
    (stops : AtOnce handler scope J (k .cancelled) (.error .cancelled))
    (unlocked : Unlocked handler scope J (k .resumed))
    (least : ∀ other ∈ xs ++ ys, race.due < other.due) (le : race.due ≤ due) :
    ∃ l', Leads handler base l l' ∧ l'.outcome? base = some race.expired ∧ l'.now = race.due := by
  obtain ⟨n, l₁, step, fired, now₁⟩ := h.fires stops unlocked least le
  obtain ⟨l', leads, finished, now⟩ := fired.leads
  have running := (h.passOn (Nat.le_refl _)).running_of h.inner rfl
  exact ⟨l', .step running step leads, finished, now.trans now₁⟩

/-! ## The innermost task runs -/

namespace Running

/-- Without any time to sleep, the innermost task goes on in its next turn. -/
theorem yields {d : Rat} {k : Wake → Routine E} (h : Running handler scope J base races l)
    (none' : d ≤ 0) :
    ∃ l', Leads handler base (exec handler scope (base + races.length) (.sleep d k) l)
        (exec handler scope (base + races.length) (k .resumed) l') ∧
      Running handler scope J base races l' ∧ l'.now = l.now := by
  obtain ⟨w, signal?, e⟩ := h.inner
  let l₁ : Loop E W := (l.wait (base + races.length) (.sleep k)).resolve (base + races.length) .resumed
  have ran : exec handler scope (base + races.length) (.sleep d k) l = l₁ := if_pos none'
  have timers : l₁.timers = Race.timers base races :=
    (congrArg _ h.timers).trans Race.filter_inner
  have ready : l₁.ready = [.wake (base + races.length)] :=
    congrArg (· ++ [Job.wake (base + races.length)]) h.ready
  have tower : Tower handler scope J base races l₁ :=
    h.toTower.congr (fun j lt => (tasks_resolve_of_ne (by omega)).trans (tasks_wait_of_ne (by omega)))
      ((length_updateTask _).trans (length_updateTask _)) h.early h.world
  rw [ran]
  exact leads_of_pending tower ready timers (tasks_resolve_self (tasks_wait_self e))
    (.inr ⟨k, rfl, rfl⟩)

theorem sleeps {d : Rat} {k : Wake → Routine E} (h : Running handler scope J base races l)
    (some' : ¬d ≤ 0) :
    Asleep handler scope J base races (l.now + d) k
      (exec handler scope (base + races.length) (.sleep d k) l) := by
  obtain ⟨w, signal?, e⟩ := h.inner
  let l₁ : Loop E W := (l.wait (base + races.length) (.sleep k)).addTimer (base + races.length) d
  have ran : exec handler scope (base + races.length) (.sleep d k) l = l₁ := if_neg some'
  rw [ran]
  exact ⟨h.toTower.congr (fun j lt => tasks_wait_of_ne (by omega)) (length_updateTask _) h.early
    h.world, h.ready, congrArg (· ++ _) h.timers, tasks_wait_self e⟩

/-- A race makes the tower higher. -/
theorem rises (part : Routine E) {q : Rat} {k : RaceEnd → Routine E} {expired : Outcome}
    (h : Running handler scope J base races l) (positive : 0 < q)
    (guards : Guards handler scope J k expired) :
    ∃ l', Leads handler base (exec handler scope (base + races.length) (.race part (some q) k) l)
        (exec handler scope (base + (races ++ [Race.mk (l.now + q) k expired]).length) part l') ∧
      Running handler scope J base (races ++ [Race.mk (l.now + q) k expired]) l' ∧ l'.now = l.now := by
  obtain ⟨w, signal?, e⟩ := h.inner
  have length := h.length
  let l₁ : Loop E W := ((l.spawn part scope (some (base + races.length))).1.wait
    (base + races.length) (.race l.tasks.length k)).addTimer (base + races.length) q
  have ran : exec handler scope (base + races.length) (.race part (some q) k) l = l₁ := rfl
  have same (j : Nat) (lt : j < base + races.length) : l₁.tasks[j]? = l.tasks[j]? :=
    (tasks_wait_of_ne (by omega)).trans (tasks_spawn_of_lt (by omega))
  have raced : l₁.tasks[base + races.length]? = some (racing base scope races.length k) := by
    rw [racing, ← length]
    exact tasks_wait_self ((tasks_spawn_of_lt (by omega)).trans e)
  have inner : l₁.tasks[base + (races.length + 1)]? =
      some ⟨.start part, some .resumed, false, scope, some (base + races.length)⟩ := by
    rw [← Nat.add_assoc, ← length]
    exact (tasks_wait_of_ne (by omega)).trans tasks_spawn_self
  have high : (races ++ [Race.mk (l.now + q) k expired]).length = races.length + 1 := List.length_append
  have tower : Tower handler scope J base (races ++ [Race.mk (l.now + q) k expired]) l₁ := by
    refine ⟨fun i race found => ?_, fun race mem => ?_, fun race mem => ?_, ?_, h.world⟩
    · rcases Nat.lt_or_ge i races.length with old | new
      · rw [List.getElem?_append_left old] at found
        exact (same _ (by omega)).trans (h.racing i race found)
      · have lt := (List.getElem?_eq_some_iff.1 found).1
        rw [high] at lt
        obtain rfl : i = races.length := by omega
        rw [List.getElem?_concat_length] at found
        exact Option.some.inj found ▸ raced
    · rcases List.mem_append.1 mem with old | new
      · exact h.guards race old
      · exact List.mem_singleton.1 new ▸ guards
    · rcases List.mem_append.1 mem with old | new
      · exact h.early race old
      · exact List.mem_singleton.1 new ▸ lt_add_of_pos_right l.now positive
    · rw [high, ← Nat.add_assoc, ← length]
      exact (length_updateTask _).trans (length_spawn ..)
  have ready : l₁.ready = [.wake (base + (races.length + 1))] := by
    have added : l₁.ready = l.ready ++ [.wake l.tasks.length] := rfl
    rw [added, h.ready, length, List.nil_append, Nat.add_assoc]
  have timers : l₁.timers = Race.timers base (races ++ [Race.mk (l.now + q) k expired]) := by
    rw [Race.timers_append, ← h.timers]
    rfl
  rw [ran]
  exact leads_of_pending tower (high ▸ ready) timers (high ▸ inner) (.inl rfl)

end Running

/-- Where there are races, the limit of one of them is first, if no two pass at the same time. -/
theorem exists_first {due : Rat} (distinct : ((Race.limits races).map Prod.fst).Nodup)
    (some' : ¬∀ race ∈ races, due < race.due) :
    ∃ xs race ys, races = xs ++ race :: ys ∧ race.due ≤ due ∧
      ∀ other ∈ xs ++ ys, race.due < other.due := by
  obtain ⟨race, mem, passed⟩ : ∃ race ∈ races, race.due ≤ due := by
    simpa only [not_forall, not_lt, exists_prop] using some'
  obtain ⟨timer, mem', -⟩ := Race.mem_timers 0 mem
  obtain ⟨first, -, ⟨timer', mem'', rfl⟩, least⟩ := nextDue?_spec (List.ne_nil_of_mem mem')
  obtain ⟨race', found, same⟩ := Race.due_of_mem_timers mem''
  rw [← same] at least
  have least' (other : Race E) (mem : other ∈ races) : race'.due ≤ other.due := by
    obtain ⟨timer, mem, same⟩ := Race.mem_timers 0 mem
    exact same ▸ least timer mem
  obtain ⟨xs, ys, rfl⟩ := List.append_of_mem found
  refine ⟨xs, race', ys, rfl, (least' race mem).trans passed, fun other mem => ?_⟩
  refine lt_of_le_of_ne (least' other ?_) fun equal => ?_
  · rcases List.mem_append.1 mem with before | after
    · exact List.mem_append_left _ before
    · exact List.mem_append_right _ (List.mem_cons_of_mem race' after)
  · simp only [Race.limits, List.map_append, List.map_cons, List.map_map] at distinct
    have apart := (List.nodup_cons.1 (List.nodup_middle.1 distinct)).1
    rw [equal, ← List.map_append] at apart
    exact apart (List.mem_map.2 ⟨other, mem, rfl⟩)

/-- A limit that passes before the sleeper goes on decides also what the rest of the routine would
end with. -/
theorem Asleep.verdict {due T : Rat} {k : Wake → Routine E} {limits : List (Rat × Outcome)}
    {o : Outcome} (asleep : Asleep handler scope J base races due k l)
    (h : Timed handler scope J due (k .resumed) limits T o)
    (stops : AtOnce handler scope J (k .cancelled) (.error .cancelled))
    (some' : ¬∀ race ∈ races, due < race.due)
    (distinct : ((Race.limits races ++ limits).map Prod.fst).Nodup)
    (other : ∀ limit ∈ Race.limits races ++ limits, limit.1 ≠ T) :
    ∃ l' outcome, Leads handler base l l' ∧ l'.outcome? base = some outcome ∧
      Verdict (Race.limits races ++ limits) T o l'.now outcome := by
  rw [List.map_append] at distinct
  obtain ⟨xs, race, ys, rfl, le, least⟩ := exists_first (List.nodup_append.1 distinct).1 some'
  obtain ⟨l', leads, finished, now'⟩ := asleep.expires stops h.unlocked least le
  have mem : (race.due, race.expired) ∈ Race.limits (xs ++ race :: ys) ++ limits :=
    List.mem_append_left _ (List.mem_map.2 ⟨race, by simp, rfl⟩)
  have before : race.due ≤ T := le.trans (h.le asleep.world)
  refine ⟨l', race.expired, leads, finished, .inr ⟨now' ▸ mem, ?_, fun limit mem' => ?_⟩⟩
  · exact now' ▸ lt_of_le_of_ne before (other _ mem)
  · rw [now']
    rcases List.mem_append.1 mem' with outer | inner
    · obtain ⟨race', mem'', rfl⟩ := List.mem_map.1 outer
      exact Race.le_of_first least race' mem''
    · exact le.trans (h.lt asleep.world limit inner).le

variable (handler scope J base) in
/-- What a timed routine comes to when it goes on: it ends before any limit passes, or it sleeps and a
limit passes before it wakes, or at the same time. -/
inductive Comes (limits : List (Rat × Outcome)) (T : Rat) (o : Outcome) (wakes : Rat → Prop)
    (l : Loop E W) : Prop
  | ends {l'} : Leads handler base l l' → l'.outcome? base = some o → l'.now = T →
      (∀ limit ∈ limits, T < limit.1) → Comes limits T o wakes l
  | sleeps {l' races due k inner} : Leads handler base l l' →
      Asleep handler scope J base races due k l' →
      AtOnce handler scope J (k .cancelled) (.error .cancelled) →
      Timed handler scope J due (k .resumed) inner T o → (¬∀ race ∈ races, due < race.due) →
      Race.limits races ++ inner = limits → wakes due → Comes limits T o wakes l

theorem Comes.after {limits : List (Rat × Outcome)} {T : Rat} {o : Outcome} {wakes wakes' : Rat → Prop}
    {l' : Loop E W} (h : Comes handler scope J base limits T o wakes l')
    (leads : Leads handler base l l') (weaker : ∀ time, wakes time → wakes' time) :
    Comes handler scope J base limits T o wakes' l := by
  cases h with
  | ends leads' finished time before => exact .ends (leads.trans leads') finished time before
  | sleeps leads' asleep stops rest some' same wake =>
    exact .sleeps (leads.trans leads') asleep stops rest some' same (weaker _ wake)

/-- A timed routine inside some races ends before any limit passes, or comes to a sleep that a limit
ends. -/
theorem Timed.comes {now T : Rat} {r : Routine E} {limits : List (Rat × Outcome)} {o : Outcome}
    (h : Timed handler scope J now r limits T o) (running : Running handler scope J base races l)
    (start : l.now = now) :
    Comes handler scope J base (Race.limits races ++ limits) T o (Wakes handler scope J now r)
      (exec handler scope (base + races.length) r l) := by
  induction h generalizing races l with
  | done now o =>
    obtain ⟨l', leads, finished, same⟩ := running.ends o
    refine .ends leads finished (same.trans start) fun limit mem => ?_
    rw [List.append_nil] at mem
    obtain ⟨race, mem', rfl⟩ := List.mem_map.1 mem
    exact start ▸ running.early race mem'
  | @perform now op k limits T o keeps _ ih =>
    have performed : Running handler scope J base races
        { l with world := (handler scope op l.world).2 } :=
      ⟨running.toTower.congr (fun _ _ => rfl) rfl running.early (keeps l.world running.world),
        running.ready, running.timers, running.inner⟩
    exact (ih l.world running.world performed start).after (.refl _) fun _ => .perform running.world
  | @sleep now d k limits T o nonneg hk cancelled ih =>
    by_cases none' : d ≤ 0
    · obtain ⟨l₁, leads, running₁, now₁⟩ := running.yields (k := k) none'
      have start₁ : l₁.now = now + d := by
        rw [now₁, start, le_antisymm none' nonneg, add_zero]
      exact (ih running₁ start₁).after leads fun _ => .later
    · have asleep := running.sleeps (k := k) none'
      rw [start] at asleep
      by_cases first : ∀ race ∈ races, now + d < race.due
      · obtain ⟨l₁, leads, running₁, now₁⟩ := asleep.wakes first
        exact (ih running₁ now₁).after leads fun _ => .later
      · exact .sleeps (.refl _) asleep cancelled hk first rfl .ends
  | @race now part q k limits T o expired positive hpart guards ih =>
    obtain ⟨l₁, leads, running₁, now₁⟩ := running.rises part positive guards
    have limits' : Race.limits (races ++ [Race.mk (l.now + q) k expired]) ++ limits =
        Race.limits races ++ (now + q, expired) :: limits := by
      rw [Race.limits, List.map_append, List.append_assoc, start]
      rfl
    exact limits' ▸ (ih running₁ (now₁.trans start)).after leads fun _ => .race

/-- A timed routine inside some races ends with its own outcome and at its own time, if this is
before all the limits. Otherwise it ends when the first limit passes, with the outcome of that
race. -/
theorem Timed.verdict {now T : Rat} {r : Routine E} {limits : List (Rat × Outcome)} {o : Outcome}
    (h : Timed handler scope J now r limits T o) (running : Running handler scope J base races l)
    (start : l.now = now) (distinct : ((Race.limits races ++ limits).map Prod.fst).Nodup)
    (other : ∀ limit ∈ Race.limits races ++ limits, limit.1 ≠ T) :
    ∃ l' outcome, Leads handler base (exec handler scope (base + races.length) r l) l' ∧
      l'.outcome? base = some outcome ∧
      Verdict (Race.limits races ++ limits) T o l'.now outcome := by
  cases Timed.comes h running start with
  | ends leads finished time before => exact ⟨_, o, leads, finished, .inl ⟨before, time, rfl⟩⟩
  | sleeps leads asleep stops rest some' same _ =>
    rw [← same] at distinct other ⊢
    obtain ⟨l', outcome, leads', verdict⟩ := asleep.verdict rest stops some' distinct other
    exact ⟨l', outcome, leads.trans leads', verdict⟩

/-- A routine that starts in an idle loop is the innermost task of a tower without races. -/
theorem running_start (ready : l.ready = []) (timers : l.timers = []) (world : J l.world)
    (r : Routine E) : Running handler scope J l.tasks.length []
      { l with tasks := l.tasks ++ [⟨.start r, none, false, scope, none⟩] } where
  racing _ _ found := absurd found (by simp)
  guards _ mem := absurd mem List.not_mem_nil
  early _ mem := absurd mem List.not_mem_nil
  length := List.length_append
  world := world
  ready := ready
  timers := timers
  inner := ⟨.start r, none, List.getElem?_concat_length⟩

/-- A timed routine that has the loop for itself ends, as its limits decide. -/
theorem run_of_timed {T : Rat} {r : Routine E} {limits : List (Rat × Outcome)} {o : Outcome}
    (h : Timed handler scope J l.now r limits T o) (ready : l.ready = []) (timers : l.timers = [])
    (world : J l.world) (distinct : (limits.map Prod.fst).Nodup)
    (other : ∀ limit ∈ limits, limit.1 ≠ T) :
    ∃ l' outcome, l.run handler r scope = (l', some outcome) ∧
      Verdict limits T o l'.now outcome := by
  let l₀ : Loop E W := { l with tasks := l.tasks ++ [⟨.start r, none, false, scope, none⟩] }
  obtain ⟨l', outcome, leads, finished, verdict⟩ := Timed.verdict h
    (running_start ready timers world r) rfl distinct other
  refine ⟨l', outcome, ?_, verdict⟩
  have until' : runUntil handler (·.isOver l.tasks.length)
      (exec handler scope l.tasks.length r l₀) = some l' :=
    runUntil_of_leads leads (by rw [isOver, finished, Option.isSome_some])
  simp only [run, l₀] at until' ⊢
  rw [until']
  exact congrArg (Prod.mk l') finished

end GraphClient.Loop
