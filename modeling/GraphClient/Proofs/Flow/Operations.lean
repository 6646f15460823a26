import Mathlib.Data.List.Basic
import Mathlib.Algebra.Order.Ring.Rat
import GraphClient.Flow.Loop

/-!
# What the operations of the loop change

Small equations for the fields of a loop after an operation, and for the single tasks.

* `nextDue?_eq_some`: the clock jumps to a least timer.
-/

namespace GraphClient.Loop

variable {E : Effects} {W : Type} {l l' : Loop E W} {t j : Nat}

/-! ## Tasks -/

theorem tasks_updateTask_self {f : Task E → Task E} {task : Task E}
    (e : l.tasks[t]? = some task) : (l.updateTask t f).tasks[t]? = some (f task) := by
  simp only [updateTask, List.getElem?_modify_eq, e, Option.map_eq_map, Option.map_some]

theorem tasks_updateTask_of_ne {f : Task E → Task E} (ne : j ≠ t) :
    (l.updateTask t f).tasks[j]? = l.tasks[j]? :=
  List.getElem?_modify_ne _ _ ne.symm

@[simp] theorem length_updateTask (f : Task E → Task E) :
    (l.updateTask t f).tasks.length = l.tasks.length :=
  List.length_modify ..

theorem tasks_resolve_self {signal : Wake} {task : Task E} (e : l.tasks[t]? = some task) :
    (l.resolve t signal).tasks[t]? = some { task with signal? := some signal } :=
  tasks_updateTask_self e

theorem tasks_resolve_of_ne {signal : Wake} (ne : j ≠ t) :
    (l.resolve t signal).tasks[j]? = l.tasks[j]? :=
  tasks_updateTask_of_ne ne

@[simp] theorem length_resolve (signal : Wake) :
    (l.resolve t signal).tasks.length = l.tasks.length :=
  length_updateTask _

theorem ready_resolve (signal : Wake) : (l.resolve t signal).ready = l.ready ++ [.wake t] := rfl

theorem timers_resolve (signal : Wake) :
    (l.resolve t signal).timers = l.timers.filter (·.task != t) := rfl

theorem tasks_wait_self {w : Wait E} {task : Task E} (e : l.tasks[t]? = some task) :
    (l.wait t w).tasks[t]? = some { task with wait := w, signal? := none } :=
  tasks_updateTask_self e

theorem tasks_wait_of_ne {w : Wait E} (ne : j ≠ t) :
    (l.wait t w).tasks[j]? = l.tasks[j]? :=
  tasks_updateTask_of_ne ne

theorem tasks_spawn_of_lt {r : Routine E} {scope : Nat} {racer? : Option Nat}
    (old : j < l.tasks.length) : (l.spawn r scope racer?).1.tasks[j]? = l.tasks[j]? :=
  List.getElem?_append_left old

theorem tasks_spawn_self {r : Routine E} {scope : Nat} {racer? : Option Nat} :
    (l.spawn r scope racer?).1.tasks[l.tasks.length]? =
      some ⟨.start r, some .resumed, false, scope, racer?⟩ :=
  List.getElem?_concat_length

@[simp] theorem length_spawn (r : Routine E) (scope : Nat) (racer? : Option Nat) :
    (l.spawn r scope racer?).1.tasks.length = l.tasks.length + 1 :=
  List.length_append

theorem outcome?_congr (e : l.tasks[t]? = l'.tasks[t]?) : l.outcome? t = l'.outcome? t := by
  unfold outcome?
  rw [e]

theorem isOver_congr (e : l.tasks[t]? = l'.tasks[t]?) : l.isOver t = l'.isOver t := by
  unfold isOver
  rw [outcome?_congr e]

theorem awaits_congr {part : Nat} (e : l.tasks[t]? = l'.tasks[t]?) :
    l.awaits t part = l'.awaits t part := by
  unfold awaits
  rw [e]

/-! ## The end of a task -/

section

variable (l t) (outcome : Outcome)

theorem settle_eq :
    l.settle t outcome =
      let ended := l.updateTask t fun task => { task with wait := .over outcome, signal? := none }
      match (l.tasks[t]?).bind Task.racer? with
      | some racer => if ended.awaits racer t then ended.enqueue (.notify racer t) else ended
      | none => ended := rfl

@[simp] theorem now_settle : (l.settle t outcome).now = l.now := by
  rw [settle_eq]
  simp only
  split
  · split <;> rfl
  · rfl

@[simp] theorem world_settle : (l.settle t outcome).world = l.world := by
  rw [settle_eq]
  simp only
  split
  · split <;> rfl
  · rfl

@[simp] theorem timers_settle : (l.settle t outcome).timers = l.timers := by
  rw [settle_eq]
  simp only
  split
  · split <;> rfl
  · rfl

@[simp] theorem lock_settle : (l.settle t outcome).lock = l.lock := by
  rw [settle_eq]
  simp only
  split
  · split <;> rfl
  · rfl

theorem tasks_settle : (l.settle t outcome).tasks =
    (l.updateTask t fun task => { task with wait := .over outcome, signal? := none }).tasks := by
  rw [settle_eq]
  simp only
  split
  · split <;> rfl
  · rfl

theorem tasks_settle_of_ne (ne : j ≠ t) : (l.settle t outcome).tasks[j]? = l.tasks[j]? := by
  rw [tasks_settle, tasks_updateTask_of_ne ne]

@[simp] theorem length_settle : (l.settle t outcome).tasks.length = l.tasks.length := by
  rw [tasks_settle, length_updateTask]

end

theorem outcome?_settle {task : Task E} (outcome : Outcome) (e : l.tasks[t]? = some task) :
    (l.settle t outcome).outcome? t = some outcome := by
  unfold outcome?
  rw [tasks_settle, tasks_updateTask_self e]
  rfl

/-- Nobody but a task that awaits the end of another one is told of it. -/
theorem ready_settle {task : Task E} (outcome : Outcome) (e : l.tasks[t]? = some task) :
    (∃ racer, task.racer? = some racer ∧ (l.settle t outcome).awaits racer t = true ∧
      (l.settle t outcome).ready = l.ready ++ [.notify racer t]) ∨
    (∀ racer, task.racer? = some racer → (l.settle t outcome).awaits racer t = false) ∧
      (l.settle t outcome).ready = l.ready := by
  rw [settle_eq, e]
  simp only [Option.bind_some]
  split
  · rename_i racer racing
    split
    · rename_i told
      exact .inl ⟨racer, racing, told, rfl⟩
    · rename_i untold
      refine .inr ⟨fun racer' racing' => ?_, rfl⟩
      obtain rfl := Option.some.inj (racing.symm.trans racing')
      exact eq_false_of_ne_true untold
  · rename_i alone
    refine .inr ⟨fun racer racing => ?_, rfl⟩
    rw [alone] at racing
    cases racing

/-! ## Jobs and timers -/

theorem runJob_wake {handler : Handler E W} {task : Task E} (e : l.tasks[t]? = some task) :
    runJob handler (.wake t) l =
      resume handler task t
        (if task.mustCancel then .cancelled else task.signal?.getD .resumed)
        (l.updateTask t fun task => { task with signal? := none, mustCancel := false }) := by
  simp only [runJob, e]

theorem next?_of_job {handler : Handler E W} {job : Job} {rest : List Job}
    (ready : l.ready = job :: rest) :
    l.next? handler = some (runJob handler job { l with ready := rest }) := by
  unfold next?
  rw [ready]

theorem next?_of_ready_nil {handler : Handler E W} (ready : l.ready = []) :
    l.next? handler = (nextDue? l.timers).map fun due =>
      (l.timers.filter (·.due = due)).foldl (fun l timer => l.resolve timer.task .resumed)
        { l with now := due } := by
  simp only [next?, ready]

/-- Where there are timers, the time of the next one is that of one of them, and least. -/
theorem nextDue?_spec {timers : List Timer} (some' : timers ≠ []) :
    ∃ due, nextDue? timers = some due ∧ (∃ timer ∈ timers, timer.due = due) ∧
      ∀ timer ∈ timers, due ≤ timer.due := by
  induction timers with
  | nil => exact absurd rfl some'
  | cons first rest ih =>
    by_cases none' : rest = []
    · subst none'
      refine ⟨first.due, rfl, ⟨first, List.mem_singleton_self first, rfl⟩, fun timer mem => ?_⟩
      rw [List.mem_singleton.1 mem]
    · obtain ⟨due, next, ⟨timer, mem, rfl⟩, least⟩ := ih none'
      refine ⟨min first.due timer.due, by rw [nextDue?, next, min_def], ?_, fun other mem' => ?_⟩
      · rcases min_choice first.due timer.due with this | that
        · exact ⟨first, List.mem_cons_self, this.symm⟩
        · exact ⟨timer, List.mem_cons_of_mem first mem, that.symm⟩
      · rcases List.mem_cons.1 mem' with rfl | inRest
        · exact min_le_left other.due timer.due
        · exact (min_le_right first.due timer.due).trans (least other inRest)

theorem nextDue?_eq_some {timers : List Timer} {timer : Timer} (mem : timer ∈ timers)
    (least : ∀ other ∈ timers, timer.due ≤ other.due) : nextDue? timers = some timer.due := by
  obtain ⟨due, next, ⟨other, mem', rfl⟩, least'⟩ := nextDue?_spec (List.ne_nil_of_mem mem)
  rw [next, le_antisymm (least' timer mem) (least other mem')]

end GraphClient.Loop
