import GraphClient.Proofs.Flow.Interleaving

/-!
# Notes of what was done

A `Note` is an operation that a task did, and how it was answered. A handler can take notes beside
the world (`Loop.noting`): the loop that it drives does what the loop without notes does.

* `Loop.notes`: the notes of a history, in order.
* `Loop.forget_after`: without its notes, the loop that takes them is the loop of the history.
* `Loop.Kept.after_notes`: an invariant of what is seen and noted holds after every history.
-/

namespace GraphClient

variable {A : Type} {E : Effects} {W : Type}

/-- An operation of a task in a scope, and how it was answered. -/
structure Note (E : Effects) where
  scope : Nat
  op : E.Op
  reply : E.Reply op

namespace Loop

/-- Does what a handler does, and takes a note of it. -/
def noting (handler : Handler E W) : Handler E (W × List (Note E)) := fun scope op w =>
  ((handler scope op w.1).1,
    (handler scope op w.1).2, w.2 ++ [⟨scope, op, (handler scope op w.1).1⟩])

/-- The notes of the loop after some moves, which started without tasks. -/
def notes (handler : Handler E W) (routine : A → Routine E) (world : W) (moves : List (Move A)) :
    List (Note E) :=
  ((initial (world, [])).after (noting handler) routine moves).world.2

/-- The loop without its notes. -/
def forget (l : Loop E (W × List (Note E))) : Loop E W :=
  ⟨l.now, l.world.1, l.tasks, l.ready, l.timers, l.lock⟩

variable {handler : Handler E W} {l : Loop E (W × List (Note E))}

theorem forget_cancel (bound t : Nat) (l : Loop E (W × List (Note E))) :
    (cancel bound t l).forget = cancel bound t l.forget := by
  induction bound generalizing t with
  | zero => rfl
  | succ bound ih =>
    have tasks : l.forget.tasks = l.tasks := rfl
    unfold cancel
    rw [tasks]
    split
    · rfl
    · split
      · rfl
      · rfl
      · rename_i part _ _ _ _
        have same : l.forget.isOver part = l.isOver part := rfl
        rw [same]
        split
        · rfl
        · exact congrArg (updateTask · _ _) (ih part)
      · rfl

theorem forget_notify (racer part : Nat) :
    (l.notify racer part).forget = l.forget.notify racer part := by
  have tasks : l.forget.tasks = l.tasks := rfl
  unfold notify
  rw [tasks]
  split
  · split <;> rfl
  · split <;> rfl
  · rfl

theorem forget_settle (t : Nat) (outcome : Outcome) :
    (l.settle t outcome).forget = l.forget.settle t outcome := by
  have tasks : l.forget.tasks = l.tasks := rfl
  have awaits (racer : Nat) (f : Task E → Task E) :
      (l.forget.updateTask t f).awaits racer t = (l.updateTask t f).awaits racer t := rfl
  rw [settle_eq, settle_eq, tasks]
  simp only [awaits]
  split
  · split <;> rfl
  · rfl

theorem forget_wakeFirst : l.wakeFirst.forget = l.forget.wakeFirst := by
  have lock : l.forget.lock = l.lock := rfl
  have tasks : l.forget.tasks = l.tasks := rfl
  unfold wakeFirst
  rw [lock, tasks]
  split
  · rfl
  · split <;> rfl

theorem forget_exec (scope t : Nat) (r : Routine E) (l : Loop E (W × List (Note E))) :
    (exec (noting handler) scope t r l).forget = exec handler scope t r l.forget := by
  induction r generalizing l with
  | done outcome => exact forget_settle t outcome
  | perform op k ih => exact ih _ _
  | clock k ih => exact ih _ l
  | sleep d k _ =>
    unfold exec
    simp only
    split <;> rfl
  | race part limit? k _ _ => cases limit? <;> rfl
  | acquire k ih =>
    have free : l.forget.lockIsFree = l.lockIsFree := rfl
    unfold exec
    rw [free]
    split
    · exact ih .resumed (l.setLock ⟨true, l.lock.waiters⟩)
    · rfl
  | release next ih =>
    have freed := forget_wakeFirst (l := l.setLock ⟨false, l.lock.waiters⟩)
    exact (ih _).trans (congrArg (exec handler scope t next) freed)

theorem forget_resume (task : Task E) (t : Nat) (signal : Wake) :
    (resume (noting handler) task t signal l).forget = resume handler task t signal l.forget := by
  have tasks : l.forget.tasks = l.tasks := rfl
  have lock : l.forget.lock = l.lock := rfl
  have outcome (part : Nat) : l.forget.outcome? part = l.outcome? part := rfl
  unfold resume
  simp only [tasks, lock, outcome]
  split
  · exact forget_exec ..
  · exact forget_settle ..
  · exact forget_exec ..
  · exact (forget_exec ..).trans (congrArg (exec handler _ _ _) (forget_cancel ..))
  · split
    · exact forget_exec ..
    · exact congrArg (wait · _ _) (forget_cancel ..)
  · exact forget_exec ..
  · exact forget_exec ..
  · split
    · exact forget_exec ..
    · refine (forget_exec ..).trans (congrArg (exec handler _ _ _) ?_)
      have held : (l.forget.setLock ⟨l.lock.held, l.lock.waiters.filter (· != t)⟩).lock.held =
        (l.setLock ⟨l.lock.held, l.lock.waiters.filter (· != t)⟩).lock.held := rfl
      rw [held]
      split
      · rfl
      · exact forget_wakeFirst
  · rfl

theorem forget_runJob (job : Job) (l : Loop E (W × List (Note E))) :
    (runJob (noting handler) job l).forget = runJob handler job l.forget := by
  have tasks : l.forget.tasks = l.tasks := rfl
  cases job with
  | notify racer part => exact forget_notify racer part
  | wake t =>
    simp only [runJob, tasks]
    split
    · rfl
    · exact forget_resume ..

variable (handler) in
/-- Without its notes, the loop that takes them is the loop of the history. -/
theorem forget_after (routine : A → Routine E) (l : Loop E (W × List (Note E)))
    (moves : List (Move A)) :
    (l.after (noting handler) routine moves).forget = l.forget.after handler routine moves := by
  induction moves generalizing l with
  | nil => rfl
  | cons m moves ih =>
    refine (ih _).trans (congrArg (after handler routine · moves) ?_)
    cases m with
    | job n =>
      have ready : l.forget.ready = l.ready := rfl
      simp only [move, ready]
      split
      · exact forget_runJob ..
      · rfl
    | cancel t => exact forget_cancel ..
    | _ => rfl

/-- What a routine comes to does not depend on the notes. -/
theorem reaches_of_noting {scope : Nat} {P : Wait E → W → Prop} {r : Routine E}
    {w : W × List (Note E)} (h : r.Reaches (noting handler) scope (fun wait w => P wait w.1) w) :
    r.Reaches handler scope P w.1 := by
  induction r generalizing w with
  | done o => exact h
  | perform op k ih => exact ih _ h
  | clock k ih => exact fun now => ih now (h now)
  | sleep d k _ => exact h
  | race part limit? k _ _ => exact h
  | acquire k ih => exact ⟨ih _ h.1, h.2⟩
  | release next ih => exact ih h

/-- An invariant of what is seen and noted holds after every history. -/
theorem Kept.after_notes {routine : A → Routine E} {I : View A E (W × List (Note E)) → Prop}
    (kept : Kept (noting handler) routine I) {world : W} (initial : I ⟨[], [], (world, []), []⟩)
    (moves : List (Move A)) :
    let l := (Loop.initial world).after handler routine moves
    l.Orderly (moves.filterMap Move.cancelled?) ∧
      I ⟨moves.filterMap Move.started?, l.waits, (l.world, notes handler routine world moves),
        moves.filterMap Move.cancelled?⟩ := by
  have forgotten : ((Loop.initial (world, [])).after (noting handler) routine moves).forget =
    (Loop.initial world).after handler routine moves := forget_after handler routine _ moves
  obtain ⟨orderly, holds⟩ := kept.after initial moves
  rw [← forgotten]
  exact ⟨⟨orderly.task⟩, holds⟩

end Loop

end GraphClient
