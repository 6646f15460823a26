import GraphClient.Proofs.Flow.Lockstep
import GraphClient.Proofs.Flow.Watch

/-!
# Marks

A run is told from others by marks that it leaves, which are noted beside the world. A routine may
be given marks at any place, where they change nothing else.

* `Effects.marked`, `Handler.marked`: effects with marks. `Routine.plain`: a routine without any.
* `Loop.plain`: a loop that knows of marks, where nobody has left any.
* `Loop.marks_afterStart`: whatever happens after a run has started, the loop of the marked run does
  the same as the loop of the run.
* `Loop.upheld_afterStart`: what is seen of the marks is upheld.
-/

namespace GraphClient

variable {A V : Type} {E : Effects} {W : Type}

/-- The effects, and marks besides. -/
def Effects.marked (E : Effects) (V : Type) : Effects := ⟨E.Op ⊕ V, Sum.elim E.Reply fun _ => Unit⟩

/-- A mark is noted after the others, as the world shows it. It may stand for something that is done to
the world. -/
def Handler.marked (handler : Handler E W) (act : Nat → V → W → V × W) :
    Handler (E.marked V) (W × List V)
  | scope, .inl op, w => ((handler scope op w.1).1, (handler scope op w.1).2, w.2)
  | scope, .inr v, w => ((), (act scope v w.1).2, w.2 ++ [(act scope v w.1).1])

namespace Routine

/-- Leaves a mark. -/
def mark (v : V) (next : Routine (E.marked V)) : Routine (E.marked V) :=
  .perform (E := E.marked V) (.inr v) fun _ => next

/-- The routine leaves no marks. -/
def plain (V : Type) : Routine E → Routine (E.marked V)
  | done o => .done o
  | perform op k => .perform (E := E.marked V) (.inl op) fun reply => (k reply).plain V
  | clock k => .clock fun now => (k now).plain V
  | sleep d k => .sleep d fun wake => (k wake).plain V
  | race part limit? k => .race (part.plain V) limit? fun finish => (k finish).plain V
  | acquire k => .acquire fun wake => (k wake).plain V
  | release next => .release (next.plain V)

end Routine

/-- The task goes on without marks. -/
def Wait.plain (V : Type) : Wait E → Wait (E.marked V)
  | start r => .start (r.plain V)
  | sleep k => .sleep fun wake => (k wake).plain V
  | race part k => .race part fun finish => (k finish).plain V
  | drain part forwarded k => .drain part forwarded fun finish => (k finish).plain V
  | lock k => .lock fun wake => (k wake).plain V
  | «over» o => .over o

def Task.plain (V : Type) (task : Task E) : Task (E.marked V) :=
  ⟨task.wait.plain V, task.signal?, task.mustCancel, task.scope, task.racer?⟩

/-- The loop, where no marks were left. -/
def Loop.plain (V : Type) (l : Loop E W) : Loop (E.marked V) (W × List V) :=
  ⟨l.now, (l.world, []), l.tasks.map (Task.plain V), l.ready, l.timers, l.lock⟩

/-- The world is the same, and marks are noted beside it. -/
def Beside (w : W) (w' : W × List V) : Prop := w'.1 = w

variable {handler : Handler E W} {act : Nat → V → W → V × W} {scope : Nat}

variable (handler act) in
/-- The marked routine does what the other one does. -/
abbrev Routine.Marks (scope : Nat) : Routine E → Routine (E.marked V) → Prop :=
  Routine.Mirrors handler (handler.marked act) (fun _ => True) Beside scope

variable (handler act) in
/-- The loop of a marked run does what the loop of the run does. -/
abbrev Loop.Marks : Loop E W → Loop (E.marked V) (W × List V) → Prop :=
  Loop.Mirrors handler (handler.marked act) (fun _ => True) Beside

namespace Routine

theorem Marks.perform (op : E.Op) {k : E.Reply op → Routine E}
    {k' : E.Reply op → Routine (E.marked V)}
    (h : ∀ reply, (k reply).Marks handler act scope (k' reply)) :
    (Routine.perform op k).Marks handler act scope (.perform (E := E.marked V) (.inl op) k') := by
  refine Routine.Mirrors.perform (fun w w' beside _ => ?_) fun w w' beside _ => ?_
  · exact congrArg (fun w => (handler scope op w).2) beside
  · subst beside
    exact h _

theorem marks_plain (V : Type) (act : Nat → V → W → V × W) (scope : Nat) (r : Routine E) :
    r.Marks handler act scope (r.plain V) := by
  induction r with
  | done o => exact .done o
  | perform op k ih => exact .perform op ih
  | clock k ih => exact .clock ih
  | sleep d k ih => exact .sleep ih
  | race part limit? k ihp ih => exact .race ihp ih
  | acquire k ih => exact .acquire ih
  | release next ih => exact .release ih

/-- A mark that does nothing to the world may stand anywhere. -/
theorem Marks.mark {r : Routine E} {r' : Routine (E.marked V)} {v : V}
    (h : r.Marks handler act scope r') (idle : ∀ w, (act scope v w).2 = w) :
    r.Marks handler act scope (Routine.mark v r') :=
  .extra (fun _ w' beside => (idle w'.1).trans beside) fun _ _ _ => h

/-- A mark may stand for an operation. -/
theorem Marks.stand {op : E.Op} {k : E.Reply op → Routine E} {r' : Routine (E.marked V)} {v : V}
    (same : ∀ w, (act scope v w).2 = (handler scope op w).2)
    (h : ∀ reply, (k reply).Marks handler act scope r') :
    (Routine.perform op k).Marks handler act scope (Routine.mark v r') := by
  refine Routine.Mirrors.perform (fun w w' beside _ => ?_) fun w w' _ _ => h _
  exact (same w'.1).trans (congrArg (fun w => (handler scope op w).2) beside)

theorem Marks.andThen {r : Routine E} {r' : Routine (E.marked V)} {f : Outcome → Routine E}
    {f' : Outcome → Routine (E.marked V)} (h : r.Marks handler act scope r')
    (rest : ∀ o, (f o).Marks handler act scope (f' o)) :
    (r.andThen f).Marks handler act scope (r'.andThen f') := Routine.Mirrors.andThen h rest

end Routine

namespace Loop

theorem marks_plain (V : Type) (act : Nat → V → W → V × W) (l : Loop E W) :
    l.Marks handler act (l.plain V) := by
  refine ⟨rfl, rfl, List.length_map _, fun {t task task'} e e' => ?_, rfl, rfl, rfl⟩
  have found : (l.plain V).tasks[t]? = some (task.plain V) := by
    rw [plain, List.getElem?_map, e, Option.map_some]
  obtain rfl := Option.some.inj (found.symm.trans e')
  refine ⟨?_, rfl, rfl, rfl, rfl⟩
  unfold Task.plain
  cases task.wait with
  | start r => exact .start (r.marks_plain V act _)
  | sleep k => exact .sleep fun wake => (k wake).marks_plain V act _
  | race part k => exact .race fun finish => (k finish).marks_plain V act _
  | drain part forwarded k => exact .drain fun finish => (k finish).marks_plain V act _
  | lock k => exact .lock fun wake => (k wake).marks_plain V act _
  | «over» o => exact .over o

end Loop

/-! ## Histories of a run -/

namespace Loop

/-- A run starts as a task of its own, in the scope of its number, and some moves follow. -/
def afterStart (handler : Handler E W) (routine : A → Routine E) (r : Routine E)
    (moves : List (Move A)) (l : Loop E W) : Loop E W :=
  (l.spawn r l.tasks.length none).1.after handler routine moves

/-- What every operation keeps of the world, a history keeps. -/
theorem world_after {J : W → Prop} (keeps : ∀ scope op w, J w → J (handler scope op w).2)
    (routine : A → Routine E) {l : Loop E W} (holds : J l.world) (moves : List (Move A)) :
    J (l.after handler routine moves).world := by
  have admits (scope : Nat) : Admits handler (fun _ _ _ => True) J scope fun _ => True :=
    ⟨fun _ _ _ => trivial, fun _ w _ => by cases w <;> simp [Wait.Holds],
      fun op _ w _ holds => ⟨trivial, keeps scope op w holds⟩, fun _ _ _ => trivial,
      fun _ _ _ _ => trivial, fun _ _ _ _ => trivial, fun _ _ _ _ _ => trivial,
      fun _ _ _ => trivial, fun _ _ => trivial⟩
  suffices within : (l.after handler routine moves).Within (fun _ _ _ => True) J from within.world
  have start : l.Within (fun _ _ _ => True) J := ⟨fun _ => trivial, holds⟩
  clear holds
  induction moves generalizing l with
  | nil => exact start
  | cons m moves ih =>
    refine ih ?_
    cases m with
    | start a => exact start.spawn trivial
    | job n =>
      unfold move
      simp only
      split
      · have taken : ({ l with ready := l.ready.eraseIdx n } : Loop E W).Within
            (fun _ _ _ => True) J :=
          start.congr rfl rfl
        exact taken.runJob (fun h => h) fun t task _ _ => ⟨_, admits task.scope⟩
      · exact start
    | tick now => exact start.congr rfl rfl
    | fire t => exact start.resolve t .resumed
    | cancel t => exact start.cancel (fun h => h) _ t

/-- A run that starts at once is a task whose first job is done next. -/
theorem started_eq_afterStart (handler : Handler E W) (routine : A → Routine E) (r : Routine E)
    (l : Loop E W) :
    l.started handler r l.tasks.length =
      l.afterStart handler routine r [.job l.ready.length] := by
  let l₁ : Loop E W := { (l.spawn r l.tasks.length none).1 with ready := l.ready }
  have job : (l.spawn r l.tasks.length none).1.ready[l.ready.length]? =
      some (.wake l.tasks.length) :=
    List.getElem?_concat_length
  have rest : (l.spawn r l.tasks.length none).1.ready.eraseIdx l.ready.length = l.ready := by
    rw [spawn, List.eraseIdx_append_of_length_le (Nat.le_refl _), Nat.sub_self]
    exact List.append_nil _
  have new : l₁.tasks[l.tasks.length]? =
      some ⟨.start r, some .resumed, false, l.tasks.length, none⟩ :=
    List.getElem?_concat_length
  have woken : l₁.updateTask l.tasks.length
      (fun task => { task with signal? := none, mustCancel := false }) =
      { l with tasks := l.tasks ++ [⟨.start r, none, false, l.tasks.length, none⟩] } := by
    simp [l₁, spawn, updateTask, List.modify_eq_set_getElem?]
  simp only [afterStart, after, List.foldl_cons, List.foldl_nil, move, job, rest]
  refine Eq.trans ?_ (runJob_wake (l := l₁) new).symm
  rw [woken]
  rfl

end Loop

section

variable {E' : Effects} {W' : Type} {handler' : Handler E' W'} {sound : W → Prop}
  {related : W → W' → Prop} {l : Loop E W} {l' : Loop E' W'}

namespace Loop.Mirrors

theorem spawnRun {r : Routine E} {r' : Routine E'}
    (h : Loop.Mirrors handler handler' sound related l l')
    (m : Routine.Mirrors handler handler' sound related l.tasks.length r r') :
    Loop.Mirrors handler handler' sound related (l.spawn r l.tasks.length none).1
      (l'.spawn r' l'.tasks.length none).1 := by
  rw [h.length]
  exact h.spawn m none

end Loop.Mirrors

end

/-! ## What the marks say -/

/-- What is seen of the marks of one run is watched. -/
def Watch.marks {S : Type} (handler : Handler E W) (act : Nat → V → W → V × W) (scope : Nat)
    (view : List V → S) (inv : S → Prop) : Watch (E.marked V) (W × List V) S :=
  ⟨handler.marked act, scope, fun w => view w.2, inv⟩

section

variable {S : Type} {view : List V → S}

/-- A routine without marks does nothing to what is seen of the marks. -/
theorem Routine.silent_plain (r : Routine E) :
    (r.plain V).Silent (handler.marked act) (fun w => view w.2) scope := by
  induction r with
  | done o => trivial
  | perform op k ih => exact ⟨fun _ => rfl, ih⟩
  | clock k ih => exact ih
  | sleep d k ih => exact ih
  | race part limit? k ihp ih => exact ⟨ihp, ih⟩
  | acquire k ih => exact ih
  | release next ih => exact ih

theorem Watch.silent_plain {own : Nat} {inv : S → Prop} (scope : Nat) (r : Routine E) :
    (marks handler act own view inv).Silent scope (r.plain V) := r.silent_plain

theorem Loop.within_plain (l : Loop E W) :
    (l.plain V).Within
      (fun _ scope wait =>
        wait.Holds (Routine.Silent (handler.marked act) (fun w => view w.2) scope))
      fun _ => True := by
  refine ⟨fun {t task} e => ?_, trivial⟩
  rw [Loop.plain, List.getElem?_map] at e
  obtain ⟨task', -, rfl⟩ := Option.map_eq_some_iff.1 e
  unfold Task.plain
  cases task'.wait with
  | start r => exact r.silent_plain
  | sleep k => exact fun wake => (k wake).silent_plain
  | race part k => exact fun finish => (k finish).silent_plain
  | drain part forwarded k => exact fun finish => (k finish).silent_plain
  | lock k => exact fun wake => (k wake).silent_plain
  | «over» o => trivial

end

namespace Loop

variable {r : Routine E} {r' : Routine (E.marked V)} {l : Loop E W}

/-- Whatever happens after a run has started, the loop of the marked run does what the loop of the
run does. -/
theorem marks_afterStart (marks : r.Marks handler act l.tasks.length r') (routine : A → Routine E)
    (moves : List (Move A)) :
    (l.afterStart handler routine r moves).Marks handler act
      ((l.plain V).afterStart (handler.marked act) (fun a => (routine a).plain V) r' moves) :=
  ((l.marks_plain V act).spawnRun marks).after (fun _ => trivial)
    (fun a scope => (routine a).marks_plain V act scope) moves

/-- What is seen of the marks is upheld. -/
theorem upheld_afterStart {S : Type} {view : List V → S} {inv : S → Prop}
    {ends? : Option (Outcome → S → Prop)} (l : Loop E W) (initially : inv (view []))
    (obeys : ∀ w, view w.2 = view [] →
      (Watch.marks handler act l.tasks.length view inv).Obeys r' ends? w)
    (unbegun : ∀ ends ∈ ends?, ends (.error .cancelled) (view [])) (routine : A → Routine E)
    (moves : List (Move A)) :
    (Watch.marks handler act l.tasks.length view inv).Upheld l.tasks.length ends?
      ((l.plain V).afterStart (handler.marked act) (fun a => (routine a).plain V) r' moves) := by
  have length : (l.plain V).tasks.length = l.tasks.length := List.length_map _
  have spawned : (Watch.marks handler act l.tasks.length view inv).Upheld
      (l.plain V).tasks.length ends? ((l.plain V).spawn r' l.tasks.length none).1 :=
    Watch.upheld_spawn initially l.within_plain obeys unbegun
  rw [length] at spawned
  unfold afterStart
  rw [length]
  exact spawned.after (fun a scope => (routine a).silent_plain) moves

end Loop

end GraphClient
