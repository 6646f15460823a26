import GraphClient.Client.Basic
import GraphClient.Proofs.Client.World
import GraphClient.Proofs.Flow.Notes
import GraphClient.Proofs.Flow.Operations
import GraphClient.Proofs.Flow.Residual

/-!
# A client in use

`Turn` lists what can happen next to a client that any number of runs share: a run starts, code
outside of the runs registers middleware or changes the headers, time passes, or the event loop
does a job. Jobs may be done in any order and timers may pass at any time, so every order in which
the runs can be suspended and go on is among the histories, and those of `Loop.next?` are
(`Session.next?_is_history`).

* `Session.within_turn`: a turn keeps an invariant of the loop if the tasks that it runs do.
* `Session.registry_after`: the registry is made of what calls of `use` were given that succeeded, and
  of what middleware has registered in the middle of runs.
-/

namespace GraphClient

/-- What can happen next to a client in use. -/
inductive Turn (M : Type) where
  /-- A run starts as a task of its own. -/
  | start (query vars : Value)
  | use (arguments : List (Argument M))
  | changeHeaders (f : Headers → Headers)
  /-- The job at a place of the queue is done. -/
  | job (n : Nat)
  | tick (now : Rat)
  /-- The timer of a task passes. -/
  | fire (task : Nat)
  | cancel (task : Nat)

/-- The query and the variables of the run that a turn starts, if it starts one. -/
def Turn.starts {M : Type} : Turn M → List (Value × Value)
  | .start query vars => [(query, vars)]
  | _ => []

/-- A client in use: the event loop, and the query and the variables of every run so far. The
number of a run is its scope. -/
structure Session (M : Type) where
  loop : ClientLoop M
  runs : List (Value × Value)

/-- What an operation registers. -/
def Note.registered {M : Type} : Note (effects M) → List M
  | ⟨_, .register ms, _⟩ => ms
  | _ => []

/-- What the tasks that a job runs register. -/
def Loop.registeredBy {M : Type} (l : ClientLoop M) (job : Job) : List M :=
  let noted : Loop (effects M) (World M × List (Note (effects M))) :=
    ⟨l.now, (l.world, []), l.tasks, l.ready, l.timers, l.lock⟩
  (runJob (noting World.handle) job noted).world.2.flatMap Note.registered

/-- A job adds to the registry what the tasks register that it runs. -/
theorem Loop.registry_runJob {M : Type} (l : ClientLoop M) (job : Job) :
    (runJob World.handle job l).world.registry = l.world.registry ++ l.registeredBy job := by
  let noted : Loop (effects M) (World M × List (Note (effects M))) :=
    ⟨l.now, (l.world, []), l.tasks, l.ready, l.timers, l.lock⟩
  let J (w : World M × List (Note (effects M))) : Prop :=
    w.1.registry = l.world.registry ++ w.2.flatMap Note.registered
  have keeps (scope : Nat) (op : Effect M) (w : World M × List (Note (effects M))) (h : J w) :
      J (noting World.handle scope op w).2 := by
    simp only [J, noting, List.flatMap_append, List.flatMap_singleton, ← List.append_assoc, ← h]
    cases op <;> first | rfl | exact (List.append_nil _).symm
  have initially : noted.Within (fun _ _ _ => True) J := ⟨fun _ => trivial, (List.append_nil _).symm⟩
  have later : (runJob (noting World.handle) job noted).Within (fun _ _ _ => True) J :=
    Within.runJob (fun h => h) (fun t task _ _ =>
      ⟨_, admits_anything (fun _ _ => trivial) (keeps task.scope)⟩) initially
  have same : (runJob (noting World.handle) job noted).forget = runJob World.handle job l :=
    forget_runJob job noted
  rw [← same]
  exact later.world

namespace Session

variable {M : Type} (behaviour : M → Flow M → Flow M) (inertType? : M → Option String)

/-- A client that has not been used. -/
def initial (world : World M) : Session M := ⟨.initial world, []⟩

/-- Does an operation on the world outside of the runs. -/
def act (s : Session M) (op : Effect M) : Session M :=
  { s with loop := { s.loop with world := (World.handle s.runs.length op s.loop.world).2 } }

def turn (s : Session M) : Turn M → Session M
  | .start query vars =>
    ⟨(s.loop.spawn (Client.run behaviour query vars) s.runs.length none).1,
      s.runs ++ [(query, vars)]⟩
  | .use arguments =>
    match Registry.accepted inertType? arguments with
    | .ok ms => s.act (.register ms)
    | .error _ => s
  | .changeHeaders f => s.act (.updateHeaders f)
  | .job n =>
    match s.loop.ready[n]? with
    | some job =>
      { s with
        loop := Loop.runJob World.handle job { s.loop with ready := s.loop.ready.eraseIdx n } }
    | none => s
  | .tick now => { s with loop := { s.loop with now := now } }
  | .fire task => { s with loop := s.loop.resolve task .resumed }
  | .cancel task => { s with loop := Loop.cancel s.loop.tasks.length task s.loop }

/-- What a turn adds to the registry: what `use` is given, unless it is refused, or what middleware
registers in the middle of its runs. -/
def registered (s : Session M) : Turn M → List M
  | .use arguments =>
    match Registry.accepted inertType? arguments with
    | .ok ms => ms
    | .error _ => []
  | .job n =>
    match s.loop.ready[n]? with
    | some job => Loop.registeredBy { s.loop with ready := s.loop.ready.eraseIdx n } job
    | none => []
  | _ => []

/-- What some turns add to the registry, in order. -/
def registrations : Session M → List (Turn M) → List M
  | _, [] => []
  | s, t :: turns => s.registered inertType? t ++ registrations (s.turn behaviour inertType? t) turns

/-- The client after some turns. -/
def after (s : Session M) (turns : List (Turn M)) : Session M :=
  turns.foldl (turn behaviour inertType?) s

variable {behaviour inertType?}

theorem after_append (s : Session M) (turns later : List (Turn M)) :
    s.after behaviour inertType? (turns ++ later) =
      (s.after behaviour inertType? turns).after behaviour inertType? later :=
  List.foldl_append

/-- A run starts at its turn, and no other turn starts one. -/
theorem runs_turn (s : Session M) (t : Turn M) :
    (s.turn behaviour inertType? t).runs = s.runs ++ t.starts := by
  cases t with
  | start query vars => rfl
  | use arguments =>
    unfold turn
    simp only
    split <;> exact (List.append_nil s.runs).symm
  | job n =>
    unfold turn
    simp only
    split <;> exact (List.append_nil s.runs).symm
  | _ => exact (List.append_nil s.runs).symm

theorem runs_after (s : Session M) (turns : List (Turn M)) :
    (s.after behaviour inertType? turns).runs = s.runs ++ turns.flatMap Turn.starts := by
  induction turns generalizing s with
  | nil => exact (List.append_nil s.runs).symm
  | cons t turns ih =>
    calc ((s.turn behaviour inertType? t).after behaviour inertType? turns).runs
        = (s.turn behaviour inertType? t).runs ++ turns.flatMap Turn.starts := ih _
      _ = s.runs ++ (t :: turns).flatMap Turn.starts := by
        rw [runs_turn, List.append_assoc, List.flatMap_cons]

theorem registry_turn (s : Session M) (t : Turn M) :
    (s.turn behaviour inertType? t).loop.world.registry =
      s.loop.world.registry ++ s.registered inertType? t := by
  cases t with
  | use arguments =>
    unfold turn registered
    simp only
    split
    · rfl
    · exact (List.append_nil _).symm
  | job n =>
    unfold turn registered
    simp only
    split
    · exact Loop.registry_runJob _ _
    · exact (List.append_nil _).symm
  | cancel task =>
    have here : s.loop.Within (fun _ _ _ => True) (· = s.loop.world) := ⟨fun _ => trivial, rfl⟩
    have kept := (here.cancel (fun h => h) s.loop.tasks.length task).world
    exact (congrArg World.registry kept).trans (List.append_nil _).symm
  | _ => exact (List.append_nil _).symm

/-- The registry has grown by what the turns have registered, in order, and by nothing else. -/
theorem registry_after (s : Session M) (turns : List (Turn M)) :
    (s.after behaviour inertType? turns).loop.world.registry =
      s.loop.world.registry ++ s.registrations behaviour inertType? turns := by
  induction turns generalizing s with
  | nil => exact (List.append_nil _).symm
  | cons t turns ih =>
    refine (ih _).trans ?_
    rw [registry_turn, registrations, List.append_assoc]

/-- What the calls of `use` outside of the runs do is what `Client.use` does. -/
theorem exec_use (s : Session M) (arguments : List (Argument M)) :
    (Loop.exec World.handle s.runs.length s.loop.tasks.length
      (Client.use inertType? arguments) s.loop).world =
        (s.turn behaviour inertType? (.use arguments)).loop.world := by
  cases accepted : Registry.accepted inertType? arguments with
  | error e => simp only [Client.use, turn, accepted, Routine.fail, Loop.exec, Loop.world_settle]
  | ok ms =>
    simp only [Client.use, turn, accepted, Routine.ret, Loop.exec, Loop.world_settle, act,
      World.handle]

/-- Every step of the event loop is some turns. -/
theorem next?_is_history {s : Session M} {l : ClientLoop M}
    (step : s.loop.next? World.handle = some l) :
    ∃ turns, s.after behaviour inertType? turns = { s with loop := l } := by
  unfold Loop.next? at step
  split at step
  · rename_i job rest ready
    refine ⟨[.job 0], ?_⟩
    obtain rfl := Option.some.inj step
    simp only [after, List.foldl_cons, List.foldl_nil, turn, ready, List.getElem?_cons_zero,
      List.eraseIdx_cons_zero]
  · obtain ⟨due, _, rfl⟩ := Option.map_eq_some_iff.1 step
    refine ⟨.tick due :: (s.loop.timers.filter (·.due = due)).map fun timer => .fire timer.task, ?_⟩
    have fires (timers : List Timer) (s : Session M) :
        s.after behaviour inertType? (timers.map fun timer => .fire timer.task) =
          { s with
            loop := timers.foldl (fun l timer => l.resolve timer.task .resumed) s.loop } := by
      induction timers generalizing s with
      | nil => rfl
      | cons timer timers ih => exact ih _
    exact fires _ _

/-- A turn keeps an invariant of the loop if the tasks that it runs do. -/
theorem within_turn {Q : Nat → Nat → Wait (effects M) → Prop} {J : World M → Prop}
    {s : Session M} {t : Turn M} (steady : Loop.Steady Q) (h : s.loop.Within Q J)
    (starts : ∀ query vars, t = .start query vars →
      Q s.loop.tasks.length s.runs.length (.start (Client.run behaviour query vars)))
    (world : ∀ op, J (World.handle s.runs.length op s.loop.world).2)
    (admits : ∀ n i task, t = .job n → s.loop.ready[n]? = some (.wake i) →
      s.loop.tasks[i]? = some task → ∃ R, Loop.Admits World.handle Q J task.scope R) :
    (s.turn behaviour inertType? t).loop.Within Q J := by
  cases t with
  | start query vars => exact h.spawn (starts query vars rfl)
  | use arguments =>
    unfold turn
    simp only
    split
    · exact ⟨h.task, world _⟩
    · exact h
  | changeHeaders f => exact ⟨h.task, world _⟩
  | job n =>
    unfold turn
    simp only
    split
    · rename_i job found
      have taken : Loop.Within Q J { s.loop with ready := s.loop.ready.eraseIdx n } :=
        ⟨h.task, h.world⟩
      exact taken.runJob steady fun i task wakes e => admits n i task rfl (wakes ▸ found) e
    · exact h
  | tick now => exact ⟨h.task, h.world⟩
  | fire task => exact h.resolve task .resumed
  | cancel task => exact h.cancel steady _ task

end Session

end GraphClient
