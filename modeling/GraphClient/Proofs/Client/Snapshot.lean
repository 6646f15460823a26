import Mathlib.Data.List.Induction
import GraphClient.Middleware.Script
import GraphClient.Proofs.Client.Session

/-!
# Runs are independent of later registrations

A run takes the registry and the headers of the moment at which it is executed for the first
time. Whatever happens to the client afterwards, in whatever order:

* `Unbegun.turn`: a run that has not begun stays so, or begins at this turn.
* `Begins.follows`: a run that begins goes on from its snapshot.
* `Follows.turn`: and it does so after every further turn.
* `run_from_snapshot` puts these together, for every history of a client.
-/

namespace GraphClient.Session

open Loop (Within Others InScope)

variable {M : Type}

/-- The chain of a run that begins now: the middleware of the registry, the first one outermost,
around sending the request. -/
def chain (behaviour : M → Flow M → Flow M) (s : Session M) : Flow M :=
  s.loop.world.registry.foldr behaviour Client.send

/-- The request of a run that begins now. -/
def snapshot (s : Session M) (query vars : Value) : Request :=
  ⟨s.loop.world.url, query, s.loop.world.headers, vars⟩

/-- What the tasks of the others and a task that has not begun wait for. -/
def Waiting (run t : Nat) (r : Flow M) (t' scope : Nat) (w : Wait (effects M)) : Prop :=
  scope = run → t' = t ∧ (w = .start r ∨ w = .over (.error .cancelled))

/-- A run has not begun: its only task is still to start, or was cancelled before it did. -/
def Unbegun (behaviour : M → Flow M → Flow M) (s : Session M) (run : Nat) (query vars : Value) :
    Prop :=
  ∃ t, s.loop.Within (Waiting run t (Client.run behaviour query vars)) fun _ => True

/-- A job executes a run for the first time, which leads from one moment to the next. The run
executes the chain of the first of them, on the request of this moment. -/
def Begins (behaviour : M → Flow M → Flow M) (s : Session M) (n : Nat) (s' : Session M)
    (run : Nat) (query vars : Value) : Prop :=
  ∃ t task, s.loop.ready[n]? = some (.wake t) ∧ s.loop.tasks[t]? = some task ∧
    task.scope = run ∧ s'.loop = Loop.exec World.handle run t (s.chain behaviour)
      { s.loop with
        world := s.loop.world.setRequest run (s.snapshot query vars)
        tasks := s.loop.tasks.modify t fun task =>
          { task with signal? := none, mustCancel := false }
        ready := s.loop.ready.eraseIdx n }

/-- All tasks belong to the runs so far. -/
def Scoped (s : Session M) : Prop :=
  s.loop.Within (fun _ scope _ => scope < s.runs.length) fun _ => True

/-- What is said of the world while a run goes on: the registry of its beginning has only grown,
and the request is the one it began with, changed by edits of the run's own chain. -/
def Grown (behaviour : M → Flow M → Flow M) (s : Session M) (run : Nat) (query vars : Value)
    (w : World M) : Prop :=
  s.loop.world.registry <+: w.registry ∧
    ∃ edits : List (Request → Request), (∀ f ∈ edits, (s.chain behaviour).Performs (.edit f)) ∧
      w.requestOf run = edits.foldl (fun r f => f r) (s.snapshot query vars)

/-- A run that began at a moment goes on from what it took then: all that its tasks still have to
do is left of the chain of that moment. -/
def Follows (behaviour : M → Flow M → Flow M) (s s' : Session M) (run : Nat)
    (query vars : Value) : Prop :=
  s'.loop.Within (fun _ scope w => scope = run → w.Holds (s.chain behaviour).Residual)
    (s.Grown behaviour run query vars)

section

variable {behaviour : M → Flow M → Flow M} {inertType? : M → Option String}
  {s s' : Session M} {run : Nat} {query vars : Value}

theorem steady_waiting {t : Nat} {r : Flow M} : Loop.Steady (Waiting run t r) := by
  intro t' scope part forwarded k h same
  obtain ⟨-, h | h⟩ := h same <;> cases h

/-- A run executes the chain of its first moment with the request of that moment. -/
theorem exec_run (scope t : Nat) (l : ClientLoop M) :
    Loop.exec World.handle scope t (Client.run behaviour query vars) l =
      Loop.exec World.handle scope t (l.world.registry.foldr behaviour Client.send)
        { l with world := l.world.setRequest scope ⟨l.world.url, query, l.world.headers, vars⟩ } := by
  have dispatch (ms : List M) : (DispatchChain.mk ms behaviour Client.send).dispatch =
      ms.foldr behaviour Client.send := DispatchChain.call_eq_foldr _ 0
  simp only [Client.run, Client.createRequest, Loop.exec, World.handle, dispatch, World.setRequest]

theorem grown_refl (w : World M) (registry : w.registry = s.loop.world.registry)
    (request : w.requestOf run = s.snapshot query vars) : s.Grown behaviour run query vars w :=
  ⟨registry ▸ List.prefix_rfl, [], nofun, request⟩

/-- An operation of another scope, or one that the run's chain performs, keeps what is said of the
world. -/
theorem Grown.handle {w : World M} {scope : Nat} {op : Effect M}
    (h : s.Grown behaviour run query vars w)
    (performs : scope = run → (s.chain behaviour).Performs op) :
    s.Grown behaviour run query vars (w.handle scope op).2 := by
  obtain ⟨registry, edits, performed, request⟩ := h
  refine ⟨registry.trans (w.registry_prefix_handle scope op), ?_⟩
  by_cases same : scope = run
  · subst same
    rcases w.requestOf_handle scope op with kept | ⟨f, rfl, edited⟩
    · exact ⟨edits, performed, kept.trans request⟩
    · refine ⟨edits ++ [f], fun g hg => ?_, ?_⟩
      · rcases List.mem_append.1 hg with old | new
        · exact performed g old
        · exact List.mem_singleton.1 new ▸ performs rfl
      · rw [edited, request, List.foldl_append, List.foldl_cons, List.foldl_nil]
  · exact ⟨edits, performed, (w.requestOf_handle_of_ne (Ne.symm same) op).trans request⟩

/-- Tasks of other scopes do not touch a run that has not begun, or one that has. -/
theorem admits_others {Q : Nat → Nat → Wait (effects M) → Prop} {J : World M → Prop} {scope : Nat}
    (tasks : ∀ t w, Q t scope w) (world : ∀ op w, J w → J (World.handle scope op w).2) :
    ∃ R, Loop.Admits World.handle Q J scope R := ⟨_, Loop.admits_anything tasks world⟩

theorem Scoped.turn (t : Turn M) (h : s.Scoped) : (s.turn behaviour inertType? t).Scoped := by
  have grows : s.runs.length ≤ (s.turn behaviour inertType? t).runs.length := by
    rw [runs_turn, List.length_append]
    omega
  refine within_turn (fun h => h) ⟨fun e => ?_, trivial⟩ ?_ (fun _ => trivial) ?_
  · exact Nat.lt_of_lt_of_le (h.task e) grows
  · rintro query vars rfl
    simp only [Session.turn, List.length_append, List.length_singleton]
    omega
  · intro n i task _ _ e
    exact ⟨_, Loop.admits_anything (fun _ _ => Nat.lt_of_lt_of_le (h.task e) grows)
      fun _ _ _ => trivial⟩

/-- A run that has not begun stays so, or begins at this turn. -/
theorem Unbegun.turn (t : Turn M) (started : run < s.runs.length)
    (h : s.Unbegun behaviour run query vars) :
    (s.turn behaviour inertType? t).Unbegun behaviour run query vars ∨
      ∃ n, t = .job n ∧
        s.Begins behaviour n (s.turn behaviour inertType? t) run query vars := by
  obtain ⟨i, h⟩ := h
  by_cases wakes : ∃ n j task, t = .job n ∧ s.loop.ready[n]? = some (.wake j) ∧
      s.loop.tasks[j]? = some task ∧ task.scope = run
  · obtain ⟨n, j, task, rfl, job, e, mine⟩ := wakes
    have taken : (Loop.Within (Waiting run i (Client.run behaviour query vars)) fun _ => True)
        { s.loop with ready := s.loop.ready.eraseIdx n } := ⟨h.task, trivial⟩
    obtain ⟨rfl, waits⟩ := h.task e mine
    simp only [Session.turn, job, Loop.runJob, e]
    rcases waits with start | finished
    · cases signal : if task.mustCancel then Wake.cancelled else task.signal?.getD .resumed with
      | resumed =>
        refine .inr ⟨n, rfl, j, task, job, e, mine, ?_⟩
        simp only [Loop.resume, start, mine, exec_run]
        rfl
      | cancelled =>
        refine .inl ⟨j, ?_⟩
        simp only [Loop.resume, start]
        exact (taken.signal.others j).settle fun _ _ _ => ⟨rfl, .inr rfl⟩
    · refine .inl ⟨j, ?_⟩
      simp only [Loop.resume, finished]
      exact taken.signal
  · refine .inl ⟨i, within_turn steady_waiting h ?_ (fun _ => trivial) ?_⟩
    · intro _ _ _ same
      omega
    · intro n j task eq job e
      refine admits_others (fun _ _ same => ?_) fun _ _ _ => trivial
      exact absurd ⟨n, j, task, eq, job, e, same⟩ wakes

/-- A run that begins goes on from its snapshot. -/
theorem Begins.follows {n : Nat} (unbegun : s.Unbegun behaviour run query vars)
    (h : s.Begins behaviour n s' run query vars) : s.Follows behaviour s' run query vars := by
  obtain ⟨i, unbegun⟩ := unbegun
  obtain ⟨t, task, -, e, mine, loop⟩ := h
  obtain ⟨rfl, -⟩ := unbegun.task e mine
  unfold Follows
  rw [loop]
  refine Within.exec (Loop.admits_residual (fun t w => ?_) fun op w performs grown => ?_) .whole
    ⟨?_, ?_⟩ ⟨?_, trivial⟩
  · exact ⟨fun holds => holds rfl, fun holds _ => holds⟩
  · exact grown.handle fun _ => performs
  · -- No other task belongs to the run.
    intro j task' e' other same
    have kept : s.loop.tasks[j]? = some task' :=
      (List.getElem?_modify_ne _ _ (Ne.symm other)).symm.trans e'
    exact absurd (unbegun.task kept same).1 other
  · exact grown_refl _ rfl (World.requestOf_setRequest_self _ _ _)
  · rintro j task' e' rfl
    simp only [List.getElem?_modify, e, if_true, Option.map_eq_map, Option.map_some] at e'
    exact Option.some.inj e' ▸ mine

/-- A run that goes on from its snapshot does so after every further turn. -/
theorem Follows.turn (t : Turn M) (started : run < s'.runs.length)
    (h : s.Follows behaviour s' run query vars) :
    s.Follows behaviour (s'.turn behaviour inertType? t) run query vars := by
  refine within_turn (fun h same => h same) h ?_ (fun op => ?_) ?_
  · intro _ _ _ same
    omega
  · exact h.world.handle fun same => absurd same (by omega)
  · intro n i task _ _ e
    by_cases mine : task.scope = run
    · refine ⟨(s.chain behaviour).Residual, Loop.admits_residual (fun t w => ?_)
        fun op w performs grown => ?_⟩
      · exact ⟨fun holds => holds mine, fun holds _ => holds⟩
      · exact grown.handle fun _ => performs
    · exact admits_others (fun _ _ same => absurd same mine) fun op w grown =>
        grown.handle fun same => absurd same mine

/-- A run that starts has not begun: the tasks so far belong to earlier runs. -/
theorem Scoped.unbegun_start (h : s.Scoped) :
    (s.turn behaviour inertType? (.start query vars)).Unbegun behaviour s.runs.length query vars := by
  refine ⟨s.loop.tasks.length, Within.spawn ⟨fun e same => ?_, trivial⟩ ?_⟩
  · exact absurd (h.task e) (by omega)
  · exact fun _ => ⟨rfl, .inl rfl⟩

end

/-- Where a run stands after some turns: it has not begun, or it began at one of them and goes on
from the snapshot of that moment. The registry of that moment is what has been registered before. -/
def FromSnapshot (behaviour : M → Flow M → Flow M) (inertType? : M → Option String)
    (s : Session M) (turns : List (Turn M)) (run : Nat) (query vars : Value) : Prop :=
  (s.after behaviour inertType? turns).Unbegun behaviour run query vars ∨
  ∃ earlier n later, turns = earlier ++ .job n :: later ∧
    let moment := s.after behaviour inertType? earlier
    moment.loop.world.registry =
      s.loop.world.registry ++ s.registrations behaviour inertType? earlier ∧
    moment.Unbegun behaviour run query vars ∧
    moment.Begins behaviour n (moment.turn behaviour inertType? (.job n)) run query vars ∧
    moment.Follows behaviour (s.after behaviour inertType? turns) run query vars

section

variable {behaviour : M → Flow M → Flow M} {inertType? : M → Option String} {s : Session M}
  {run : Nat} {query vars : Value}

theorem after_concat (turns : List (Turn M)) (t : Turn M) :
    s.after behaviour inertType? (turns ++ [t]) =
      (s.after behaviour inertType? turns).turn behaviour inertType? t :=
  s.after_append turns [t]

/-- A run that has started after a turn had started before, or starts at this turn. -/
theorem started_of_turn {t : Turn M}
    (h : (s.turn behaviour inertType? t).runs[run]? = some (query, vars)) :
    s.runs[run]? = some (query, vars) ∨ t = .start query vars ∧ run = s.runs.length := by
  rw [runs_turn, List.getElem?_append] at h
  split at h
  · exact .inl h
  · cases t with
    | start query' vars' =>
      obtain ⟨zero, same⟩ : run - s.runs.length = 0 ∧ (query', vars') = (query, vars) := by
        simpa [Turn.starts, List.getElem?_singleton] using h
      obtain ⟨rfl, rfl⟩ := Prod.mk.inj same
      exact .inr ⟨rfl, by omega⟩
    | _ => cases h

theorem Scoped.after (h : s.Scoped) (turns : List (Turn M)) :
    (s.after behaviour inertType? turns).Scoped := by
  induction turns using List.reverseRecOn with
  | nil => exact h
  | append_singleton turns t ih => exact after_concat turns t ▸ ih.turn t

theorem FromSnapshot.turn {turns : List (Turn M)} (t : Turn M)
    (started : run < (s.after behaviour inertType? turns).runs.length)
    (h : FromSnapshot behaviour inertType? s turns run query vars) :
    FromSnapshot behaviour inertType? s (turns ++ [t]) run query vars := by
  unfold FromSnapshot
  rw [after_concat]
  rcases h with unbegun | ⟨earlier, n, later, rfl, registry, unbegun, begins, follows⟩
  · rcases unbegun.turn t started with still | ⟨n, rfl, begins⟩
    · exact .inl still
    · exact .inr ⟨turns, n, [], rfl, s.registry_after turns, unbegun, begins, begins.follows unbegun⟩
  · refine .inr ⟨earlier, n, later ++ [t], ?_, registry, unbegun, begins, follows.turn t started⟩
    rw [List.append_assoc, List.cons_append]

end

/-- After every history of a client, each of its runs has not begun, or it was first executed at
one of the turns: then it executes the chain of exactly the middleware that were registered at
that moment, in their order, on a request with exactly the headers of that moment. They are those of
the client at first, and then what the successful calls of `use` up to that moment were given. All
that the run has still to do is left of that chain, the registry of that moment is the front of the
present one, and nothing but the chain's own edits has changed the request since. -/
theorem run_from_snapshot (behaviour : M → Flow M → Flow M) (inertType? : M → Option String)
    (world : World M) (turns : List (Turn M)) (run : Nat) (query vars : Value)
    (started : ((initial world).after behaviour inertType? turns).runs[run]? =
      some (query, vars)) :
    FromSnapshot behaviour inertType? (initial world) turns run query vars := by
  have noTasks : (initial world).Scoped := ⟨nofun, trivial⟩
  induction turns using List.reverseRecOn generalizing query vars with
  | nil => cases started
  | append_singleton turns t ih =>
    have old (h : ((initial world).after behaviour inertType? turns).runs[run]? =
        some (query, vars)) :
        FromSnapshot behaviour inertType? (initial world) (turns ++ [t]) run query vars :=
      (ih query vars h).turn t (List.getElem?_eq_some_iff.1 h).1
    rw [after_concat] at started
    rcases started_of_turn started with before | ⟨rfl, rfl⟩
    · exact old before
    · left
      rw [after_concat]
      exact (noTasks.after turns).unbegun_start

/-- A run is held for a second. Meanwhile a header middleware is registered and the client loses
its headers. -/
def lateRegistration : List (Turn Middleware) :=
  [.use [.one (.script "hold" true [.sleep 1, .next])], .start (.text "{ a }") .null, .job 0,
   .use [.one (.header [("X-Late", .text "1")])], .changeHeaders fun _ => [], .tick 1, .fire 0,
   .job 0]

theorem run_from_snapshot_lateRegistration :
    let client : Session Middleware :=
      initial (Client.make (.text "https://api.example.com/graphql") [] .direct .default [] .network)
    (client.after Middleware.behaviour Middleware.inertType? lateRegistration).runs[0]? =
      some (.text "{ a }", .null) ∧
    FromSnapshot Middleware.behaviour Middleware.inertType? client lateRegistration 0
      (.text "{ a }") .null := by
  have started : ((initial (Client.make (.text "https://api.example.com/graphql") [] .direct
      .default [] .network)).after Middleware.behaviour Middleware.inertType?
        lateRegistration).runs[0]? = some (.text "{ a }", .null) := by
    rw [runs_after]
    rfl
  exact ⟨started, run_from_snapshot _ _ _ _ _ _ _ started⟩

end GraphClient.Session
