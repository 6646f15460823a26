import Mathlib.Tactic.Choose
import GraphClient.Middleware.Chain
import GraphClient.Middleware.Script

/-!
# Programs around the rest of a chain

A `Program` is what a middleware does: a routine that may also run the rest of its chain, any number of
times. What middleware does with the rest is that program around it (`Program.around`).

A program is what is done in a coroutine. What it raises leaves the coroutine as a failure.

* `Programmed`: a middleware is a program. `Inline`: it waits for the rest itself, not in a task of its
  own.
* `Middleware.programmed`, `Middleware.inline`: the stock middleware and scripts are programs, and all
  but the time limits wait for the rest themselves.
* `Stock.around_limitProgram`, `Stock.around_logProgram`: the programs of the time limit and of the
  logging middleware.
-/

namespace GraphClient

/-- What a middleware does. -/
inductive Program (E : Effects) where
  | done (result : Except Thrown Value)
  | perform (op : E.Op) (k : E.Reply op → Program E)
  | clock (k : Rat → Program E)
  | sleep (duration : Rat) (k : Wake → Program E)
  | race (part : Program E) (limit? : Option Rat) (k : RaceEnd → Program E)
  | acquire (k : Wake → Program E)
  | release (next : Program E)
  /-- Waits for the rest of the chain. -/
  | rest (k : Outcome → Program E)
  /-- Asks for the rest of the chain, and drops what it is handed without waiting for it. -/
  | discard (next : Program E)

namespace Program

variable {E : Effects}

/-- What the program does around the rest of the chain. Nothing of the rest runs before it is waited
for. -/
def around : Program E → Routine E → Routine E
  | done result, _ => .done (.leaving .coroutine result)
  | perform op k, r => .perform op fun reply => (k reply).around r
  | clock k, r => .clock fun now => (k now).around r
  | sleep d k, r => .sleep d fun wake => (k wake).around r
  | race part limit? k, r => .race (part.around r) limit? fun finish => (k finish).around r
  | acquire k, r => .acquire fun wake => (k wake).around r
  | release next, r => .release (next.around r)
  | rest k, r => r.andThen fun outcome => (k outcome).around r
  | discard next, r => next.around r

/-- A routine as a program that has no use for the rest of the chain. -/
def ofRoutine : Routine E → Program E
  | .done outcome => done outcome.toResult
  | .perform op k => perform op fun reply => ofRoutine (k reply)
  | .clock k => clock fun now => ofRoutine (k now)
  | .sleep d k => sleep d fun wake => ofRoutine (k wake)
  | .race part limit? k => race (ofRoutine part) limit? fun finish => ofRoutine (k finish)
  | .acquire k => acquire fun wake => ofRoutine (k wake)
  | .release next => release (ofRoutine next)

theorem around_ofRoutine (r next : Routine E) : (ofRoutine r).around next = r := by
  induction r with
  | done outcome => simp only [ofRoutine, around, Outcome.leaving_toResult]
  | perform op k ih => simp only [ofRoutine, around, ih]
  | clock k ih => simp only [ofRoutine, around, ih]
  | sleep d k ih => simp only [ofRoutine, around, ih]
  | race part limit? k ihp ih => simp only [ofRoutine, around, ihp, ih]
  | acquire k ih => simp only [ofRoutine, around, ih]
  | release next ih => simp only [ofRoutine, around, ih]

/-- Hands back what the rest of the chain ends with. -/
def handBack : Program E := rest fun outcome => done outcome.toResult

@[simp] theorem around_handBack (r : Routine E) : handBack.around r = r := by
  simp only [handBack, around, Outcome.leaving_toResult]
  exact r.andThen_done

/-- The program never waits for the rest of the chain. -/
def Closed : Program E → Prop
  | done _ => True
  | perform _ k => ∀ reply, (k reply).Closed
  | clock k => ∀ now, (k now).Closed
  | sleep _ k => ∀ wake, (k wake).Closed
  | race part _ k => part.Closed ∧ ∀ finish, (k finish).Closed
  | acquire k => ∀ wake, (k wake).Closed
  | release next => next.Closed
  | rest _ => False
  | discard next => next.Closed

/-- The program waits for the rest of the chain itself, never in a task of its own. -/
def Inline : Program E → Prop
  | done _ => True
  | perform _ k => ∀ reply, (k reply).Inline
  | clock k => ∀ now, (k now).Inline
  | sleep _ k => ∀ wake, (k wake).Inline
  | race part _ k => part.Closed ∧ ∀ finish, (k finish).Inline
  | acquire k => ∀ wake, (k wake).Inline
  | release next => next.Inline
  | rest k => ∀ outcome, (k outcome).Inline
  | discard next => next.Inline

theorem closed_ofRoutine (r : Routine E) : (ofRoutine r).Closed := by
  induction r with
  | done outcome => trivial
  | race part limit? k ihp ih => exact ⟨ihp, ih⟩
  | perform op k ih => exact ih
  | clock k ih => exact ih
  | sleep d k ih => exact ih
  | acquire k ih => exact ih
  | release next ih => exact ih

theorem Closed.inline {p : Program E} (h : p.Closed) : p.Inline := by
  induction p with
  | done result => trivial
  | perform op k ih => exact fun reply => ih reply (h reply)
  | clock k ih => exact fun now => ih now (h now)
  | sleep d k ih => exact fun wake => ih wake (h wake)
  | race part limit? k _ ih => exact ⟨h.1, fun finish => ih finish (h.2 finish)⟩
  | acquire k ih => exact fun wake => ih wake (h wake)
  | release next ih => exact ih h
  | rest k _ => exact h.elim
  | discard next ih => exact ih h

end Program

/-- The middleware is a program. -/
def Programmed {E : Effects} (f : Routine E → Routine E) : Prop := ∃ p : Program E, f = p.around

/-- What every program keeps around two routines, a chain of programs keeps. -/
theorem Programmed.foldr {E : Effects} {M : Type} {behaviour : M → Routine E → Routine E}
    {related : Routine E → Routine E → Prop} {xs : List M}
    (programs : ∀ x ∈ xs, Programmed (behaviour x))
    (around : ∀ (p : Program E) r r', related r r' → related (p.around r) (p.around r'))
    {r r' : Routine E} (h : related r r') :
    related (xs.foldr behaviour r) (xs.foldr behaviour r') := by
  induction xs with
  | nil => exact h
  | cons x xs ih =>
    obtain ⟨p, same⟩ := programs x List.mem_cons_self
    rw [List.foldr_cons, List.foldr_cons, same]
    exact around p _ _ (ih fun x mem => programs x (List.mem_cons_of_mem _ mem))

/-- The middleware is a program that waits for the rest of the chain itself. -/
def Inline {E : Effects} (f : Routine E → Routine E) : Prop :=
  ∃ p : Program E, p.Inline ∧ f = p.around

namespace Inline

variable {E : Effects}

theorem programmed {f : Routine E → Routine E} (h : Inline f) : Programmed f :=
  let ⟨p, _, same⟩ := h
  ⟨p, same⟩

/-- Middleware that ignores the rest of the chain. -/
theorem ignoring (r : Routine E) : Inline fun _ => r :=
  ⟨.ofRoutine r, (Program.closed_ofRoutine r).inline,
    funext fun next => (Program.around_ofRoutine r next).symm⟩

theorem perform (op : E.Op) {f : E.Reply op → Routine E → Routine E} (h : ∀ reply, Inline (f reply)) :
    Inline fun next => .perform op fun reply => f reply next := by
  choose p inline same using h
  refine ⟨.perform op p, inline, funext fun next => ?_⟩
  simp only [Program.around, same]

theorem clock {f : Rat → Routine E → Routine E} (h : ∀ now, Inline (f now)) :
    Inline fun next => .clock fun now => f now next := by
  choose p inline same using h
  refine ⟨.clock p, inline, funext fun next => ?_⟩
  simp only [Program.around, same]

theorem sleep (d : Rat) {f : Wake → Routine E → Routine E} (h : ∀ wake, Inline (f wake)) :
    Inline fun next => .sleep d fun wake => f wake next := by
  choose p inline same using h
  refine ⟨.sleep d p, inline, funext fun next => ?_⟩
  simp only [Program.around, same]

theorem rest {f : Outcome → Routine E → Routine E} (h : ∀ outcome, Inline (f outcome)) :
    Inline fun next => next.andThen fun outcome => f outcome next := by
  choose p inline same using h
  refine ⟨.rest p, inline, funext fun next => ?_⟩
  simp only [Program.around, same]

/-- Middleware that raises an error. -/
theorem raising (error : Raise) : Inline fun _ : Routine E => .fail error.toFailure :=
  ⟨.done (.error error.toThrown), trivial, rfl⟩

/-- Middleware that just hands back the rest of the chain. -/
theorem handBack : Inline fun next : Routine E => next :=
  ⟨.handBack, fun _ => trivial, funext fun next => (Program.around_handBack next).symm⟩

theorem discard {f : Routine E → Routine E} (h : Inline f) : Inline f :=
  let ⟨p, inline, same⟩ := h
  ⟨.discard p, inline, same⟩

end Inline

namespace Script

theorem inline_retry (name : String) {k : Value → Flow Middleware → Flow Middleware}
    (h : ∀ v, Inline (k v)) (left i : Nat) (v : Value) :
    Inline fun next => retry name next (fun v => k v next) left i v := by
  induction left generalizing i v with
  | zero => exact h v
  | succ left ih =>
    refine Inline.rest fun outcome => ?_
    cases outcome with
    | ok v => exact h v
    | error e =>
      by_cases counts : e.isError
      · simp only [if_pos counts]
        refine Inline.perform (E := effects Middleware) _ fun _ => ?_
        by_cases last : left = 0
        · simp only [if_pos last]
          exact .ignoring _
        · simp only [if_neg last]
          exact ih (i + 1) v
      · simp only [if_neg counts]
        exact .ignoring _

/-- A script is a program that waits for the rest of the chain itself. -/
theorem inline (name : String) (waits : Bool) (steps : List Step) (v : Value) :
    Inline fun next => run name waits next steps v := by
  induction steps generalizing v with
  | nil => exact .ignoring _
  | cons step steps ih =>
    have one (op : Effect Middleware) (v : Value) :
        Inline (E := effects Middleware) fun next => .perform op fun _ => run name waits next steps v :=
      .perform (E := effects Middleware) op fun _ => ih v
    cases step with
    | log text => exact one _ v
    | header name' v' => exact one _ v
    | dropHeader name' => exact one _ v
    | query v' => exact one _ v
    | url v' => exact one _ v
    | vars v' => exact one _ v
    | «variable» name' v' =>
      refine Inline.perform (E := effects Middleware) _ fun r : Request => ?_
      cases withVariable r.vars name' v' with
      | error e => exact .ignoring _
      | ok vars => exact one _ v
    | «show» => exact Inline.perform (E := effects Middleware) _ fun _ => one _ v
    | raise error => exact .raising error
    | use specs =>
      simp only [run]
      cases (Spec.toArguments specs).bind (Registry.accepted Middleware.inertType?) with
      | error e => exact .ignoring _
      | ok ms => exact one _ v
    | clientHeader name' v' => exact one _ v
    | wrap key => exact ih _
    | pick key => exact ih _
    | result v' => exact .ignoring _
    | next =>
      cases waits with
      | true =>
        refine Inline.rest fun outcome => ?_
        cases outcome with
        | ok v => exact ih v
        | error e => exact .ignoring _
      | false => exact .handBack
    | sleep d =>
      refine Inline.sleep d fun wake => ?_
      cases wake with
      | resumed => exact ih v
      | cancelled => exact .ignoring _
    | «catch» =>
      refine Inline.rest fun outcome => ?_
      cases outcome with
      | ok v => exact ih v
      | error e =>
        by_cases counts : e.isError
        · simp only [if_pos counts]
          exact one _ _
        · simp only [if_neg counts]
          exact .ignoring _
    | retry count => exact inline_retry name ih count 0 v
    | «drop» => exact (ih v).discard

end Script

namespace Stock

variable {M : Type}

theorem inline_header (headers : Headers) : Inline (header (M := Middleware) headers) :=
  .perform (E := effects Middleware) _ fun _ => .handBack

/-- The time limit as a program. -/
def limitProgram (t : TimeLimit) : Program (effects M) :=
  .race .handBack t.limit? fun finish => .ofRoutine (conclude t finish)

theorem around_limitProgram (t : TimeLimit) : (limitProgram (M := M) t).around = timeout t := by
  funext next
  simp only [limitProgram, Program.around, Program.around_handBack, Program.around_ofRoutine, timeout]

/-- The logging middleware as a program. -/
def logProgram (logger : String) (level : Int) : Program (effects M) :=
  .perform (E := effects M) .request fun r : Request =>
    match operationName r.query with
    | .error e => .done (.error (.failure e))
    | .ok name =>
      let log (level : Int) (message : String) (rest : Program (effects M)) : Program (effects M) :=
        .perform (E := effects M) (.log ⟨level, logger, "GraphQL " ++ name ++ " " ++ message⟩) fun _ =>
          rest
      .clock fun start =>
        log level ("-> " ++ r.url.display) <|
          .rest fun
            | .ok v => .clock fun now =>
              log level ("completed in " ++ milliseconds (now - start) ++ "ms") (.done (.ok v))
            | .error e =>
              if e.isError then .clock fun now =>
                log warningLevel ("failed after " ++ milliseconds (now - start) ++ "ms: " ++ e.text)
                  (.done (.error (.failure e)))
              else .done (.error (.failure e))

theorem around_logProgram (logger : String) (level : Int) :
    (logProgram (M := M) logger level).around = logging logger level := by
  refine funext fun next => congrArg (Routine.perform (E := effects M) _) (funext fun r : Request => ?_)
  simp only
  cases operationName r.query with
  | error e => rfl
  | ok name =>
    refine congrArg Routine.clock (funext fun start => ?_)
    refine congrArg (Routine.perform (E := effects M) _) (funext fun _ => ?_)
    refine congrArg next.andThen (funext fun o => ?_)
    cases o with
    | ok v => rfl
    | error e =>
      by_cases counts : e.isError
      · simp only [if_pos counts]
        rfl
      · simp only [if_neg counts]
        rfl

theorem inline_logging (logger : String) (level : Int) :
    Inline (logging (M := Middleware) logger level) := by
  refine ⟨logProgram logger level, fun r : Request => ?_, (around_logProgram logger level).symm⟩
  simp only
  cases operationName r.query with
  | error e => trivial
  | ok name =>
    intro start _ outcome
    cases outcome with
    | ok v => exact fun now _ => trivial
    | error e =>
      by_cases counts : e.isError
      · simp only [if_pos counts]
        exact fun now _ => trivial
      · simp only [if_neg counts]
        trivial

theorem programmed_timeout (t : TimeLimit) : Programmed (timeout (M := Middleware) t) :=
  ⟨limitProgram t, (around_limitProgram t).symm⟩

end Stock

namespace Middleware

/-- All middleware but the time limits wait for the rest of the chain themselves. -/
theorem inline {m : Middleware} (unlimited : ∀ limit, m ≠ .timeout limit) : Inline (behaviour m) := by
  cases m with
  | header headers => exact Stock.inline_header headers
  | timeout limit => exact absurd rfl (unlimited limit)
  | logging logger level => exact Stock.inline_logging logger level
  | script name waits steps => exact Script.inline name waits steps .null
  | value v => exact .ignoring _
  | group isTuple => exact .ignoring _

theorem programmed (m : Middleware) : Programmed (behaviour m) := by
  cases m with
  | timeout limit => exact Stock.programmed_timeout limit
  | _ => exact (inline fun _ => Middleware.noConfusion).programmed

end Middleware

end GraphClient
