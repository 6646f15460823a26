import GraphClient.Flow.Context
import GraphClient.Proofs.Middleware.Program

/-!
# Middleware and the context of their task

Middleware waits for the rest of a chain in its own task, and so goes on in the context that the
rest leaves, or in a part of a race, and so goes on in its own.

* `Program.withContext`: a program that has no use for the context. `asTask_withContext_foldr`: a
  chain of them does as a task what it does where there are no contexts.
* `Routine.KeepsContext`: whatever happens, a routine leaves the context as it is.
* `Congruent.around`: routines that are related in all contexts are so inside of a program.
-/

namespace GraphClient

variable {E : Effects} {C M : Type}

/-- A routine of a client whose tasks have contexts. -/
abbrev FlowIn (M C : Type) := Routine ((effects M).withContext C)

/-! ## Without use for the context -/

namespace Routine

theorem withContext_andThen (r : Routine E) (f : Outcome → Routine E) :
    (r.andThen f).withContext C = (r.withContext C).andThen fun o => (f o).withContext C := by
  induction r with
  | done o => rfl
  | perform op k ih => exact congrArg _ (funext ih)
  | clock k ih => exact congrArg _ (funext ih)
  | sleep d k ih => exact congrArg _ (funext ih)
  | race part limit? k _ ih => exact congrArg _ (funext ih)
  | acquire k ih => exact congrArg _ (funext ih)
  | release next ih => exact congrArg _ ih

end Routine

namespace Program

/-- The program, where there are contexts. -/
def withContext (C : Type) : Program E → Program (E.withContext C)
  | done result => .done result
  | perform op k => .perform (E := E.withContext C) (.inl op) fun reply => (k reply).withContext C
  | clock k => .clock fun now => (k now).withContext C
  | sleep d k => .sleep d fun wake => (k wake).withContext C
  | race part limit? k =>
    .race (part.withContext C) limit? fun finish => (k finish).withContext C
  | acquire k => .acquire fun wake => (k wake).withContext C
  | release next => .release (next.withContext C)
  | rest k => .rest fun o => (k o).withContext C
  | discard next => .discard (next.withContext C)

/-- Around a rest of the chain that has no use for the context either, the program is what it is
where there are no contexts. -/
theorem around_withContext (p : Program E) (r : Routine E) :
    (p.withContext C).around (r.withContext C) = (p.around r).withContext C := by
  induction p with
  | done result => rfl
  | perform op k ih => exact congrArg _ (funext ih)
  | clock k ih => exact congrArg _ (funext ih)
  | sleep d k ih => exact congrArg _ (funext ih)
  | race part limit? k ihp ih =>
    simp only [withContext, around, Routine.withContext, ihp, ih]
  | acquire k ih => exact congrArg _ (funext ih)
  | release next ih => exact congrArg _ ih
  | rest k ih =>
    simp only [withContext, around, Routine.withContext_andThen, ih]
  | discard next ih => exact ih

end Program

/-- A chain of middleware that have no use for the context is what it is where there are no
contexts. -/
theorem asTask_withContext_foldr (program : M → Program E) (ms : List M) (terminal : Routine E)
    (c : C) :
    (ms.foldr (fun m => ((program m).withContext C).around) (terminal.withContext C)).asTask c =
      ms.foldr (fun m => (program m).around) terminal := by
  have whole : ms.foldr (fun m => ((program m).withContext C).around) (terminal.withContext C) =
      (ms.foldr (fun m => (program m).around) terminal).withContext C := by
    induction ms with
    | nil => rfl
    | cons m ms ih =>
      rw [List.foldr_cons, ih, Program.around_withContext, List.foldr_cons]
  rw [whole, Routine.asTask_withContext]

/-! ## The context that is left -/

namespace Routine

/-- Whatever happens, the routine ends in one context where it starts in another one. -/
def Leaves (left : C) : Routine (E.withContext C) → C → Prop
  | done _, c => c = left
  | perform (.inl _) f, c => ∀ reply, (f reply).Leaves left c
  | perform (.inr .read) f, c => (f c).Leaves left c
  | perform (.inr (.write context)) f, _ => (f ()).Leaves left context
  | clock f, c => ∀ now, (f now).Leaves left c
  | sleep _ f, c => ∀ wake, (f wake).Leaves left c
  | race _ _ f, c => ∀ finish, (f finish).Leaves left c
  | acquire f, c => ∀ wake, (f wake).Leaves left c
  | release next, c => next.Leaves left c

/-- Whatever happens, the routine leaves the context as it is. -/
def KeepsContext (r : Routine (E.withContext C)) : Prop := ∀ c, r.Leaves c c

/-- Where it is known which context a routine leaves, it may run as a task. -/
theorem Leaves.inContext_eq {r : Routine (E.withContext C)} {left c : C} (h : r.Leaves left c)
    (k : Outcome → C → Routine E) : r.inContext c k = (r.asTask c).andThen fun o => k o left := by
  induction r generalizing c with
  | done o => exact congrArg (k o) h
  | perform op f ih =>
    match op with
    | .inl op => exact congrArg (Routine.perform op) (funext fun reply => ih reply (h reply))
    | .inr .read => exact ih c h
    | .inr (.write context) => exact ih () h
  | clock f ih => exact congrArg _ (funext fun now => ih now (h now))
  | sleep d f ih => exact congrArg _ (funext fun wake => ih wake (h wake))
  | race part limit? f _ ih => exact congrArg _ (funext fun finish => ih finish (h finish))
  | acquire f ih => exact congrArg _ (funext fun wake => ih wake (h wake))
  | release next ih => exact congrArg _ (ih h)

end Routine

/-- A time limit leaves the context as it is, whatever the rest of the chain does in its own. -/
theorem Stock.keepsContext_limitProgram (t : TimeLimit) (r : FlowIn M C) :
    (((limitProgram t).withContext C).around r).KeepsContext := by
  intro c finish
  cases finish with
  | settled o => rfl
  | expired => exact fun request => rfl
  | cancelled => rfl

/-! ## Related routines -/

/-- Routines are related that do the same and go on with related ones. -/
structure Congruent (R : Routine E → Routine E → Prop) : Prop where
  done (o : Outcome) : R (.done o) (.done o)
  perform (op : E.Op) {f f' : E.Reply op → Routine E} (h : ∀ reply, R (f reply) (f' reply)) :
    R (.perform op f) (.perform op f')
  clock {f f' : Rat → Routine E} (h : ∀ now, R (f now) (f' now)) : R (.clock f) (.clock f')
  sleep (d : Rat) {f f' : Wake → Routine E} (h : ∀ wake, R (f wake) (f' wake)) :
    R (.sleep d f) (.sleep d f')
  race (limit? : Option Rat) {part part' : Routine E} {f f' : RaceEnd → Routine E}
    (inside : R part part') (h : ∀ finish, R (f finish) (f' finish)) :
    R (.race part limit? f) (.race part' limit? f')
  acquire {f f' : Wake → Routine E} (h : ∀ wake, R (f wake) (f' wake)) :
    R (.acquire f) (.acquire f')
  release {next next' : Routine E} (h : R next next') : R (.release next) (.release next')

/-- The routines are related in every context, if what they go on with is. -/
def InContext (R : Routine E → Routine E → Prop) (r r' : Routine (E.withContext C)) : Prop :=
  ∀ c k k', (∀ o c', R (k o c') (k' o c')) → R (r.inContext c k) (r'.inContext c k')

namespace Congruent

variable {R : Routine E → Routine E → Prop}

/-- Around related rests of the chain, a program does related things. -/
theorem around (h : Congruent R) (p : Program (E.withContext C)) {r r' : Routine (E.withContext C)}
    (inside : InContext R r r') : InContext R (p.around r) (p.around r') := by
  intro c k k' rest
  induction p generalizing c k k' with
  | done result => exact rest _ c
  | perform op f ih =>
    match op with
    | .inl op => exact h.perform op fun reply => ih reply c k k' rest
    | .inr .read => exact ih c c k k' rest
    | .inr (.write context) => exact ih () context k k' rest
  | clock f ih => exact h.clock fun now => ih now c k k' rest
  | sleep d f ih => exact h.sleep d fun wake => ih wake c k k' rest
  | race part limit? f ihp ih =>
    exact h.race limit? (ihp c _ _ fun o _ => h.done o) fun finish => ih finish c k k' rest
  | acquire f ih => exact h.acquire fun wake => ih wake c k k' rest
  | release next ih => exact h.release (ih c k k' rest)
  | rest f ih =>
    simp only [Program.around, Routine.inContext_andThen]
    exact inside c _ _ fun o c' => ih o c' k k' rest
  | discard next ih => exact ih c k k' rest

/-- A routine is related to itself: it is a program that does not wait for the rest of the chain. -/
theorem self (h : Congruent R) (r : Routine (E.withContext C)) : InContext R r r := by
  have inside : InContext R (.ret .null : Routine (E.withContext C)) (.ret .null) :=
    fun c _ _ rest => rest _ c
  have related := h.around (.ofRoutine r) inside
  rwa [Program.around_ofRoutine] at related

/-- What is related inside, a chain of programs relates. -/
theorem asTask_foldr (h : Congruent R)
    {behaviour : M → Routine (E.withContext C) → Routine (E.withContext C)} {xs : List M}
    (programs : ∀ x ∈ xs, Programmed (behaviour x)) {r r' : Routine (E.withContext C)}
    (inside : InContext R r r') (c : C) :
    R ((xs.foldr behaviour r).asTask c) ((xs.foldr behaviour r').asTask c) :=
  Programmed.foldr programs (fun p _ _ => h.around p) inside c _ _ fun o _ => h.done o

end Congruent

end GraphClient
