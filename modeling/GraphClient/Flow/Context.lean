import GraphClient.Flow.Routine

/-!
# Contexts

A task has a context, the values of its context variables. What it runs may read the context and
replace it. A part of a race is a task of its own, which starts with a copy of the context: what it
makes of the copy is gone when it ends.

* `Effects.withContext`: effects, and operations on a context besides.
* `Routine.inContext`: what a routine does in a context, and how it goes on in the one it leaves.
  `Routine.asTask`: what a task does that starts in a context.
* `Routine.withContext`: a routine that has no use for the context.
-/

namespace GraphClient

/-- The operations on the context of a task. -/
inductive ContextOp (C : Type) where
  | read
  | write (context : C)

/-- What they answer. -/
def ContextOp.Reply {C : Type} : ContextOp C → Type
  | read => C
  | write _ => Unit

/-- The effects, and the operations on a context besides. -/
def Effects.withContext (E : Effects) (C : Type) : Effects :=
  ⟨E.Op ⊕ ContextOp C, Sum.elim E.Reply ContextOp.Reply⟩

namespace Routine

variable {E : Effects} {C : Type}

/-- Reads the context. -/
def readContext (k : C → Routine (E.withContext C)) : Routine (E.withContext C) :=
  .perform (E := E.withContext C) (.inr .read) k

/-- Replaces the context. -/
def writeContext (context : C) (next : Routine (E.withContext C)) : Routine (E.withContext C) :=
  .perform (E := E.withContext C) (.inr (.write context)) fun _ => next

/-- What the routine does in a context, and how it goes on with its outcome in the context that it
leaves. A part of a race leaves its context to nobody. -/
def inContext : Routine (E.withContext C) → C → (Outcome → C → Routine E) → Routine E
  | done outcome, c, k => k outcome c
  | perform (.inl op) f, c, k => .perform op fun reply => (f reply).inContext c k
  | perform (.inr .read) f, c, k => (f c).inContext c k
  | perform (.inr (.write context)) f, _, k => (f ()).inContext context k
  | clock f, c, k => .clock fun now => (f now).inContext c k
  | sleep d f, c, k => .sleep d fun wake => (f wake).inContext c k
  | race part limit? f, c, k =>
    .race (part.inContext c fun outcome _ => .done outcome) limit? fun finish =>
      (f finish).inContext c k
  | acquire f, c, k => .acquire fun wake => (f wake).inContext c k
  | release next, c, k => .release (next.inContext c k)

/-- What a task does that starts in a context. -/
def asTask (r : Routine (E.withContext C)) (c : C) : Routine E :=
  r.inContext c fun outcome _ => .done outcome

/-- The routine, where there are contexts. -/
def withContext (C : Type) : Routine E → Routine (E.withContext C)
  | done outcome => .done outcome
  | perform op f => .perform (E := E.withContext C) (.inl op) fun reply => (f reply).withContext C
  | clock f => .clock fun now => (f now).withContext C
  | sleep d f => .sleep d fun wake => (f wake).withContext C
  | race part limit? f =>
    .race (part.withContext C) limit? fun finish => (f finish).withContext C
  | acquire f => .acquire fun wake => (f wake).withContext C
  | release next => .release (next.withContext C)

/-- A routine goes on in the context that the first part of it leaves. -/
theorem inContext_andThen (r : Routine (E.withContext C))
    (f : Outcome → Routine (E.withContext C)) (c : C) (k : Outcome → C → Routine E) :
    (r.andThen f).inContext c k = r.inContext c fun outcome c' => (f outcome).inContext c' k := by
  induction r generalizing c k with
  | done outcome => rfl
  | perform op g ih =>
    match op with
    | .inl op => exact congrArg (Routine.perform op) (funext fun reply => ih reply c k)
    | .inr .read => exact ih _ c k
    | .inr (.write context) => exact ih _ context k
  | clock g ih => simp only [andThen, inContext, ih]
  | sleep d g ih => simp only [andThen, inContext, ih]
  | race part limit? g _ ih => simp only [andThen, inContext, ih]
  | acquire g ih => simp only [andThen, inContext, ih]
  | release next ih => simp only [andThen, inContext, ih]

/-- A routine that has no use for the context leaves it as it is. -/
theorem inContext_withContext (r : Routine E) (c : C) (k : Outcome → C → Routine E) :
    (r.withContext C).inContext c k = r.andThen fun outcome => k outcome c := by
  induction r generalizing k with
  | done outcome => rfl
  | perform op g ih => simp only [withContext, inContext, andThen, ih]
  | clock g ih => simp only [withContext, inContext, andThen, ih]
  | sleep d g ih => simp only [withContext, inContext, andThen, ih]
  | race part limit? g ihp ih => simp only [withContext, inContext, andThen, ihp, ih, andThen_done]
  | acquire g ih => simp only [withContext, inContext, andThen, ih]
  | release next ih => simp only [withContext, inContext, andThen, ih]

/-- Such a routine does as a task what it does where there are no contexts. -/
theorem asTask_withContext (r : Routine E) (c : C) : (r.withContext C).asTask c = r :=
  (inContext_withContext r c _).trans r.andThen_done

end Routine

end GraphClient
