import GraphClient.Flow.Routine

/-!
# Chains of middleware

A chain is a fixed list of middleware and a terminal step. Each middleware is given the routine of
the rest of the chain, which it may run any number of times or not at all.

* `DispatchChain.call` runs the chain from a position on.
* `call_eq_foldr` says that this is the right-nested composition of the middleware from there on.

Every position is a coroutine, also where its middleware is a plain function: what is raised leaves
the position as `Raise.toFailure` says.
-/

namespace GraphClient

/-- Middleware in order, what each of them does with the rest of the chain, and the last step. -/
structure DispatchChain (E : Effects) (M : Type) where
  middleware : List M
  behaviour : M → Routine E → Routine E
  terminal : Routine E

namespace DispatchChain

variable {E : Effects} {M : Type}

/-- The chain from a position on. -/
def call (chain : DispatchChain E M) (index : Nat) : Routine E :=
  if h : index < chain.middleware.length then
    chain.behaviour chain.middleware[index] (chain.call (index + 1))
  else chain.terminal
  termination_by chain.middleware.length - index

/-- The whole chain. -/
def dispatch (chain : DispatchChain E M) : Routine E := chain.call 0

def size (chain : DispatchChain E M) : Nat := chain.middleware.length

/-- The chain from a position on is the right-nested composition of its middleware. -/
theorem call_eq_foldr (chain : DispatchChain E M) (index : Nat) :
    chain.call index =
      (chain.middleware.drop index).foldr chain.behaviour chain.terminal := by
  by_cases h : index < chain.middleware.length
  · rw [call, dif_pos h, call_eq_foldr chain (index + 1), List.drop_eq_getElem_cons h,
      List.foldr_cons]
  · rw [call, dif_neg h, List.drop_eq_nil_of_le (by omega), List.foldr_nil]
  termination_by chain.middleware.length - index

end DispatchChain

end GraphClient
