import Mathlib.Data.List.Basic
import GraphClient.Flow.Loop
import GraphClient.Middleware.Chain

/-!
# Chains are composed of chains

The chain of `xs ++ ys` is the chain of `xs` whose last step is the whole chain of `ys`.

* `DispatchChain.call_extend_add`: past the first list the long chain runs like the chain of the
  second one.
* `DispatchChain.call_extend_of_le`: up to there it runs like the chain of the first one, with
  the chain of the second one as its last step.
* `DispatchChain.dispatch_append`: both chains are one routine, so no loop can tell them apart.
-/

namespace GraphClient.DispatchChain

variable {E : Effects} {M : Type}

/-- The chain whose last step is another chain of middleware of the same kind. -/
def before (xs : List M) (rest : DispatchChain E M) : DispatchChain E M :=
  ⟨xs, rest.behaviour, rest.dispatch⟩

/-- The chain with more middleware in front. -/
def extend (xs : List M) (rest : DispatchChain E M) : DispatchChain E M :=
  ⟨xs ++ rest.middleware, rest.behaviour, rest.terminal⟩

theorem call_of_lt {chain : DispatchChain E M} {i : Nat} (h : i < chain.middleware.length) :
    chain.call i = chain.behaviour chain.middleware[i] (chain.call (i + 1)) := by
  rw [call, dif_pos h]

/-- Past its last middleware a chain is its last step. -/
theorem call_of_length_le {chain : DispatchChain E M} {i : Nat}
    (h : chain.middleware.length ≤ i) : chain.call i = chain.terminal := by
  rw [call, dif_neg (by omega)]

theorem call_extend_add (xs : List M) (rest : DispatchChain E M) (j : Nat) :
    (extend xs rest).call (xs.length + j) = rest.call j := by
  by_cases h : j < rest.middleware.length
  · have hlt : xs.length + j < (extend xs rest).middleware.length := by
      simp only [extend, List.length_append]
      omega
    have hget : (extend xs rest).middleware[xs.length + j] = rest.middleware[j] := by
      simp only [extend, List.getElem_append_right (Nat.le_add_right _ _),
        Nat.add_sub_cancel_left]
    rw [call_of_lt hlt, call_of_lt h, hget, Nat.add_assoc, call_extend_add xs rest (j + 1)]
    rfl
  · have hle : (extend xs rest).middleware.length ≤ xs.length + j := by
      simp only [extend, List.length_append]
      omega
    rw [call_of_length_le hle, call_of_length_le (by omega)]
    rfl
  termination_by rest.middleware.length - j

theorem call_extend_of_le (xs : List M) (rest : DispatchChain E M) {i : Nat}
    (hi : i ≤ xs.length) : (extend xs rest).call i = (before xs rest).call i := by
  by_cases h : i < xs.length
  · have hlt : i < (extend xs rest).middleware.length := by
      simp only [extend, List.length_append]
      omega
    have hget : (extend xs rest).middleware[i] = xs[i] := by
      simp only [extend, List.getElem_append_left h]
    have hcall : (before xs rest).call i =
        rest.behaviour xs[i] ((before xs rest).call (i + 1)) := call_of_lt h
    rw [call_of_lt hlt, hcall, hget, call_extend_of_le xs rest h]
    rfl
  · -- The second chain begins here.
    obtain rfl : i = xs.length := by omega
    rw [← Nat.add_zero xs.length, call_extend_add, Nat.add_zero]
    have hend : (before xs rest).call xs.length = rest.dispatch := call_of_length_le (Nat.le_refl _)
    exact hend.symm
  termination_by xs.length - i

/-- What the middleware of a chain do is all that counts. -/
theorem dispatch_eq_foldr {behaviour behaviour' : M → Routine E → Routine E} {ms : List M}
    {terminal : Routine E} (same : ∀ m ∈ ms, behaviour m = behaviour' m) :
    (DispatchChain.mk ms behaviour terminal).dispatch = ms.foldr behaviour' terminal :=
  (call_eq_foldr _ 0).trans
    (List.foldr_ext _ _ terminal fun m mem r => congrFun (same m mem) r)

/-- A chain of two lists of middleware is the chain of the first one whose last step is the chain
of the second one: as a routine, and so in its outcome and in all it does to the loop and the
world, whatever else runs there. From each position on, a chain is the right-nested composition
of the middleware from there on, and a chain of no middleware is its last step. -/
theorem dispatch_append (behaviour : M → Routine E → Routine E) (terminal : Routine E)
    (xs ys : List M) :
    let whole : DispatchChain E M := ⟨xs ++ ys, behaviour, terminal⟩
    let parts : DispatchChain E M :=
      ⟨xs, behaviour, (DispatchChain.mk ys behaviour terminal).dispatch⟩
    whole.dispatch = parts.dispatch ∧
    (∀ {W : Type} (handler : Handler E W) (scope : Nat) (l : Loop E W),
      l.run handler whole.dispatch scope = l.run handler parts.dispatch scope) ∧
    (∀ i, whole.call i = ((xs ++ ys).drop i).foldr behaviour terminal) ∧
    (DispatchChain.mk [] behaviour terminal).dispatch = terminal := by
  intro whole parts
  have split : whole.dispatch = parts.dispatch :=
    call_extend_of_le xs ⟨ys, behaviour, terminal⟩ (Nat.zero_le _)
  refine ⟨split, fun handler scope l => ?_, fun i => ?_, ?_⟩
  · rw [split]
  · exact whole.call_eq_foldr i
  · exact call_of_length_le (Nat.le_refl 0)

end GraphClient.DispatchChain
