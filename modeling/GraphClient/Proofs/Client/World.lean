import Mathlib.Data.List.Infix
import GraphClient.Client.World
import GraphClient.Proofs.Pairs

/-!
# What an operation leaves alone

* `World.registry_prefix_handle`: the registry only grows at its end.
* `World.requestOf_handle_of_ne`: an operation reaches no request but that of its own scope.
* `World.requestOf_handle`: that one is changed by an edit, and by nothing else.
-/

namespace GraphClient

namespace World

variable {M : Type}

@[simp] theorem requestOf_setRequest_self (w : World M) (scope : Nat) (r : Request) :
    (w.setRequest scope r).requestOf scope = r := by
  simp only [requestOf, setRequest, Pairs.get?_set_self, Option.getD_some]

theorem requestOf_setRequest_of_ne (w : World M) {scope scope' : Nat} (ne : scope ≠ scope')
    (r : Request) : (w.setRequest scope' r).requestOf scope = w.requestOf scope := by
  simp only [requestOf, setRequest, Pairs.get?_set_of_ne ne]

theorem registry_prefix_handle (w : World M) (scope : Nat) (op : Effect M) :
    w.registry <+: (w.handle scope op).2.registry := by
  cases op with
  | register ms => exact List.prefix_append w.registry ms
  | _ => exact List.prefix_rfl

theorem requestOf_handle_of_ne (w : World M) {scope scope' : Nat} (ne : scope ≠ scope')
    (op : Effect M) : (w.handle scope' op).2.requestOf scope = w.requestOf scope := by
  cases op with
  | edit f => exact w.requestOf_setRequest_of_ne ne _
  | _ => rfl

/-- An operation changes the request of its scope by an edit only. -/
theorem requestOf_handle (w : World M) (scope : Nat) (op : Effect M) :
    (w.handle scope op).2.requestOf scope = w.requestOf scope ∨
      ∃ f, op = .edit f ∧ (w.handle scope op).2.requestOf scope = f (w.requestOf scope) := by
  cases op with
  | edit f => exact .inr ⟨f, rfl, w.requestOf_setRequest_self scope _⟩
  | _ => exact .inl rfl

end World

end GraphClient
