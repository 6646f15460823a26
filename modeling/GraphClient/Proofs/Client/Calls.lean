import GraphClient.Client.World
import GraphClient.Proofs.Flow.Notes

/-!
# Calls and answers among the notes

From the notes of a client's history: which task handed which call to the endpoint (`calls`), and
which task was given which answer (`exchanges`), in order. `callsOf`, `exchangesOf` and `editsOf` are
those of a single task.
-/

namespace GraphClient

variable {M : Type}

/-- The notes of the operations on a client. -/
abbrev ClientNotes (M : Type) := List (Note (effects M))

namespace Note

/-- A call that was handed to the endpoint, and the scope of the task that did it. -/
def call? : Note (effects M) → Option (Nat × Call)
  | ⟨scope, .record call, _⟩ => some (scope, call)
  | _ => none

/-- An answer that the endpoint gave, and the scope of the task that received it. -/
def exchange? : Note (effects M) → Option (Nat × Exchange)
  | ⟨scope, .receive, exchange⟩ => some (scope, exchange)
  | _ => none

/-- A change of a request, and the scope of the task that did it. -/
def edit? : Note (effects M) → Option (Nat × (Request → Request))
  | ⟨scope, .edit f, _⟩ => some (scope, f)
  | _ => none

end Note

/-- What belongs to a scope. -/
def ofScope {α : Type} (t : Nat) (l : List (Nat × α)) : List α :=
  (l.filter fun entry => entry.1 = t).map Prod.snd

theorem ofScope_append {α : Type} (t : Nat) (l l' : List (Nat × α)) :
    ofScope t (l ++ l') = ofScope t l ++ ofScope t l' := by
  rw [ofScope, List.filter_append, List.map_append]
  rfl

@[simp] theorem ofScope_nil {α : Type} (t : Nat) : ofScope t ([] : List (Nat × α)) = [] := rfl

@[simp] theorem ofScope_self {α : Type} (t : Nat) (a : α) : ofScope t [(t, a)] = [a] := by
  simp only [ofScope, List.filter_cons, decide_true, if_true, List.filter_nil, List.map_cons,
    List.map_nil]

theorem ofScope_of_ne {α : Type} {t t' : Nat} (ne : t' ≠ t) (a : α) : ofScope t' [(t, a)] = [] := by
  simp only [ofScope, List.filter_cons, decide_eq_true_iff, if_neg ne.symm, List.filter_nil,
    List.map_nil]

namespace ClientNotes

/-- The calls that were handed to the endpoint, in order. -/
def calls (notes : ClientNotes M) : List (Nat × Call) := notes.filterMap Note.call?

/-- The answers that the endpoint gave, in order. -/
def exchanges (notes : ClientNotes M) : List (Nat × Exchange) := notes.filterMap Note.exchange?

/-- The calls of a task, in order. -/
def callsOf (t : Nat) (notes : ClientNotes M) : List Call := ofScope t notes.calls

/-- The answers that a task received, in order. -/
def exchangesOf (t : Nat) (notes : ClientNotes M) : List Exchange := ofScope t notes.exchanges

/-- The changes that a task made to its request, in order. -/
def editsOf (t : Nat) (notes : ClientNotes M) : List (Request → Request) :=
  ofScope t (notes.filterMap Note.edit?)

@[simp] theorem calls_concat (notes : ClientNotes M) (note : Note (effects M)) :
    calls (notes ++ [note]) = calls notes ++ note.call?.toList :=
  filterMap_concat Note.call? notes note

@[simp] theorem exchanges_concat (notes : ClientNotes M) (note : Note (effects M)) :
    exchanges (notes ++ [note]) = exchanges notes ++ note.exchange?.toList :=
  filterMap_concat Note.exchange? notes note

@[simp] theorem callsOf_concat (t : Nat) (notes : ClientNotes M) (note : Note (effects M)) :
    callsOf t (notes ++ [note]) = callsOf t notes ++ ofScope t note.call?.toList := by
  rw [callsOf, calls_concat, ofScope_append]
  rfl

@[simp] theorem exchangesOf_concat (t : Nat) (notes : ClientNotes M) (note : Note (effects M)) :
    exchangesOf t (notes ++ [note]) = exchangesOf t notes ++ ofScope t note.exchange?.toList := by
  rw [exchangesOf, exchanges_concat, ofScope_append]
  rfl

@[simp] theorem editsOf_concat (t : Nat) (notes : ClientNotes M) (note : Note (effects M)) :
    editsOf t (notes ++ [note]) = editsOf t notes ++ ofScope t note.edit?.toList := by
  rw [editsOf, filterMap_concat, ofScope_append]
  rfl

/-! ## Other tasks -/

section

variable {t : Nat} {note : Note (effects M)} (ne : t ≠ note.scope) (notes : ClientNotes M)

include ne

theorem callsOf_concat_of_ne : callsOf t (notes ++ [note]) = callsOf t notes := by
  rw [callsOf_concat]
  obtain ⟨scope, op, reply⟩ := note
  cases op with
  | record call => exact (congrArg _ (ofScope_of_ne ne call)).trans (List.append_nil _)
  | _ => exact List.append_nil _

theorem exchangesOf_concat_of_ne : exchangesOf t (notes ++ [note]) = exchangesOf t notes := by
  rw [exchangesOf_concat]
  obtain ⟨scope, op, reply⟩ := note
  cases op with
  | receive => exact (congrArg _ (ofScope_of_ne ne reply)).trans (List.append_nil _)
  | _ => exact List.append_nil _

theorem editsOf_concat_of_ne : editsOf t (notes ++ [note]) = editsOf t notes := by
  rw [editsOf_concat]
  obtain ⟨scope, op, reply⟩ := note
  cases op with
  | edit f => exact (congrArg _ (ofScope_of_ne ne f)).trans (List.append_nil _)
  | _ => exact List.append_nil _

end

/-- A task that did nothing left no notes. -/
theorem of_unused {t : Nat} {notes : ClientNotes M} (unused : ∀ note ∈ notes, t ≠ note.scope) :
    callsOf t notes = [] ∧ exchangesOf t notes = [] ∧ editsOf t notes = [] := by
  induction notes using List.reverseRecOn with
  | nil => exact ⟨rfl, rfl, rfl⟩
  | append_singleton notes note ih =>
    have ne := unused note (List.mem_append_right notes (List.mem_singleton_self note))
    rw [callsOf_concat_of_ne ne, exchangesOf_concat_of_ne ne, editsOf_concat_of_ne ne]
    exact ih fun note mem => unused note (List.mem_append_left _ mem)

end ClientNotes

end GraphClient
