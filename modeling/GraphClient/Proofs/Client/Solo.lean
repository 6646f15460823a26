import GraphClient.Proofs.Client.Calls
import GraphClient.Proofs.Client.World

/-!
# A run by itself

What a run does that reads and changes only its own request depends on nothing but the client it
started in and the answers it is given.

* `Share`: what a run has of its own. `Routine.solo` runs a routine on it, without other runs, a
  clock or a pool.
* `Routine.Own`: a routine changes nothing of the client, and what it reads of the clock and of the
  pool makes no difference to its calls and its outcome. `Own.andThen` composes such routines.
* `OwnRequest`: middleware that keeps the rest of the chain such a routine.
* `handle_share`: an operation of such a routine in the world is the one on its share.
-/

namespace GraphClient

variable {M : Type}

/-- What a run has of its own: its request, its calls, and the number of answers it has received. -/
structure Share where
  request : Request
  calls : List Call
  taken : Nat

/-- What an operation of a run does to its share, in a client as it is in a world, when the endpoint
gives the run the given answers. -/
def Share.handle (client : World M) (answers : Nat → Exchange) (op : Effect M) (s : Share) :
    op.Reply × Share :=
  match op with
  | .request => (s.request, s)
  | .edit f => ((), { s with request := f s.request })
  | .record call => ((), { s with calls := s.calls ++ [call] })
  | .receive => (answers s.taken, { s with taken := s.taken + 1 })
  | op => ((client.handle 0 op).1, s)

namespace Effect

/-- The operation leaves alone what the runs of a client share, but for the pool. -/
def IsOwn : Effect M → Prop
  | .register _ | .updateHeaders _ => False
  | _ => True

/-- The operation reads what all runs find the same. -/
def ReadsClient : Effect M → Prop
  | .defaults | .registry | .transport | .settings | .sessionSource | .closeDelay => True
  | _ => False

end Effect

namespace Routine

section

variable (client : World M)

/-- Runs a routine by itself, at time zero. -/
def solo (answers : Nat → Exchange) : Flow M → Share → Outcome × Share
  | .done o, s => (o, s)
  | .perform op k, s =>
    solo answers (k (Share.handle client answers op s).1) (Share.handle client answers op s).2
  | .clock k, s => solo answers (k 0) s
  | .sleep _ k, s => solo answers (k .resumed) s
  | .race _ _ k, s => solo answers (k .cancelled) s
  | .acquire k, s => solo answers (k .resumed) s
  | .release next, s => solo answers next s

/-- The routine touches nothing that runs share but the pool and the lock, which it holds or not and
gives back. What it reads of the clock and of the pool makes no difference. -/
inductive Own : Bool → Flow M → Prop
  | done (o) : Own false (.done o)
  | perform {held op k} : Effect.IsOwn op → op ≠ .pool →
      (∀ reply, (Effect.ReadsClient op → reply = (client.handle 0 op).1) → Own held (k reply)) →
      Own held (.perform op k)
  | pool {held} {k : Pool → Flow M} : (∀ p, Own held (k p)) →
      (∀ p p' answers, solo client answers (k p) = solo client answers (k p')) →
      Own held (.perform Effect.pool k)
  | clock {held k} : (∀ now, Own held (k now)) →
      (∀ now now' answers, solo client answers (k now) = solo client answers (k now')) →
      Own held (.clock k)
  | sleep {held d k} : Own held (k .resumed) → Own held (k .cancelled) → Own held (.sleep d k)
  | acquire {k} : Own true (k .resumed) → Own false (k .cancelled) → Own false (.acquire k)
  | release {next} : Own false next → Own true (.release next)

end

variable {client : World M} {answers : Nat → Exchange} {held : Bool} {r : Flow M} {s : Share}

theorem solo_andThen (r : Flow M) (f : Outcome → Flow M) (s : Share) :
    solo client answers (r.andThen f) s =
      solo client answers (f (solo client answers r s).1) (solo client answers r s).2 := by
  induction r generalizing s with
  | done o => rfl
  | perform op k ih => exact ih _ _
  | clock k ih => exact ih _ s
  | sleep d k ih => exact ih _ s
  | race part limit? k _ ih => exact ih _ s
  | acquire k ih => exact ih _ s
  | release next ih => exact ih s

/-- Calls are only added. -/
theorem calls_prefix_solo (r : Flow M) (s : Share) :
    s.calls <+: (solo client answers r s).2.calls := by
  induction r generalizing s with
  | done o => exact List.prefix_rfl
  | perform op k ih =>
    refine List.IsPrefix.trans ?_ (ih _ _)
    cases op with
    | record call => exact List.prefix_append s.calls [call]
    | _ => exact List.prefix_rfl
  | clock k ih => exact ih _ s
  | sleep d k ih => exact ih _ s
  | race part limit? k _ ih => exact ih _ s
  | acquire k ih => exact ih _ s
  | release next ih => exact ih s

theorem Own.andThen {f : Outcome → Flow M} (h : Own client held r)
    (rest : ∀ o, Own client false (f o)) :
    Own client held (r.andThen f) := by
  have alike {r r' : Flow M} {answers : Nat → Exchange}
      (same : solo client answers r = solo client answers r') :
      solo client answers (r.andThen f) = solo client answers (r'.andThen f) := by
    funext s
    rw [solo_andThen, solo_andThen, same]
  induction h with
  | done o => exact rest o
  | perform own notPool _ ih => exact .perform own notPool ih
  | pool _ same ih => exact .pool ih fun p p' answers => alike (same p p' answers)
  | clock _ same ih => exact .clock ih fun now now' answers => alike (same now now' answers)
  | sleep _ _ ih ih' => exact .sleep ih ih'
  | acquire _ _ ih ih' => exact .acquire ih ih'
  | release _ ih => exact .release ih

theorem Own.onValue {f : Value → Flow M} (h : Own client held r) (rest : ∀ v, Own client false (f v)) :
    Own client held (r.onValue f) :=
  h.andThen fun o => by
    cases o with
    | ok v => exact rest v
    | error e => exact .done _

end Routine

/-- Middleware that reads and changes only the request of its own run: around a rest of the chain
that does so, it does so too. -/
def OwnRequest (behaviour : M → Flow M → Flow M) (m : M) : Prop :=
  ∀ (client : World M) (next : Flow M),
    Routine.Own client false next → Routine.Own client false (behaviour m next)

/-! ## Shares in the world -/

/-- What runs that touch only what is their own leave as it is. -/
def World.fixed (w : World M) : World M :=
  { w with trace := [], logs := [], calls := [], answers := [], pool := .empty, requests := [] }

theorem World.fixed_handle (w : World M) (t : Nat) {op : Effect M} (own : op.IsOwn) :
    (w.handle t op).2.fixed = w.fixed := by
  cases op <;> first | exact own.elim | rfl

/-- What all runs find the same is read the same. -/
theorem World.handle_readsClient {w client : World M} (same : w.fixed = client.fixed) (t t' : Nat)
    {op : Effect M} (reads : op.ReadsClient) : (w.handle t op).1 = (client.handle t' op).1 := by
  cases op with
  | defaults => exact Prod.ext (congrArg World.url same :) (congrArg World.headers same :)
  | registry => exact (congrArg World.registry same :)
  | transport => exact Prod.ext (congrArg World.transport same :) (congrArg World.ownsTransport same :)
  | settings => exact (congrArg World.settings same :)
  | sessionSource => exact (congrArg World.sessions same :)
  | closeDelay => exact (congrArg World.closeDelay? same :)
  | _ => exact reads.elim

/-- The share of a task, as the world and the notes have it. -/
def share (t : Nat) (w : World M × ClientNotes M) : Share :=
  ⟨w.1.requestOf t, w.2.callsOf t, (w.2.exchangesOf t).length⟩

/-- The answers begin with those that a task has received. -/
def Supplies (answers : Nat → Exchange) (received : List Exchange) : Prop :=
  ∀ i ex, received[i]? = some ex → answers i = ex

theorem Supplies.of_append {answers : Nat → Exchange} {received more : List Exchange}
    (h : Supplies answers (received ++ more)) : Supplies answers received := fun i ex found =>
  h i ex ((List.getElem?_append_left (List.getElem?_eq_some_iff.1 found).1).trans found)

variable {client : World M} {answers : Nat → Exchange} {op : Effect M} {w : World M × ClientNotes M}

/-- An operation of a task in the world is the one on its share. -/
theorem handle_share {t : Nat} (own : op.IsOwn) (notPool : op ≠ .pool)
    (same : w.1.fixed = client.fixed)
    (given : Supplies answers (ClientNotes.exchangesOf t (Loop.noting World.handle t op w).2.2)) :
    Share.handle client answers op (share t w) =
      ((Loop.noting World.handle t op w).1, share t (Loop.noting World.handle t op w).2) := by
  have kept {note : Note (effects M)} (call : note.call? = none) (exchange : note.exchange? = none)
      {w' : World M} (request : w'.requestOf t = w.1.requestOf t) :
      share t w = share t (w', w.2 ++ [note]) := by
    simp [share, request, call, exchange]
  have found (reads : op.ReadsClient) : (client.handle 0 op).1 = (w.1.handle t op).1 :=
    (World.handle_readsClient same t 0 reads).symm
  cases op with
  | pool => exact absurd rfl notPool
  | register _ => exact own.elim
  | updateHeaders _ => exact own.elim
  | defaults | registry | transport | settings | sessionSource | closeDelay =>
    exact Prod.ext (found trivial) (kept rfl rfl rfl)
  | edit f =>
    simp [Share.handle, Loop.noting, World.handle, share, World.requestOf_setRequest_self, Note.call?,
      Note.exchange?]
  | record call =>
    simp only [Share.handle, Loop.noting, World.handle, share, ClientNotes.callsOf_concat,
      ClientNotes.exchangesOf_concat, Note.call?, Note.exchange?, Option.toList, ofScope_self,
      ofScope_nil, List.append_nil]
    rfl
  | receive =>
    have last := given (w.2.exchangesOf t).length (World.nextAnswer w.1.answers).1 (by
      simp [Loop.noting, World.handle, Note.exchange?])
    simp only [Share.handle, Loop.noting, World.handle, share, ClientNotes.callsOf_concat,
      ClientNotes.exchangesOf_concat, Note.call?, Note.exchange?, Option.toList, ofScope_self,
      ofScope_nil, List.append_nil, List.length_append, List.length_singleton]
    exact Prod.ext last rfl
  | _ => exact Prod.ext rfl (kept rfl rfl rfl)

/-- An operation of a task leaves the shares of the others alone. -/
theorem share_of_ne {t t' : Nat} (ne : t' ≠ t) (op : Effect M) (w : World M × ClientNotes M) :
    share t' (Loop.noting World.handle t op w).2 = share t' w ∧
      ClientNotes.exchangesOf t' (Loop.noting World.handle t op w).2.2 = w.2.exchangesOf t' := by
  have noted : t' ≠ (Note.mk (E := effects M) t op (w.1.handle t op).1).scope := ne
  refine ⟨?_, ClientNotes.exchangesOf_concat_of_ne noted w.2⟩
  simp only [share, Loop.noting, w.1.requestOf_handle_of_ne ne,
    ClientNotes.callsOf_concat_of_ne noted, ClientNotes.exchangesOf_concat_of_ne noted]

end GraphClient
