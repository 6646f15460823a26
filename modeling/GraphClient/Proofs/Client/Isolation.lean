import GraphClient.Proofs.Client.Alone
import GraphClient.Proofs.Client.OwnRequests

/-!
# Runs side by side are runs alone

Any number of runs share a client, suspended and going on in any order.

* `Isolated`: what is left of each run goes on from its share as the whole run does by itself.
  An operation of one run keeps this (`Isolated.step`), and so does a run from wait to wait
  (`Isolated.reaches`, `kept_isolated`).
* `Client.run_as_alone`: each run hands over the calls and ends with the outcome that it has when it
  is alone with the answers it received.
-/

namespace GraphClient

open Routine (Own solo)

variable {A M : Type}

/-- What is left of a run that waits, if its wait ends with the awaited event. However it ends, the
run keeps to what is its own. -/
inductive Wait.Left (client : World M) : Wait (effects M) → Flow M → Prop
  | start {r} : Own client false r → Left client (.start r) r
  | sleep {held k} : Own client held (k .resumed) → Own client held (k .cancelled) →
      Left client (.sleep k) (k .resumed)
  | lock {k} : Own client true (k .resumed) → Own client false (k .cancelled) →
      Left client (.lock k) (k .resumed)
  | ended (o) : Left client (.over o) (.done o)

/-- A run goes on with something of its own, and with what was left of it unless it is cancelled. -/
theorem Wait.Left.goes {client : World M} {wait : Wait (effects M)} {r r' : Flow M} {signal : Wake}
    (left : wait.Left client r) (goes : wait.Goes signal r') :
    (∃ held, Own client held r') ∧ (signal = .resumed → r' = r) := by
  cases left with
  | start own =>
    cases goes with
    | start => exact ⟨⟨_, own⟩, fun _ => rfl⟩
    | unbegun => exact ⟨⟨_, .done _⟩, nofun⟩
  | sleep own cancelled | lock own cancelled =>
    cases goes
    cases signal with
    | resumed => exact ⟨⟨_, own⟩, fun _ => rfl⟩
    | cancelled => exact ⟨⟨_, cancelled⟩, nofun⟩
  | ended o => cases goes

/-- The runs of a client, and what is left of each: unless the run was asked to stop, this goes on
from its share, with any answers that begin with those it has received, as the whole run does from
the beginning. -/
structure Isolated (client : World M) (run : A → Flow M) (asked : List Nat) (started : List A)
    (rest : List (Flow M)) (w : World M × ClientNotes M) : Prop where
  fixed : w.1.fixed = client.fixed
  length : rest.length = started.length
  scopes : ∀ note ∈ w.2, note.scope < rest.length
  edits : ∀ t : Nat, w.1.requestOf t = (w.2.editsOf t).foldl (fun r f => f r) (client.requestOf t)
  alone : ∀ (t : Nat) (a : A) (r : Flow M), t ∉ asked → started[t]? = some a → rest[t]? = some r →
    ∀ answers, Supplies answers (w.2.exchangesOf t) →
      solo client answers r (share t w) = solo client answers (run a) ⟨client.requestOf t, [], 0⟩

namespace Isolated

variable {client : World M} {run : A → Flow M} {asked : List Nat} {started : List A}
  {rest : List (Flow M)} {w : World M × ClientNotes M} {t : Nat} {r : Flow M} {held : Bool}

/-- The edits of a task are what its request comes from. -/
theorem edits_noting (edits : ∀ t, w.1.requestOf t =
      (w.2.editsOf t).foldl (fun r f => f r) (client.requestOf t)) (op : Effect M) (t' : Nat) :
    (Loop.noting World.handle t op w).2.1.requestOf t' =
      (ClientNotes.editsOf t' (Loop.noting World.handle t op w).2.2).foldl (fun r f => f r)
        (client.requestOf t') := by
  rcases eq_or_ne t' t with rfl | ne
  · cases op with
    | edit f =>
      simp [Loop.noting, World.handle, World.requestOf_setRequest_self, Note.edit?, edits]
    | _ =>
      refine (edits t').trans (congrArg (List.foldl _ _) ?_)
      exact ((ClientNotes.editsOf_concat t' w.2 _).trans (List.append_nil _)).symm
  · have noted : t' ≠ (Note.mk (E := effects M) t op (w.1.handle t op).1).scope := ne
    refine (w.1.requestOf_handle_of_ne ne op).trans ((edits t').trans (congrArg (List.foldl _ _) ?_))
    exact (ClientNotes.editsOf_concat_of_ne noted w.2).symm

/-- A run does an operation. What it goes on with must be what it would have gone on with alone. -/
theorem step (h : Isolated client run asked started rest w) (mine : rest[t]? = some r)
    {op : Effect M} (ours : op.IsOwn) (r' : Flow M)
    (same : ∀ answers,
      Supplies answers (ClientNotes.exchangesOf t (Loop.noting World.handle t op w).2.2) →
        solo client answers r' (share t (Loop.noting World.handle t op w).2) =
          solo client answers r (share t w)) :
    Isolated client run asked started (rest.set t r') (Loop.noting World.handle t op w).2 where
  fixed := (w.1.fixed_handle t ours).trans h.fixed
  length := List.length_set.trans h.length
  scopes note mem := by
    rw [List.length_set]
    rcases List.mem_append.1 mem with old | new
    · exact h.scopes note old
    · rw [List.mem_singleton.1 new]
      exact (List.getElem?_eq_some_iff.1 mine).1
  edits := edits_noting h.edits op
  alone t' a r'' unasked began found answers supplies := by
    rcases getElem?_set_cases found with ⟨rfl, rfl⟩ | ⟨ne, old⟩
    · refine (same answers supplies).trans (h.alone t' a r unasked began mine answers ?_)
      exact Supplies.of_append (ClientNotes.exchangesOf_concat t' w.2 _ ▸ supplies)
    · obtain ⟨shares, exchanges⟩ := share_of_ne ne op w
      rw [shares]
      exact h.alone t' a r'' unasked began old answers (exchanges ▸ supplies)

/-- A run goes on without doing anything. -/
theorem replace (h : Isolated client run asked started rest w) (mine : rest[t]? = some r)
    (r' : Flow M) (same : t ∉ asked → ∀ answers, solo client answers r' = solo client answers r) :
    Isolated client run asked started (rest.set t r') w where
  fixed := h.fixed
  length := List.length_set.trans h.length
  scopes note mem := List.length_set.symm ▸ h.scopes note mem
  edits := h.edits
  alone t' a r'' unasked began found answers supplies := by
    rcases getElem?_set_cases found with ⟨rfl, rfl⟩ | ⟨-, old⟩
    · rw [same unasked]
      exact h.alone t' a r unasked began mine answers supplies
    · exact h.alone t' a r'' unasked began old answers supplies

/-- A task that has done nothing yet has a fresh share. -/
theorem share_of_unused (h : Isolated client run asked started rest w) :
    share rest.length w = ⟨client.requestOf rest.length, [], 0⟩ := by
  have unused : ∀ note ∈ w.2, rest.length ≠ note.scope := fun note mem => (h.scopes note mem).ne'
  obtain ⟨calls, exchanges, edits⟩ := ClientNotes.of_unused unused
  simp only [share, h.edits, calls, exchanges, edits, List.foldl_nil, List.length_nil]

/-- A run starts. -/
theorem start (h : Isolated client run asked started rest w) (a : A) :
    Isolated client run asked (started ++ [a]) (rest ++ [run a]) w where
  fixed := h.fixed
  length := by simp only [List.length_append, List.length_singleton, h.length]
  scopes note mem := by
    rw [List.length_append]
    exact Nat.lt_add_right _ (h.scopes note mem)
  edits := h.edits
  alone t a' r unasked began found answers supplies := by
    rcases getElem?_concat_cases found with old | ⟨rfl, rfl⟩
    · rw [List.getElem?_append_left (h.length ▸ (List.getElem?_eq_some_iff.1 old).1)] at began
      exact h.alone t a' r unasked began old answers supplies
    · rw [h.length, List.getElem?_concat_length] at began
      rw [h.share_of_unused, Option.some.inj began]

/-- A run goes on until it waits or ends. -/
theorem reaches {P : Wait (effects M) → World M × ClientNotes M → Prop} (own : Own client held r)
    (h : Isolated client run asked started rest w) (mine : rest[t]? = some r)
    (stops : ∀ wait r' w', wait.Left client r' →
      Isolated client run asked started (rest.set t r') w' → P wait w') :
    r.Reaches (Loop.noting World.handle) t P w := by
  -- What is left of the run is replaced again and again.
  have onwards {rest : List (Flow M)} {r r' : Flow M} (mine : rest[t]? = some r)
      (stops : ∀ wait r' w', wait.Left client r' →
        Isolated client run asked started (rest.set t r') w' → P wait w') :
      (rest.set t r')[t]? = some r' ∧ ∀ wait r'' w', wait.Left client r'' →
        Isolated client run asked started ((rest.set t r').set t r'') w' → P wait w' := by
    refine ⟨List.getElem?_set_self (List.getElem?_eq_some_iff.1 mine).1, fun wait r'' w' left h => ?_⟩
    rw [List.set_set] at h
    exact stops wait r'' w' left h
  induction own generalizing rest w with
  | done o => exact stops _ _ w (.ended o) (h.replace mine _ fun _ _ => rfl)
  | @perform held op k ours notPool later ih =>
    have reads (reads : op.ReadsClient) : (w.1.handle t op).1 = (client.handle 0 op).1 :=
      World.handle_readsClient h.fixed t 0 reads
    have stepped := h.step mine ours (k (w.1.handle t op).1) fun answers supplies => by
      rw [Routine.solo, handle_share ours notPool h.fixed supplies]
      rfl
    obtain ⟨mine, stops⟩ := onwards mine stops
    exact ih _ reads stepped mine stops
  | @pool held k later alike ih =>
    have same : share t (Loop.noting World.handle t Effect.pool w).2 = share t w := by
      simp [share, Loop.noting, World.handle, World.requestOf, Note.call?, Note.exchange?]
    have poolIsOwn : Effect.IsOwn (M := M) .pool := trivial
    have stepped := h.step mine poolIsOwn (k w.1.pool) fun answers _ => by
      rw [same, alike w.1.pool client.pool answers]
      rfl
    obtain ⟨mine, stops⟩ := onwards mine stops
    exact ih _ stepped mine stops
  | @clock held k later alike ih =>
    intro now
    have stepped := h.replace mine (k now) fun _ answers => alike now 0 answers
    obtain ⟨mine, stops⟩ := onwards mine stops
    exact ih now stepped mine stops
  | @sleep held d k later cancelled _ _ =>
    exact stops _ _ w (.sleep later cancelled) (h.replace mine _ fun _ _ => rfl)
  | @acquire k later cancelled ih _ =>
    have stepped := h.replace mine (k .resumed) fun _ _ => rfl
    obtain ⟨mine', stops'⟩ := onwards mine stops
    exact ⟨ih stepped mine' stops', stops _ _ w (.lock later cancelled) stepped⟩
  | @release next later ih =>
    have stepped := h.replace mine next fun _ _ => rfl
    obtain ⟨mine, stops⟩ := onwards mine stops
    exact ih stepped mine stops

end Isolated

/-- What is left of the runs of a client belongs to what their tasks wait for. -/
def KeepApart (client : World M) (run : A → Flow M)
    (v : View A (effects M) (World M × ClientNotes M)) : Prop :=
  ∃ rest, v.waits.length = rest.length ∧
    (∀ (t : Nat) wait r, v.waits[t]? = some wait → rest[t]? = some r → wait.Left client r) ∧
    Isolated client run v.asked v.started rest v.world

section

variable {client : World M} {run : A → Flow M}

theorem initial_isolated : KeepApart client run ⟨[], [], (client, []), []⟩ := by
  refine ⟨[], rfl, fun t wait r waiting => ?_, ⟨rfl, rfl, fun note mem => ?_, fun t => ?_, ?_⟩⟩
  · rw [List.getElem?_nil] at waiting
    cases waiting
  · cases mem
  · have none : ClientNotes.editsOf t ([] : ClientNotes M) = [] := rfl
    rw [none]
    rfl
  · intro t a r _ began
    rw [List.getElem?_nil] at began
    cases began

theorem kept_isolated (own : ∀ a, Own client false (run a)) :
    Loop.Kept (Loop.noting World.handle) run (KeepApart client run) where
  start v a h := by
    obtain ⟨rest, length, left, apart⟩ := h
    refine ⟨rest ++ [run a], ?_, fun t wait r waiting mine => ?_, apart.start a⟩
    · simp only [List.length_append, List.length_singleton, length]
    · rcases getElem?_concat_cases waiting with old | ⟨rfl, rfl⟩
      · rw [List.getElem?_append_left (length ▸ (List.getElem?_eq_some_iff.1 old).1)] at mine
        exact left t wait r old mine
      · rw [length, List.getElem?_concat_length] at mine
        exact Option.some.inj mine ▸ .start (own a)
  ask v t h := by
    obtain ⟨rest, length, left, apart⟩ := h
    refine ⟨rest, length, left, { apart with alone := fun t' a r unasked => ?_ }⟩
    exact apart.alone t' a r fun mem => unasked (List.mem_append_left _ mem)
  go v t wait signal r h waiting goes allowed := by
    obtain ⟨rest, length, left, apart⟩ := h
    have inside : t < rest.length := length ▸ (List.getElem?_eq_some_iff.1 waiting).1
    have mine : rest[t]? = some rest[t] := List.getElem?_eq_getElem inside
    obtain ⟨⟨held, own⟩, resumed⟩ := (left t wait _ waiting mine).goes goes
    have goesOn : Isolated client run v.asked v.started (rest.set t r) v.world :=
      apart.replace mine r fun unasked answers => by
        cases signal with
        | resumed => rw [resumed rfl]
        | cancelled => exact absurd (allowed rfl) unasked
    refine Isolated.reaches own goesOn (List.getElem?_set_self inside)
      fun wait' r' w' left' apart' => ?_
    rw [List.set_set] at apart'
    refine ⟨rest.set t r', ?_, fun t' wait'' r'' waiting' mine' => ?_, apart'⟩
    · rw [List.length_set, List.length_set, length]
    · rcases getElem?_set_cases mine' with ⟨rfl, rfl⟩ | ⟨ne, old⟩
      · rw [List.getElem?_set_self (length ▸ inside)] at waiting'
        exact Option.some.inj waiting' ▸ left'
      · rw [List.getElem?_set_ne ne.symm] at waiting'
        exact left t' wait'' r'' waiting' old

end

/-- What runs touch only for themselves stays what it is. -/
theorem fixed_fields {w client : World M} (same : w.fixed = client.fixed) :
    w.headers = client.headers ∧ w.registry = client.registry :=
  ⟨(congrArg World.headers same :), (congrArg World.registry same :)⟩

namespace Client

/-- A run that is alone in a client, with answers of its own. -/
def alone (behaviour : M → Flow M → Flow M) (world : World M) (answers : List Exchange)
    (query vars : Value) : ClientLoop M × Option Outcome :=
  (Loop.initial { world with answers }).run World.handle (run behaviour query vars) 0

/-- The runs of a client, each given by its operation and its variables. -/
def running (behaviour : M → Flow M → Flow M) (operation : Value × Value) : Flow M :=
  run behaviour operation.1 operation.2

/-- After every history of runs of a client whose middleware read and change only the request of their
own run, the headers and the registry are what they were, and each request comes from the edits of its
own run. A run that was not asked to stop has handed over a beginning of the calls that it hands over
when it is alone in the client, with the answers it received and any later ones. If it has ended, these
are all its calls, and it has ended with the same outcome and the same request. -/
theorem run_as_alone (behaviour : M → Flow M → Flow M) (world : World M)
    (own : ∀ m ∈ world.registry, OwnRequest behaviour m) (moves : List (Move (Value × Value))) :
    let l : ClientLoop M := (Loop.initial world).after World.handle (running behaviour) moves
    let notes : ClientNotes M := Loop.notes World.handle (running behaviour) world moves
    (l.world.headers = world.headers ∧ l.world.registry = world.registry ∧
      ∀ t : Nat, l.world.requestOf t =
        (notes.editsOf t).foldl (fun r f => f r) (world.requestOf t)) ∧
    ∀ (t : Nat) query vars, (moves.filterMap Move.started?)[t]? = some (query, vars) →
      t ∉ moves.filterMap Move.cancelled? →
      ∀ later, ∃ l' outcome rest,
        alone behaviour world (notes.exchangesOf t ++ later) query vars = (l', some outcome) ∧
        l'.world.calls = world.calls ++ (notes.callsOf t ++ rest) ∧
        ∀ o, l.outcome? t = some o →
          outcome = o ∧ rest = [] ∧ l'.world.requestOf 0 = l.world.requestOf t := by
  intro l notes
  have ownRun (operation : Value × Value) : Own world false (running behaviour operation) :=
    own_run own operation.1 operation.2
  obtain ⟨-, rest, -, left, apart⟩ := (kept_isolated ownRun).after_notes initial_isolated moves
  obtain ⟨headers, registry⟩ := fixed_fields apart.fixed
  refine ⟨⟨headers, registry, apart.edits⟩, fun t query vars began unasked later => ?_⟩
  have inside : t < rest.length := apart.length ▸ (List.getElem?_eq_some_iff.1 began).1
  obtain ⟨r, mine⟩ : ∃ r, rest[t]? = some r := ⟨_, List.getElem?_eq_getElem inside⟩
  let answers := World.answerAt (notes.exchangesOf t ++ later)
  have same := apart.alone t (query, vars) _ unasked began mine answers
    (World.supplies_answerAt _ later)
  -- A run makes its request anew.
  have anew : solo world answers (running behaviour (query, vars)) ⟨world.requestOf t, [], 0⟩ =
    solo world answers (running behaviour (query, vars)) ⟨world.requestOf 0, [], 0⟩ := rfl
  obtain ⟨l', ran, shows', -⟩ := Routine.run_alone (ownRun (query, vars))
    (w := { world with answers := notes.exchangesOf t ++ later }) (s := ⟨world.requestOf 0, [], 0⟩)
    ⟨rfl, (List.append_nil _).symm, fun i => congrArg answers (Nat.zero_add i)⟩ rfl
  rw [← anew, ← same] at ran shows'
  obtain ⟨more, calls⟩ : ∃ more, notes.callsOf t ++ more =
      (solo world answers r (share t (l.world, notes))).2.calls :=
    Routine.calls_prefix_solo r (share t (l.world, notes))
  refine ⟨l', _, more, ran, calls ▸ shows'.calls, fun o ended => ?_⟩
  cases left t _ r (Loop.waits_of_outcome? ended) mine
  exact ⟨rfl, List.append_right_eq_self.1 calls, shows'.request⟩

/-- A script gives every run another address and holds it for a second. The endpoint takes a second for
its first answer and refuses the second call. -/
def redirecting : World Middleware :=
  let client : World Middleware := make (.text "https://api.example.com/graphql") [] .direct .default
    [⟨some 1, .data (.int 1)⟩, ⟨none, .refuse (.fault (.general .timeout none))⟩] .network
  { client with registry :=
      [.script "redirect" true [.url (.text "https://example.com"), .sleep 1, .next],
        .header [("X-Trace", .text "1")]] }

/-- Two runs; the second one is the first to go on, and the last to end. -/
def overtaken : List (Move (Value × Value)) :=
  [.start (.text "{ a }", .null), .start (.text "{ b }", .null), .job 0, .job 0, .tick 1, .fire 1,
   .job 0, .fire 0, .job 0, .tick 2, .fire 1, .job 0]

theorem run_as_alone_overtaken :
    (∀ m ∈ redirecting.registry, OwnRequest Middleware.behaviour m) ∧
    let l : ClientLoop Middleware :=
      (Loop.initial redirecting).after World.handle (running Middleware.behaviour) overtaken
    let notes : ClientNotes Middleware :=
      Loop.notes World.handle (running Middleware.behaviour) redirecting overtaken
    ∃ o l', l.outcome? 1 = some o ∧
      alone Middleware.behaviour redirecting (notes.exchangesOf 1) (.text "{ b }") .null =
        (l', some o) ∧
      l'.world.calls = notes.callsOf 1 ∧ l'.world.requestOf 0 = l.world.requestOf 1 := by
  have own : ∀ m ∈ redirecting.registry, OwnRequest Middleware.behaviour m := by
    intro m mem
    refine Middleware.ownRequest ?_
    rcases List.mem_cons.1 mem with rfl | mem
    · intro step mem
      simp only [List.mem_cons, List.not_mem_nil, or_false] at mem
      rcases mem with rfl | rfl | rfl <;> trivial
    · rw [List.mem_singleton.1 mem]
      trivial
  obtain ⟨o, ended⟩ : ∃ o, ((Loop.initial redirecting).after World.handle
      (running Middleware.behaviour) overtaken).outcome? 1 = some o :=
    Option.isSome_iff_exists.1 (by decide +kernel)
  obtain ⟨-, runs⟩ := run_as_alone Middleware.behaviour redirecting own overtaken
  obtain ⟨l', outcome, rest, ran, calls, same⟩ :=
    runs 1 (.text "{ b }") .null rfl (by decide) []
  obtain ⟨rfl, rfl, request⟩ := same _ ended
  rw [List.append_nil] at ran calls
  exact ⟨own, _, l', ended, ran, calls, request⟩

end Client

end GraphClient
