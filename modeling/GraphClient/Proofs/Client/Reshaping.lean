import GraphClient.Proofs.Client.Isolation
import GraphClient.Proofs.Middleware.Edits

/-!
# Runs through middleware that edit and reshape

The middleware of a client each make edits, run the rest of the chain once and make something of its
value.

* `Client.exec_chain`: their edits are made in the order of the registry before anything is sent,
  and what they make of a value is made in the opposite order.
* `Transport.calls_post`: a post hands over one call.
* `Client.run_reshaped`: a run is one post of the edited request, followed by what the middleware
  make of its value.
-/

namespace GraphClient

open Routine (Own solo)

variable {M : Type}

namespace World

/-- The later request of a scope replaces the earlier one. -/
theorem setRequest_setRequest (w : World M) (scope : Nat) (r r' : Request) :
    (w.setRequest scope r).setRequest scope r' = w.setRequest scope r' :=
  congrArg (fun requests => { w with requests := requests }) (Pairs.set_set scope r r' w.requests)

end World

/-! ## Through the chain -/

section

variable {behaviour : M → Flow M → Flow M} {next r : Flow M} {result : Value → Outcome}
  {edits : List Edit}

theorem Reshaping.exec (reshaping : Reshaping next result edits r) (f : Outcome → Flow M)
    (scope t : Nat) (w : World M) (request : Request) (l : ClientLoop M) :
    Loop.exec World.handle scope t (r.andThen f) { l with world := w.setRequest scope request } =
      Loop.exec World.handle scope t ((next.onValue fun v => .done (result v)).andThen f)
        { l with world := w.setRequest scope (Edit.all edits request) } := by
  induction reshaping generalizing request with
  | next => rfl
  | @edit later r edits _ ih =>
    have made : (World.handle scope (.edit (Edit.all edits)) (w.setRequest scope request)).2 =
        w.setRequest scope (Edit.all edits request) := by
      rw [World.handle, World.requestOf_setRequest_self]
      exact w.setRequest_setRequest scope request _
    rw [Edit.all_append, ← ih, ← made]
    rfl

theorem Reshaping.own {client : World M} (reshaping : Reshaping next result edits r)
    (own : Own client false next) : Own client false r := by
  induction reshaping with
  | next => exact own.onValue fun v => .done (result v)
  | edit edits _ ih => exact .perform trivial nofun fun _ _ => ih

theorem Reshapes.ownRequest {m : M} {link : Link} (reshapes : Reshapes behaviour m link) :
    OwnRequest behaviour m := fun _ next own => (reshapes next).own own

/-- Middleware that reshape keep to their own run. -/
theorem Reshapes.ownRequests {ms : List M} {links : List Link}
    (reshape : List.Forall₂ (Reshapes behaviour) ms links) : ∀ m ∈ ms, OwnRequest behaviour m := by
  induction reshape with
  | nil => exact nofun
  | cons here _ ih => exact List.forall_mem_cons.2 ⟨here.ownRequest, ih⟩

end

/-! ## The calls of a post -/

section

variable {client : World M} {answers : Nat → Exchange}

theorem Endpoint.calls_callThen {c : Call} {k : Except Failure Answer → Flow M}
    (silent : ∀ a s, (solo client answers (k a) s).2.calls = s.calls) (s : Share) :
    (solo client answers (callThen c k) s).2.calls = s.calls ++ [c] := by
  show (solo client answers (Pooled.awaitAnswer k (answers s.taken)) _).2.calls = _
  unfold Pooled.awaitAnswer
  split
  · exact silent _ _
  · exact silent _ _

namespace Pooled

theorem calls_finish (url : Value) (start : Rat) (a : Except Failure Answer) (s : Share) :
    (solo client answers (finish url start a) s).2.calls = s.calls := by
  unfold finish
  split
  · split
    · simp only [refuse, log, solo, Share.handle]
      split <;> rfl
    · rfl
  · rfl
  · simp only [read, log, solo, Share.handle]
    split <;> rfl
  · rfl

theorem solo_openSession : solo client answers openSession = fun s => (.ok .null, s) :=
  solo_unlessOpen (solo_lockedSession answers) client.pool

theorem calls_post (c : Call) (s : Share) :
    (solo client answers (post c.url c.headers c.body) s).2.calls = s.calls ++ [c] := by
  rw [post_eq, Routine.onValue, Routine.solo_andThen, solo_openSession]
  exact Endpoint.calls_callThen (calls_finish c.url 0) s

end Pooled

/-- A post hands over one call, unless nothing is behind the transport. -/
theorem Transport.calls_post (c : Call) (s : Share) (linked : client.transport ≠ .bare) :
    (solo client answers (post c.url c.headers c.body) s).2.calls = s.calls ++ [c] := by
  simp only [post, solo, Share.handle, World.handle]
  cases kind : client.transport with
  | direct => exact Endpoint.calls_callThen (fun _ _ => rfl) s
  | pooled => exact Pooled.calls_post c s
  | bare => exact absurd kind linked

end

namespace Client

variable {behaviour : M → Flow M → Flow M} {ms : List M} {links : List Link}

/-- Posts a request, if it has a body. -/
def deliver (r : Request) : Flow M :=
  match r.body with
  | .error e => .fail e
  | .ok body => Transport.post r.url r.headers body

theorem own_deliver {client : World M} (r : Request) : Own client false (deliver r) := by
  unfold deliver
  split
  · exact .done _
  · exact Transport.own_post _ _ _

/-- What is sent is the request as it is then. -/
theorem exec_send (f : Value → Flow M) (scope t : Nat) (w : World M) (request : Request)
    (l : ClientLoop M) :
    Loop.exec World.handle scope t (send.onValue f) { l with world := w.setRequest scope request } =
      Loop.exec World.handle scope t ((deliver request).onValue f)
        { l with world := w.setRequest scope request } := by
  show Loop.exec World.handle scope t
    ((deliver ((w.setRequest scope request).requestOf scope)).onValue f) _ = _
  rw [World.requestOf_setRequest_self]

theorem exec_chain (reshape : List.Forall₂ (Reshapes behaviour) ms links) (f : Outcome → Flow M)
    (scope t : Nat) (w : World M) (request : Request) (l : ClientLoop M) :
    Loop.exec World.handle scope t ((ms.foldr behaviour send).andThen f)
        { l with world := w.setRequest scope request } =
      Loop.exec World.handle scope t
        ((send.onValue fun v => .done (Link.results links v)).andThen f)
        { l with world := w.setRequest scope (Edit.all (Link.allEdits links) request) } := by
  induction reshape generalizing f request with
  | nil =>
    show _ = Loop.exec World.handle scope t ((send.onValue .ret).andThen f) _
    rw [Routine.onValue_ret]
    rfl
  | @cons m link ms links here _ ih =>
    -- What the first middleware makes of a value is made after all the others.
    have last : (send.onValue fun v => .done (Link.results (link :: links) v)).andThen f =
        (send.onValue fun v => .done (Link.results links v)).andThen fun outcome =>
          ((Routine.done outcome).onValue fun v => .done (link.result v)).andThen f := by
      rw [Routine.onValue, Routine.onValue, Routine.andThen_assoc, Routine.andThen_assoc]
      refine congrArg send.andThen (funext fun outcome => ?_)
      cases outcome with
      | error e => rfl
      | ok v =>
        show f ((Link.results links v).bind link.result) = _
        simp only [Routine.andThen]
        cases Link.results links v <;> rfl
    rw [List.foldr_cons, (here _).exec, last, Routine.onValue, Routine.andThen_assoc]
    rw [show Link.allEdits (link :: links) = link.edits ++ Link.allEdits links from rfl,
      Edit.all_append]
    exact ih _ _

/-- The request of a run after the edits of all middleware. -/
def edited (client : World M) (links : List Link) (query vars : Value) : Request :=
  Edit.all (Link.allEdits links) ⟨client.url, query, client.headers, vars⟩

/-- In every loop a run goes on as the post of the edited request. -/
theorem exec_run {client : World M}
    (reshape : List.Forall₂ (Reshapes behaviour) client.registry links)
    (query vars : Value) (scope t : Nat) (l : ClientLoop M) (here : l.world = client) :
    Loop.exec World.handle scope t (run behaviour query vars) l =
      Loop.exec World.handle scope t
        ((deliver (edited client links query vars)).onValue fun v => .done (Link.results links v))
        { l with world := client.setRequest scope (edited client links query vars) } := by
  subst here
  let request : Request := ⟨l.world.url, query, l.world.headers, vars⟩
  calc Loop.exec World.handle scope t (run behaviour query vars) l
      = Loop.exec World.handle scope t (DispatchChain.call ⟨l.world.registry, behaviour, send⟩ 0)
          { l with world := l.world.setRequest scope request } := rfl
    _ = Loop.exec World.handle scope t ((l.world.registry.foldr behaviour send).andThen .done)
          { l with world := l.world.setRequest scope request } := by
        rw [DispatchChain.call_eq_foldr, List.drop_zero, Routine.andThen_done]
    _ = Loop.exec World.handle scope t
          ((send.onValue fun v => .done (Link.results links v)).andThen .done)
          { l with world := l.world.setRequest scope (edited l.world links query vars) } :=
        exec_chain reshape .done scope t l.world request l
    _ = _ := by
        rw [Routine.andThen_done]
        exact exec_send _ scope t l.world _ l

/-- By itself, a routine followed by what is made of its value ends with the latter, and with the
share of the routine. -/
theorem solo_reshaped {client : World M} {answers : Nat → Exchange} (r : Flow M) (s : Share) :
    solo client answers (r.onValue fun v => .done (Link.results links v)) s =
      ((solo client answers r s).1.bind (Link.results links), (solo client answers r s).2) := by
  rw [Routine.onValue, Routine.solo_andThen]
  cases (solo client answers r s).1 <;> rfl

/-- A run of a client whose middleware each make edits, run the rest of the chain once and make
something of its value. The edits of all are made to a request of the client's address, its headers,
the query and the variables, in the order of the registry: of the edits of one item the last one
counts. In every loop the run goes on as one post of that request, and with what the middleware make
of its value, the last one first. Alone, it ends so, after one call; an error of the post, or of the
text of the request, is what it ends with. The headers of the client stay, whatever runs there
are. -/
theorem run_reshaped (behaviour : M → Flow M → Flow M) (client : World M) (links : List Link)
    (reshape : List.Forall₂ (Reshapes behaviour) client.registry links)
    (distinct : (client.headers.map Prod.fst).Nodup) (query vars : Value) :
    let edits := Link.allEdits links
    let request := edited client links query vars
    (request.url = (Edit.last? Edit.url? edits).getD client.url ∧
      request.query = (Edit.last? Edit.query? edits).getD query ∧
      request.vars = (Edit.last? Edit.vars? edits).getD vars ∧
      ∀ name, Pairs.get? name request.headers =
        (Edit.last? (Edit.header? name) edits).getD (Pairs.get? name client.headers)) ∧
    (∀ (scope t : Nat) (l : ClientLoop M), l.world = client →
      Loop.exec World.handle scope t (run behaviour query vars) l =
        Loop.exec World.handle scope t
          ((deliver request).onValue fun v => .done (Link.results links v))
          { l with world := client.setRequest scope request }) ∧
    (∃ posted l' l'',
      (Loop.initial (client.setRequest 0 request)).run World.handle (deliver request) 0 =
        (l', some posted) ∧
      (Loop.initial client).run World.handle (run behaviour query vars) 0 =
        (l'', some (posted.bind (Link.results links))) ∧
      (∀ body, request.body = .ok body → client.transport ≠ .bare →
        l''.world.calls = client.calls ++ [⟨request.url, request.headers, body⟩]) ∧
      ∀ e, request.body = .error e → posted = .error e ∧ l''.world.calls = client.calls) ∧
    ∀ moves, ((Loop.initial client).after World.handle (running behaviour) moves).world.headers =
      client.headers := by
  intro edits request
  refine ⟨⟨Edit.url_all .., Edit.query_all .., Edit.vars_all .., fun name =>
    Edit.header_all distinct ..⟩, exec_run reshape query vars, ?_, fun moves => ?_⟩
  · let answers := World.answerAt client.answers
    have shows' : Shows client.calls answers (client.setRequest 0 request) ⟨request, [], 0⟩ :=
      ⟨client.requestOf_setRequest_self 0 request, (List.append_nil _).symm,
        fun i => congrArg answers (Nat.zero_add i)⟩
    have own : Own client false (deliver request) := own_deliver request
    obtain ⟨l', posted, -⟩ := Routine.run_alone own shows' rfl
    obtain ⟨l'', ran, after, -⟩ := Routine.run_as_alone_of_exec
      (own.onValue fun v => .done (Link.results links v))
      (exec_run reshape query vars 0 0 (lone 0 client (.start _) none false [] []) rfl) shows' rfl
    rw [solo_reshaped] at ran after
    refine ⟨_, l', l'', posted, ran, fun body encoded linked => ?_, fun e refused => ?_⟩
    · have one : deliver (M := M) request = Transport.post request.url request.headers body := by
        rw [deliver, encoded]
      rw [after.calls, one]
      exact congrArg (client.calls ++ ·)
        (Transport.calls_post ⟨request.url, request.headers, body⟩ _ linked)
    · have none : deliver (M := M) request = .fail e := by rw [deliver, refused]
      rw [after.calls, none]
      exact ⟨rfl, List.append_nil _⟩
  · have own (operation : Value × Value) : Own client false (running behaviour operation) :=
      own_run (Reshapes.ownRequests reshape) operation.1 operation.2
    obtain ⟨-, _, -, -, apart⟩ := (kept_isolated own).after_notes initial_isolated moves
    exact (fixed_fields apart.fixed).1

/-- The edits of the first and of the last of three middleware. -/
def outerEdits : List Edit := [.setHeader "X-Trace" (.text "1"), .dropHeader "Accept"]

def innerEdits : List Edit := [.query (.text "{ b }"), .setHeader "X-Trace" (.text "3")]

/-- Three middleware that disagree on a header: the first one wraps the value, the last one takes an
entry of it. -/
def relabelling : World Middleware :=
  let client : World Middleware := make (.text "https://api.example.com") [] .direct .default
    [⟨none, .data (.ofPairs [("id", .int 7)])⟩] .network
  { client with registry :=
      [.script "outer" true (outerEdits.map Script.stepOf ++ .next :: [.wrap "taken"]),
       .header [("X-Trace", .text "2")],
       .script "inner" true (innerEdits.map Script.stepOf ++ .next :: [.pick "id"])] }

/-- What these middleware add. -/
def relabels : List Link :=
  [⟨outerEdits, fun v => .ok (Script.shape [.wrap "taken"] v)⟩,
   ⟨Edit.headers [("X-Trace", .text "2")], .ok⟩,
   ⟨innerEdits, fun v => .ok (Script.shape [.pick "id"] v)⟩]

theorem run_reshaped_relabelling :
    (List.Forall₂ (Reshapes Middleware.behaviour) relabelling.registry relabels ∧
      (relabelling.headers.map Prod.fst).Nodup) ∧
    ∃ l, (Loop.initial relabelling).run World.handle
        (run Middleware.behaviour (.text "{ a }") .null) 0 =
        (l, some (.ok (.ofPairs [("taken", .int 7)]))) ∧
      l.world.calls = [⟨.text "https://api.example.com",
        [("Content-Type", .text "application/json"), ("X-Trace", .text "3")],
        "\x7b\"query\": \"\x7b b \x7d\", \"variables\": null\x7d"⟩] := by
  have reshape : List.Forall₂ (Reshapes Middleware.behaviour) relabelling.registry relabels :=
    .cons (Script.reshapes "outer" _ fun step mem => List.mem_singleton.1 mem ▸ trivial) <|
      .cons (Stock.reshapes_header _) <|
      .cons (Script.reshapes "inner" _ fun step mem => List.mem_singleton.1 mem ▸ trivial) .nil
  have distinct : (relabelling.headers.map Prod.fst).Nodup := by decide
  refine ⟨⟨reshape, distinct⟩, ?_⟩
  obtain ⟨-, -, ⟨posted, l', l'', delivered, ran, calls, -⟩, -⟩ :=
    run_reshaped Middleware.behaviour relabelling relabels reshape distinct (.text "{ a }") .null
  let request := edited relabelling relabels (.text "{ a }") .null
  have body : request.body = .ok "\x7b\"query\": \"\x7b b \x7d\", \"variables\": null\x7d" := by rfl
  let idle : ClientLoop Middleware := .initial (relabelling.setRequest 0 request)
  have ends : (Loop.runWithin World.handle (·.isOver 0) 1
      (Loop.exec World.handle 0 0 (deliver request)
        { idle with tasks := [⟨.start (deliver request), none, false, 0, none⟩] })).bind
      (·.outcome? 0) = some (.ok (.ofPairs [("id", .int 7)])) := by rfl
  obtain ⟨l₁, ended, outcome⟩ := Option.bind_eq_some_iff.1 ends
  obtain ⟨-, same⟩ := Prod.mk.inj (delivered.symm.trans (Loop.run_eq_of_runWithin ended))
  obtain rfl := Option.some.inj (same.trans outcome)
  exact ⟨l'', ran, calls _ body nofun⟩

end Client

end GraphClient
