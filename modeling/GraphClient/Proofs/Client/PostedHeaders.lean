import GraphClient.Proofs.Client.HeaderNames
import GraphClient.Proofs.Client.Reshaping
import GraphClient.Proofs.Flow.Invariant

/-!
# The headers that runs post

The headers of a call come from the defaults, from those given to the client, and from middleware
that set headers, in this order.

* `Client.merged_headers`: the headers of a client, given to it or in its settings.
* `Routine.Hands`: whatever a routine does, its calls have the given headers. A post does so
  (`Transport.hands_post`). `Client.reaches_run`, `Client.kept_handed`: so does every run, from wait
  to wait.
* `Client.calls_alone`: a run alone makes one call.
* `Client.calls_headers`: what the headers of all calls say, when names are compared letter by
  letter and when they are not.
-/

namespace GraphClient

open Routine (Own)

variable {M : Type}

/-! ## Routines that hand over calls with given headers -/

/-- The operation leaves the client as it is. If it hands over a call, this has the given headers. -/
def Effect.Hands (headers : Headers) : Effect M → Prop
  | .record call => call.headers = headers
  | op => op.IsOwn

theorem Effect.Quiet.hands {op : Effect M} (quiet : op.Quiet) (headers : Headers) :
    op.Hands headers := by
  cases op <;> trivial

namespace Routine

/-- A routine without races does only such operations, whatever it is answered. -/
def Hands (headers : Headers) : Flow M → Prop
  | .done _ => True
  | .perform op k => Effect.Hands headers op ∧ ∀ reply, Hands headers (k reply)
  | .clock k => ∀ now, Hands headers (k now)
  | .sleep _ k => ∀ wake, Hands headers (k wake)
  | .race .. => False
  | .acquire k => ∀ wake, Hands headers (k wake)
  | .release next => Hands headers next

variable {headers : Headers} {r : Flow M}

theorem Stops.hands (stops : r.Stops) : r.Hands headers := by
  induction r with
  | done o => trivial
  | release next ih => exact ih stops
  | _ => exact stops.elim

theorem Quiet.hands (quiet : r.Quiet) : r.Hands headers := by
  induction r with
  | done o => trivial
  | perform op k ih => exact ⟨quiet.1.hands headers, fun reply => ih reply (quiet.2 reply)⟩
  | sleep d k ih =>
    intro wake
    cases wake with
    | resumed => exact ih _ quiet.1
    | cancelled => exact quiet.2.hands
  | acquire k ih =>
    intro wake
    cases wake with
    | resumed => exact ih _ quiet.1
    | cancelled => exact quiet.2.hands
  | release next ih => exact ih quiet
  | _ => exact quiet.elim

theorem Hands.andThen {f : Outcome → Flow M} (hands : r.Hands headers)
    (rest : ∀ o, (f o).Hands headers) : (r.andThen f).Hands headers := by
  induction r with
  | done o => exact rest o
  | perform op k ih => exact ⟨hands.1, fun reply => ih reply (hands.2 reply)⟩
  | clock k ih => exact fun now => ih now (hands now)
  | sleep d k ih => exact fun wake => ih wake (hands wake)
  | race part limit? k => exact hands.elim
  | acquire k ih => exact fun wake => ih wake (hands wake)
  | release next ih => exact ih hands

theorem Hands.onValue {f : Value → Flow M} (hands : r.Hands headers)
    (rest : ∀ v, (f v).Hands headers) : (r.onValue f).Hands headers :=
  hands.andThen fun o => by
    cases o with
    | ok v => exact rest v
    | error e => trivial

end Routine

section

variable {headers : Headers}

theorem Endpoint.hands_callThen {c : Call} {k : Except Failure Answer → Flow M}
    (same : c.headers = headers) (rest : ∀ a, (k a).Hands headers) :
    (callThen c k).Hands headers := by
  refine ⟨same, fun _ => ⟨trivial, fun _ => ⟨trivial, fun (ex : Exchange) => ?_⟩⟩⟩
  show (Pooled.awaitAnswer k ex).Hands headers
  unfold Pooled.awaitAnswer
  split
  · exact rest _
  · intro wake
    cases wake with
    | resumed => exact rest _
    | cancelled => exact ⟨trivial, fun _ => rest _⟩

theorem Pooled.hands_finish (url : Value) (start : Rat) (a : Except Failure Answer) :
    (finish url start a : Flow M).Hands headers := by
  unfold finish
  split
  · split
    · refine ⟨trivial, fun _ => ⟨trivial, fun _ => ⟨trivial, fun (s : TransportSettings) => ?_⟩⟩⟩
      beta_reduce
      split <;> trivial
    · trivial
  · trivial
  · refine fun now => ⟨trivial, fun _ => ?_⟩
    split
    · trivial
    · exact ⟨trivial, fun _ => trivial⟩
  · trivial

theorem Pooled.hands_post (c : Call) : (post c.url c.headers c.body : Flow M).Hands c.headers := by
  rw [post_eq]
  refine quiet_openSession.hands.onValue fun _ start => ⟨trivial, fun _ => ?_⟩
  exact Endpoint.hands_callThen rfl (hands_finish c.url start)

theorem Transport.hands_post (c : Call) :
    (post c.url c.headers c.body : Flow M).Hands c.headers := by
  refine ⟨trivial, fun (transport : Transport × Bool) => ?_⟩
  obtain ⟨kind, owned⟩ := transport
  cases kind with
  | direct => exact Endpoint.hands_callThen rfl fun _ => trivial
  | pooled => exact Pooled.hands_post c
  | bare => trivial

theorem Client.hands_deliver (r : Request) : (deliver r : Flow M).Hands r.headers := by
  unfold deliver
  split
  · trivial
  · exact Transport.hands_post ⟨r.url, r.headers, _⟩

/-! ## The calls of a client -/

/-- The client is as it was, and all calls so far have the given headers. -/
structure Handed (client : World M) (headers : Headers) (w : World M) : Prop where
  fixed : w.fixed = client.fixed
  calls : ∀ call ∈ w.calls, call.headers = headers

variable {client w : World M} {t : Nat}

/-- One operation keeps that. -/
theorem Handed.handle {op : Effect M} (handed : Handed client headers w)
    (hands : op.Hands headers) : Handed client headers (w.handle t op).2 where
  fixed := by
    have own : op.IsOwn := by cases op <;> first | exact hands | trivial
    exact (w.fixed_handle t own).trans handed.fixed
  calls := by
    cases op with
    | record call =>
      exact List.forall_mem_append.2 ⟨handed.calls, List.forall_mem_singleton.2 hands⟩
    | _ => exact handed.calls

/-- A routine waits with something that hands over such calls, and has handed over no others. -/
def Posting (client : World M) (headers : Headers) (wait : Wait (effects M)) (w : World M) : Prop :=
  wait.Holds (Routine.Hands headers) ∧ Handed client headers w

/-- So does a routine from wait to wait. -/
theorem Routine.Hands.reaches {r : Flow M} (hands : r.Hands headers)
    (handed : Handed client headers w) :
    r.Reaches World.handle t (Posting client headers) w := by
  induction r generalizing w with
  | done o => exact ⟨trivial, handed⟩
  | perform op k ih => exact ih _ (hands.2 _) (handed.handle hands.1)
  | clock k ih => exact fun now => ih now (hands now) handed
  | sleep d k ih => exact ⟨hands, handed⟩
  | race part limit? k => exact hands.elim
  | acquire k ih => exact ⟨ih _ (hands _) handed, hands, handed⟩
  | release next ih => exact ih hands handed

end

namespace Client

variable {client : World Middleware} {sets : List Headers} {headers : Headers}

/-- The headers of a run: those of the client, changed by each middleware in turn. -/
def posted (given : Headers) (sets : List Headers) : Headers := sets.foldl Pairs.merge given

/-- Middleware that set headers change the request before anything is sent. -/
theorem reaches_chain {w : World Middleware} {t : Nat} (handed : Handed client headers w)
    (same : posted (w.requestOf t).headers sets = headers) :
    ((sets.map Middleware.header).foldr Middleware.behaviour send).Reaches World.handle t
      (Posting client headers) w := by
  induction sets generalizing w with
  | nil =>
    have headers : (w.requestOf t).headers = headers := same
    exact (headers ▸ hands_deliver (w.requestOf t)).reaches handed
  | cons set sets ih =>
    let edit : Effect Middleware := .edit fun r => { r with headers := Pairs.merge r.headers set }
    have edited : Handed client headers (w.handle t edit).2 := handed.handle trivial
    refine ih edited ?_
    rw [World.handle, World.requestOf_setRequest_self]
    exact same

theorem reaches_run {w : World Middleware} {t : Nat} (handed : Handed client headers w)
    (registry : client.registry = sets.map .header) (same : posted client.headers sets = headers)
    (query vars : Value) :
    (run Middleware.behaviour query vars).Reaches World.handle t (Posting client headers) w := by
  obtain ⟨headers', registry'⟩ := fixed_fields handed.fixed
  show (DispatchChain.call ⟨w.registry, Middleware.behaviour, send⟩ 0).Reaches _ _ _
    (w.setRequest t ⟨w.url, query, w.headers, vars⟩)
  rw [DispatchChain.call_eq_foldr, List.drop_zero, registry', registry]
  have begun : Handed client headers (w.setRequest t ⟨w.url, query, w.headers, vars⟩) :=
    ⟨handed.fixed, handed.calls⟩
  refine reaches_chain begun ?_
  rw [World.requestOf_setRequest_self, headers']
  exact same

/-- Runs have not begun, or wait with something that hands over such calls. -/
def KeepHeaders (client : World Middleware) (headers : Headers)
    (v : View (Value × Value) (effects Middleware) (World Middleware)) : Prop :=
  Handed client headers v.world ∧ ∀ wait ∈ v.waits,
    (∃ operation, wait = .start (running Middleware.behaviour operation)) ∨
      wait.Holds (Routine.Hands headers)

theorem kept_headers (registry : client.registry = sets.map .header)
    (same : posted client.headers sets = headers) :
    Loop.Kept World.handle (running Middleware.behaviour) (KeepHeaders client headers) where
  start v operation h := by
    refine ⟨h.1, fun wait mem => ?_⟩
    rcases List.mem_append.1 mem with old | new
    · exact h.2 wait old
    · exact .inl ⟨operation, List.mem_singleton.1 new⟩
  ask _ _ h := h
  go v t wait signal r h waiting goes _ := by
    obtain ⟨handed, waits⟩ := h
    have reaches : r.Reaches World.handle t (Posting client headers) v.world := by
      rcases waits wait (List.mem_of_getElem? waiting) with ⟨operation, rfl⟩ | holds
      · cases goes with
        | start => exact reaches_run handed registry same operation.1 operation.2
        | unbegun => exact ⟨trivial, handed⟩
      · have hands : r.Hands headers := by
          cases goes with
          | start => exact holds
          | unbegun => trivial
          | sleep => exact holds _
          | lock => exact holds _
        exact hands.reaches handed
    refine reaches.mono fun wait' w' posting => ⟨posting.2, fun wait'' mem => ?_⟩
    rcases List.mem_or_eq_of_mem_set mem with old | rfl
    · exact waits wait'' old
    · exact .inr posting.1

/-- All calls of all runs, started and stopped in any order, have these headers. -/
theorem headers_of_calls (registry : client.registry = sets.map .header) (fresh : client.calls = [])
    (moves : List (Move (Value × Value))) :
    ∀ call ∈ ((Loop.initial client).after World.handle (running Middleware.behaviour)
      moves).world.calls, call.headers = posted client.headers sets := by
  have none : ∀ call ∈ client.calls, call.headers = posted client.headers sets := by
    rw [fresh]
    exact List.forall_mem_nil _
  have initial : KeepHeaders client (posted client.headers sets) ⟨[], [], client, []⟩ :=
    ⟨⟨rfl, none⟩, List.forall_mem_nil _⟩
  exact ((kept_headers registry rfl).after initial moves).2.1.calls

/-- What middleware adds that sets headers. -/
def headerLink (set : Headers) : Link := ⟨Edit.headers set, .ok⟩

theorem edited_headers (r : Request) : Edit.all (Link.allEdits (sets.map headerLink)) r =
    { r with headers := posted r.headers sets } := by
  induction sets generalizing r with
  | nil => rfl
  | cons set sets ih =>
    show Edit.all (Edit.headers set ++ Link.allEdits (sets.map headerLink)) r = _
    rw [Edit.all_append, Edit.all_headers, ih]
    rfl

/-- A run alone hands over one call, if its request has a body. -/
theorem calls_alone (registry : client.registry = sets.map .header) (fresh : client.calls = [])
    (query vars : Value) {body : String}
    (encoded : Request.body ⟨client.url, query, client.headers, vars⟩ = .ok body)
    (linked : client.transport ≠ .bare) :
    ∃ l outcome, (Loop.initial client).run World.handle (run Middleware.behaviour query vars) 0 =
        (l, some outcome) ∧
      l.world.calls = [⟨client.url, posted client.headers sets, body⟩] := by
  let links := sets.map headerLink
  let call : Call := ⟨client.url, posted client.headers sets, body⟩
  let request : Request := ⟨client.url, query, call.headers, vars⟩
  have reshape : List.Forall₂ (Reshapes Middleware.behaviour) client.registry links := by
    rw [registry, List.forall₂_map_left_iff, List.forall₂_map_right_iff]
    exact List.forall₂_same.2 fun set _ => Stock.reshapes_header set
  have sent : edited client links query vars = request := edited_headers _
  have post : deliver (M := Middleware) request = Transport.post call.url call.headers call.body := by
    rw [deliver, show request.body = .ok body from encoded]
  let start : ClientLoop Middleware :=
    lone 0 client (.start (run Middleware.behaviour query vars)) none false [] []
  have goesOn := exec_run reshape query vars 0 0 start rfl
  rw [sent, post] at goesOn
  have own : Own client false (Transport.post call.url call.headers call.body) :=
    Transport.own_post ..
  have shows' : Shows [] (World.answerAt client.answers) (client.setRequest 0 request)
      ⟨request, [], 0⟩ :=
    ⟨client.requestOf_setRequest_self 0 request, fresh,
      fun i => congrArg (World.answerAt client.answers) (Nat.zero_add i)⟩
  obtain ⟨l, ran, after, -⟩ := Routine.run_as_alone_of_exec
    (own.onValue fun v => .done (Link.results links v)) goesOn shows' rfl
  rw [solo_reshaped] at ran after
  exact ⟨l, _, ran, after.calls.trans (Transport.calls_post call _ linked)⟩

/-! ## Where the headers come from -/

/-- Headers whose values are texts. -/
def texts (headers : List (String × String)) : Headers := headers.map fun (k, v) => (k, .text v)

theorem get?_texts (name : String) (headers : List (String × String)) :
    Pairs.get? name (texts headers) = (Pairs.get? name headers).map .text := by
  induction headers with
  | nil => rfl
  | cons header headers ih =>
    show Pairs.get? name ((header.1, .text header.2) :: texts headers) = _
    rw [Pairs.get?, Pairs.get?, ih]
    split <;> rfl

theorem names_texts (headers : List (String × String)) :
    (texts headers).map Prod.fst = headers.map Prod.fst := List.map_map

/-- A new client whose headers are given to it, or in its settings. -/
inductive From (given : Headers) : World Middleware → Prop
  | direct (url transport settings answers sessions) :
      From given (make url given transport settings answers sessions)
  | settings (s : ClientSettings) (transport answers sessions) : given = texts s.headers →
      From given (ofSettings s transport answers sessions)

open Headers (Merged Uniform lastOf?)

theorem merged_initialHeaders {given : Headers} (nodup : (given.map Prod.fst).Nodup) :
    Merged [texts defaultHeaders, given] (initialHeaders given) :=
  (Merged.single (by decide)).merge nodup

/-- Defaults that have been overridden before are overridden again. -/
theorem merged_settings (s : ClientSettings) (nodup : (s.headers.map Prod.fst).Nodup) :
    Merged [texts defaultHeaders, texts s.headers] (initialHeaders (texts s.mergedHeaders)) := by
  have merged : (s.mergedHeaders.map Prod.fst).Nodup := Pairs.nodup_merge (by decide) s.headers
  have both : Merged [texts defaultHeaders, texts s.mergedHeaders]
      (initialHeaders (texts s.mergedHeaders)) := merged_initialHeaders (by rwa [names_texts])
  refine ⟨both.nodup, fun name => ?_⟩
  rw [both.get?]
  simp only [List.reverse_cons, List.reverse_nil, List.nil_append, List.singleton_append,
    List.findSome?_cons, get?_texts, ClientSettings.mergedHeaders, Pairs.get?_merge,
    Pairs.ofList_eq_self nodup]
  cases Pairs.get? name s.headers <;> cases Pairs.get? name defaultHeaders <;> rfl

theorem From.merged {given : Headers} (made : From given client)
    (nodup : (given.map Prod.fst).Nodup) : Merged [texts defaultHeaders, given] client.headers := by
  cases made with
  | direct => exact merged_initialHeaders nodup
  | settings s transport answers sessions same =>
    subst same
    exact merged_settings s (names_texts s.headers ▸ nodup)

/-- **The headers of calls.** A new client with middleware that set headers, where no name comes
twice in the headers given to it or in those of one middleware. All calls of its runs, however many
are started, stopped and woken in whatever order, have the same headers, and a run alone makes one
such call. Letter by letter, each name has the value of the last one to set it: the defaults, then
the headers of the client, then the middleware in order. Without regard to the case of letters, no
name comes twice and each has the value of the last one to set it, exactly if all of them spell it
alike. -/
theorem calls_headers {given : Headers} {client : World Middleware} (made : From given client)
    (sets : List Headers) (distinct : given.Distinct)
    (distincts : ∀ set ∈ sets, Headers.Distinct set) :
    let sources := texts defaultHeaders :: given :: sets
    let client := { client with registry := sets.map Middleware.header }
    ∃ headers : Headers,
      (∀ moves, ∀ call ∈ ((Loop.initial client).after World.handle (running Middleware.behaviour)
        moves).world.calls, call.headers = headers) ∧
      (∀ query vars body, Request.body ⟨client.url, query, client.headers, vars⟩ = .ok body →
        client.transport ≠ .bare → ∃ l outcome,
          (Loop.initial client).run World.handle (run Middleware.behaviour query vars) 0 =
            (l, some outcome) ∧
          l.world.calls = [⟨client.url, headers, body⟩]) ∧
      (∀ name, Pairs.get? name headers = sources.reverse.findSome? (Pairs.get? name)) ∧
      (headers.Distinct ∧ (∀ name, headers.valueOf? name = lastOf? name sources) ↔
        Uniform sources) := by
  intro sources client'
  have fresh : client.calls = [] := by cases made <;> rfl
  have merged : Merged sources (posted client.headers sets) :=
    (made.merged distinct.nodup).mergeAll fun set mem => (distincts set mem).nodup
  have same : client'.registry = sets.map .header := rfl
  refine ⟨posted client.headers sets, headers_of_calls same fresh,
    fun query vars body encoded linked => calls_alone same fresh query vars encoded linked,
    merged.get?, ?_⟩
  exact ⟨fun h => merged.distinct_iff.1 h.1, fun uniform =>
    ⟨merged.distinct_iff.2 uniform, merged.valueOf?_eq uniform⟩⟩

/-- Settings that override a default header and add another one. -/
def tokenSettings : ClientSettings :=
  ⟨"https://api.example.com/graphql", [("Authorization", "Bearer t"), ("Accept", "text/plain")],
    .default, .default⟩

/-- Middleware that override a header once more and add a third one. -/
def tracing : List Headers := [[("X-Trace", .text "1")], [("Accept", .text "*/*")]]

theorem calls_headers_overridden :
    let client : World Middleware := ofSettings tokenSettings .direct [] .network
    let headers := texts tokenSettings.headers
    (From headers client ∧ headers.Distinct ∧ ∀ set ∈ tracing, Headers.Distinct set) ∧
    ∃ l outcome call,
      (Loop.initial { client with registry := tracing.map .header }).run World.handle
        (run Middleware.behaviour (.text "\x7b a \x7d") .null) 0 = (l, some outcome) ∧
      l.world.calls = [call] ∧ call.headers.Distinct ∧
      call.headers.valueOf? "accept" = some (.text "*/*") := by
  intro client headers
  have made : From headers client := .settings tokenSettings .direct [] .network rfl
  have distinct : headers.Distinct := by
    unfold Headers.Distinct
    decide +kernel
  have distincts : ∀ set ∈ tracing, Headers.Distinct set := by
    unfold Headers.Distinct
    decide +kernel
  have uniform : Uniform (texts defaultHeaders :: headers :: tracing) := by
    unfold Uniform
    decide +kernel
  obtain ⟨posted, -, calls, -, once⟩ := calls_headers made tracing distinct distincts
  obtain ⟨l, outcome, ran, one⟩ := calls (.text "\x7b a \x7d") .null _ rfl nofun
  obtain ⟨apart, last⟩ := once.2 uniform
  exact ⟨⟨made, distinct, distincts⟩, l, outcome, _, ran, one, apart, last "accept"⟩

/-- Another spelling of a default name. -/
def plainText : Headers := [("content-type", .text "text/plain")]

/-- It is posted beside the default, and the two disagree. -/
theorem calls_headers_twice :
    let client : World Middleware :=
      make (.text "https://api.example.com") plainText .direct .default [] .network
    (From plainText client ∧ plainText.Distinct) ∧
    ∃ l outcome call,
      (Loop.initial client).run World.handle
        (run Middleware.behaviour (.text "\x7b a \x7d") .null) 0 = (l, some outcome) ∧
      l.world.calls = [call] ∧ ¬call.headers.Distinct ∧
      call.headers.valueOf? "content-type" ≠ some (.text "text/plain") := by
  intro client
  let headers := texts defaultHeaders ++ plainText
  have registry : client.registry = ([] : List Headers).map Middleware.header := rfl
  have fresh : client.calls = [] := rfl
  obtain ⟨l, outcome, ran, one⟩ := calls_alone registry fresh (.text "\x7b a \x7d") .null rfl nofun
  refine ⟨⟨.direct .., List.pairwise_singleton ..⟩, l, outcome, _, ran, one, ?_, ?_⟩
  · show ¬headers.Distinct
    unfold Headers.Distinct
    decide +kernel
  · show headers.valueOf? "content-type" ≠ _
    rw [show headers.valueOf? "content-type" = some (.text "application/json") from rfl]
    exact fun same => absurd (Value.text.inj (Option.some.inj same)) (by decide)

end Client

end GraphClient
