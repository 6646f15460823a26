import GraphClient.Client.Basic
import GraphClient.Middleware.Script
import GraphClient.Proofs.Client.Posting
import GraphClient.Proofs.Client.Solo

/-!
# Middleware and transports that keep to their own run

* `Middleware.ownRequest`: the stock middleware but time limits, and scripts that neither register
  middleware nor change the client's headers.
* `Transport.own_post`: posting over any transport. Pooled posts share sessions, but no call or
  outcome depends on who has opened one.
* `Client.own_run`: a run of a client whose middleware all keep to their own run.
-/

namespace GraphClient

open Routine (Own solo)

variable {M : Type} {client : World M} {next : Flow M}

/-! ## Stock middleware -/

namespace Stock

theorem own_header (headers : Headers) (own : Own client false next) :
    Own client false (header headers next) :=
  .perform trivial nofun fun _ _ => own

/-- What is logged when the rest of the chain has ended. -/
def report (entry : Outcome → Rat → LogEntry) (o : Outcome) : Flow M :=
  match o with
  | .ok v => .clock fun now => .perform (.log (entry (.ok v) now)) fun _ => .ret v
  | .error e =>
    if e.isError then .clock fun now => .perform (.log (entry (.error e) now)) fun _ => .fail e
    else .fail e

/-- The entry for the end of an operation that began at a time. -/
def ending (logger : String) (level : Int) (name : String) (start : Rat) (o : Outcome) (now : Rat) :
    LogEntry :=
  match o with
  | .ok _ => ⟨level, logger,
    "GraphQL " ++ name ++ " " ++ ("completed in " ++ milliseconds (now - start) ++ "ms")⟩
  | .error e => ⟨warningLevel, logger, "GraphQL " ++ name ++ " "
    ++ ("failed after " ++ milliseconds (now - start) ++ "ms: " ++ e.text)⟩

/-- What is logged makes no difference to the outcome. -/
theorem solo_report (answers : Nat → Exchange) (entry entry' : Outcome → Rat → LogEntry)
    (o : Outcome) :
    solo client answers (report entry o) = solo client answers (report entry' o) := by
  cases o with
  | ok v => rfl
  | error e =>
    unfold report
    simp only
    split <;> rfl

theorem own_report (entry : Outcome → Rat → LogEntry) (o : Outcome) :
    Own client false (report entry o) := by
  cases o with
  | ok v => exact .clock (fun _ => .perform trivial nofun fun _ _ => .done _) fun _ _ _ => rfl
  | error e =>
    unfold report
    simp only
    split
    · exact .clock (fun _ => .perform trivial nofun fun _ _ => .done _) fun _ _ _ => rfl
    · exact .done _

theorem own_logging (logger : String) (level : Int) (own : Own client false next) :
    Own client false (logging logger level next) := by
  refine .perform trivial nofun fun (r : Request) _ => ?_
  split
  · exact .done _
  · rename_i name _
    -- The start is read for the log only.
    suffices same : Own client false (.clock fun start =>
        .perform (.log ⟨level, logger, "GraphQL " ++ name ++ " " ++ ("-> " ++ r.url.display)⟩) fun _ =>
          next.andThen (report (ending logger level name start))) by
      convert same using 5 with start
      funext o
      cases o <;> rfl
    refine .clock (fun start => .perform trivial nofun fun _ _ => own.andThen (own_report _))
      fun start start' answers => funext fun s => ?_
    refine (Routine.solo_andThen next _ s).trans (Eq.trans ?_ (Routine.solo_andThen next _ s).symm)
    rw [solo_report answers (ending logger level name start) (ending logger level name start')]

end Stock

/-! ## Scripts -/

namespace Script

/-- A step that touches nothing but the request of its own run. -/
def IsOwn : Step → Prop
  | .use _ | .clientHeader .. => False
  | _ => True

theorem own_edit (f : Request → Request) (own : Own client false next) :
    Own client false (edit f next) :=
  .perform trivial nofun fun _ _ => own

theorem own_retry {name : String} {k : Value → Flow M} (own : Own client false next)
    (rest : ∀ v, Own client false (k v)) (left i : Nat) (result : Value) :
    Own client false (retry name next k left i result) := by
  induction left generalizing i with
  | zero => exact rest result
  | succ left ih =>
    refine own.andThen fun o => ?_
    cases o with
    | ok v => exact rest v
    | error e =>
      simp only
      split
      · refine .perform trivial nofun fun _ _ => ?_
        show Own client false (if left = 0 then _ else _)
        split
        · exact .done _
        · exact ih (i + 1)
      · exact .done _

theorem own_run {client : World Middleware} {next : Flow Middleware} {name : String} {waits : Bool}
    (own : Own client false next) {steps : List Step} (mine : ∀ step ∈ steps, IsOwn step)
    (result : Value) : Own client false (run name waits next steps result) := by
  induction steps generalizing result with
  | nil => exact .done _
  | cons step steps ih =>
    have rest := ih fun step mem => mine step (List.mem_cons_of_mem _ mem)
    have ours := mine step List.mem_cons_self
    cases step with
    | log text => exact .perform trivial nofun fun _ _ => rest _
    | header k v => exact own_edit _ (rest _)
    | dropHeader k => exact own_edit _ (rest _)
    | query v => exact own_edit _ (rest _)
    | url v => exact own_edit _ (rest _)
    | vars v => exact own_edit _ (rest _)
    | «variable» k v =>
      refine .perform trivial nofun fun (r : Request) _ => ?_
      split
      · exact .done _
      · exact own_edit _ (rest _)
    | «show» => exact .perform trivial nofun fun _ _ => .perform trivial nofun fun _ _ => rest _
    | raise error => exact .done _
    | use specs => exact ours.elim
    | clientHeader k v => exact ours.elim
    | wrap key => exact rest _
    | pick key => exact rest _
    | result v => exact .done _
    | next =>
      unfold run
      simp only
      split
      · exact own.onValue rest
      · exact own
    | sleep d => exact .sleep (rest _) (.perform trivial nofun fun _ _ => .done _)
    | «catch» =>
      refine own.andThen fun o => ?_
      cases o with
      | ok v => exact rest v
      | error e =>
        simp only
        split
        · exact .perform trivial nofun fun _ _ => rest _
        · exact .done _
    | retry count => exact own_retry own rest count 0 result
    | drop => exact rest _

end Script

namespace Middleware

/-- Middleware that touches nothing but the request of its own run, and does not depend on time. -/
def IsOwn : Middleware → Prop
  | timeout _ => False
  | script _ _ steps => ∀ step ∈ steps, Script.IsOwn step
  | _ => True

theorem ownRequest {m : Middleware} (own : m.IsOwn) : OwnRequest behaviour m := by
  intro client next rest
  cases m with
  | header headers => exact Stock.own_header headers rest
  | timeout limit => exact own.elim
  | logging logger level => exact Stock.own_logging logger level rest
  | script name waits steps => exact Script.own_run rest own .null
  | value v => exact .done _
  | group isTuple => exact .done _

end Middleware

/-! ## Transports -/

namespace Endpoint

variable {c : Call} {k k' : Except Failure Answer → Flow M}

theorem own_callThen (rest : ∀ a, Own client false (k a)) : Own client false (callThen c k) := by
  refine .perform trivial nofun fun _ _ => .perform trivial nofun fun _ _ =>
    .perform trivial nofun fun (ex : Exchange) _ => ?_
  show Own client false (Pooled.awaitAnswer k ex)
  unfold Pooled.awaitAnswer
  split
  · exact rest _
  · exact .sleep (rest _) (.perform trivial nofun fun _ _ => rest _)

theorem solo_callThen {answers : Nat → Exchange}
    (same : ∀ a, solo client answers (k a) = solo client answers (k' a)) :
    solo client answers (callThen c k) = solo client answers (callThen c k') := by
  funext s
  show solo client answers (Pooled.awaitAnswer k (answers s.taken)) _ =
    solo client answers (Pooled.awaitAnswer k' (answers s.taken)) _
  unfold Pooled.awaitAnswer
  split
  · rw [same]
  · exact congrFun (same _) _

end Endpoint

namespace Pooled

/-- Gives the lock back. -/
def giveBack (o : Outcome) : Flow M := .release (.done o)

theorem solo_makeSession (answers : Nat → Exchange) :
    solo client answers makeSession = fun s => (.ok .null, s) := by
  unfold makeSession
  simp only [solo, Share.handle, World.handle]
  cases client.sessions with
  | network => rfl
  | scripted delay? => cases delay? <;> rfl

theorem own_makeSession : Own client true (makeSession.andThen giveBack) := by
  have made : Own client true (.perform (.updatePool Pool.openSession) fun _ => giveBack (.ok .null)) :=
    .perform trivial nofun fun _ _ => .release (.done _)
  refine .perform trivial nofun fun (source : SessionSource) _ => ?_
  cases source with
  | network => exact .perform trivial nofun fun _ _ => made
  | scripted delay? =>
    cases delay? with
    | none => exact made
    | some d => exact .sleep made (.release (.done _))

theorem solo_unlessOpen {r : Flow M} {answers : Nat → Exchange}
    (same : solo client answers r = fun s => (.ok .null, s)) (p : Pool) :
    solo client answers (if p.isClosed then r else .ret .null) = fun s => (.ok .null, s) := by
  split
  · exact same
  · rfl

theorem solo_lockedSession (answers : Nat → Exchange) :
    solo client answers (Routine.withLock (unlessOpen makeSession)) = fun s => (.ok .null, s) := by
  funext s
  have opened : solo client answers (unlessOpen makeSession) = fun s => (.ok .null, s) :=
    solo_unlessOpen (solo_makeSession answers) client.pool
  exact (Routine.solo_andThen _ giveBack s).trans (by rw [opened]; rfl)

theorem own_openSession : Own client false openSession := by
  have locked : Own client false (Routine.withLock (unlessOpen makeSession)) := by
    refine .acquire (.pool (fun p => ?_) fun p p' answers => ?_) (.done _)
    · show Own client true (Routine.andThen (if p.isClosed then makeSession else .ret .null) giveBack)
      split
      · exact own_makeSession
      · exact .release (.done _)
    · funext s
      have opened (p : Pool) : solo client answers (if p.isClosed then makeSession else .ret .null) =
        fun s => (.ok .null, s) := solo_unlessOpen (solo_makeSession answers) p
      refine (Routine.solo_andThen _ giveBack s).trans
        (Eq.trans ?_ (Routine.solo_andThen _ giveBack s).symm)
      rw [opened p, opened p']
  refine .pool (fun p => ?_) fun p p' answers => ?_
  · show Own client false (if p.isClosed then _ else _)
    split
    · exact locked
    · exact .done _
  · exact (solo_unlessOpen (solo_lockedSession answers) p).trans
      (solo_unlessOpen (solo_lockedSession answers) p').symm

theorem own_failCounted (e : Failure) : Own client false (failCounted e) :=
  .perform trivial nofun fun _ _ => .done _

/-- What is logged of a response makes no difference, and so the time makes none. -/
theorem solo_timed (answers : Nat → Exchange) (entry entry' : Rat → LogEntry) (r : Flow M) :
    solo client answers (.clock fun now => .perform (.log (entry now)) fun _ => r) =
      solo client answers (.clock fun now => .perform (.log (entry' now)) fun _ => r) := rfl

theorem own_read (url : Value) (start : Rat) (r : Response) : Own client false (read url start r) := by
  refine .clock (fun now => .perform trivial nofun fun _ _ => ?_) fun now now' answers => ?_
  · split
    · exact .done _
    · exact own_failCounted _
  · exact solo_timed answers (fun _ => _) (fun _ => _) _

theorem own_refuse (url : Value) (f : Fault) : Own client false (refuse url f) := by
  refine .perform trivial nofun fun _ _ => .perform trivial nofun fun _ _ =>
    .perform trivial nofun fun (settings : TransportSettings) _ => ?_
  split <;> exact .done _

theorem own_finish (url : Value) (start : Rat) (a : Except Failure Answer) :
    Own client false (finish url start a) := by
  unfold finish
  split
  · split
    · exact own_refuse url _
    · exact .done _
  · exact .done _
  · exact own_read url start _
  · exact .done _

theorem solo_finish (answers : Nat → Exchange) (url : Value) (start start' : Rat)
    (a : Except Failure Answer) :
    solo client answers (finish url start a) = solo client answers (finish url start' a) := by
  unfold finish
  split
  · rfl
  · rfl
  · exact solo_timed answers _ _ _
  · rfl

theorem own_handOver (c : Call) : Own client false (handOver c) :=
  .clock (fun start => .perform trivial nofun fun _ _ =>
    Endpoint.own_callThen (own_finish c.url start)) fun start start' answers =>
      funext fun s => congrFun (Endpoint.solo_callThen (solo_finish answers c.url start start')) s

theorem own_post (c : Call) : Own client false (post c.url c.headers c.body) := by
  rw [post_eq]
  exact own_openSession.onValue fun _ => own_handOver c

end Pooled

theorem Transport.own_post (url : Value) (headers : Headers) (body : String) :
    Own client false (post url headers body) := by
  refine .perform trivial nofun fun (transport : Transport × Bool) _ => ?_
  obtain ⟨transport, owned⟩ := transport
  cases transport with
  | direct => exact Endpoint.own_callThen fun a => .done _
  | pooled => exact Pooled.own_post ⟨url, headers, body⟩
  | bare => exact .done _

namespace Client

theorem own_send : Own client false send := by
  refine .perform trivial nofun fun (r : Request) _ => ?_
  split
  · exact .done _
  · exact Transport.own_post _ _ _

/-- A run of a client whose middleware all keep to their own run does so itself. -/
theorem own_run {behaviour : M → Flow M → Flow M} (own : ∀ m ∈ client.registry, OwnRequest behaviour m)
    (query vars : Value) : Own client false (run behaviour query vars) := by
  refine .perform trivial nofun fun (found : Value × Headers) _ => .perform trivial nofun fun _ _ =>
    .perform trivial nofun fun (ms : List M) registered => ?_
  obtain rfl : ms = client.registry := registered trivial
  show Own client false (DispatchChain.call ⟨client.registry, behaviour, send⟩ 0)
  rw [DispatchChain.call_eq_foldr, List.drop_zero]
  show Own client false (client.registry.foldr behaviour send)
  revert own
  induction client.registry with
  | nil => exact fun _ => own_send
  | cons m ms ih =>
    exact fun own => own m List.mem_cons_self client _
      (ih fun m mem => own m (List.mem_cons_of_mem _ mem))

end Client

end GraphClient
