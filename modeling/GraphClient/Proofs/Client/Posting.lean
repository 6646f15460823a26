import GraphClient.Client.Post
import GraphClient.Proofs.Client.Calls
import GraphClient.Proofs.Client.Responses

/-!
# A post from wait to wait

A post first opens a session, then hands its call over, and ends with what the endpoint answers.

* `Routine.Quiet`: what a post does before it has a session. It counts nothing.
* `Pooled.handOver`, `Pooled.finish`: the rest of a post (`Pooled.post_eq`).
* `Pooled.Settles`: what a post that was answered ends with, by the answer.
* `Quiet.reaches`, `Pooled.reaches_handOver`, `Pooled.reaches_finish`: each part up to its next
  wait, and what it changes of the `Tally`.
-/

namespace GraphClient

variable {M : Type}

/-! ## What is counted -/

/-- An outcome is an error of this library. -/
def Outcome.isOwnError : Outcome → Bool
  | .error (.query _) => true
  | _ => false

/-- An outcome is the failure of a value that could not be read. -/
def Outcome.isValueError : Outcome → Bool
  | .error (.misuse .value _) => true
  | _ => false

/-- A post counts an outcome as an error. -/
def Outcome.isCounted (o : Outcome) : Bool := o.isOwnError || o.isValueError

/-- The counts of the pool, the answers to come, and the calls and answers so far. -/
structure Tally where
  requests : Nat
  errors : Nat
  answers : List Exchange
  calls : List (Nat × Call)
  exchanges : List (Nat × Exchange)

/-- What is counted in a world with notes. -/
def tally (w : World M × ClientNotes M) : Tally :=
  ⟨w.1.pool.requestCount, w.1.pool.errorCount, w.1.answers, w.2.calls, w.2.exchanges⟩

namespace Tally

/-- A call is handed over and answered. -/
def exchange (n : Tally) (t : Nat) (c : Call) (ex : Exchange) (rest : List Exchange) : Tally :=
  { n with
    requests := n.requests + 1
    answers := rest
    calls := n.calls ++ [(t, c)]
    exchanges := n.exchanges ++ [(t, ex)] }

/-- A post ends. -/
def settle (n : Tally) (o : Outcome) : Tally :=
  { n with errors := n.errors + (Outcome.isCounted o).toNat }

end Tally

/-- An operation has nothing to do with counts, calls or answers. -/
def Effect.Quiet : Effect M → Prop
  | .trace _ | .log _ | .sessionSource | .settings | .pool => True
  | .updatePool f => ∀ p, (f p).requestCount = p.requestCount ∧ (f p).errorCount = p.errorCount
  | _ => False

theorem tally_of_quiet {op : Effect M} (quiet : op.Quiet) (t : Nat)
    (w : World M × ClientNotes M) : tally (Loop.noting World.handle t op w).2 = tally w := by
  cases op with
  | updatePool f =>
    obtain ⟨requests, errors⟩ := quiet w.1.pool
    simp [tally, Loop.noting, World.handle, Note.call?, Note.exchange?, requests, errors]
  | _ => first | exact quiet.elim | simp [tally, Loop.noting, World.handle, Note.call?, Note.exchange?]

section

variable (t : Nat) (w : World M × ClientNotes M)

theorem tally_countRequest :
    tally (Loop.noting World.handle t (Effect.updatePool Pool.countRequest) w).2 =
      { tally w with requests := (tally w).requests + 1 } := by
  simp [tally, Loop.noting, World.handle, Note.call?, Note.exchange?, Pool.countRequest]

theorem tally_countError :
    tally (Loop.noting World.handle t (Effect.updatePool Pool.countError) w).2 =
      { tally w with errors := (tally w).errors + 1 } := by
  simp [tally, Loop.noting, World.handle, Note.call?, Note.exchange?, Pool.countError]

theorem tally_record (call : Call) :
    tally (Loop.noting World.handle t (Effect.record call) w).2 =
      { tally w with calls := (tally w).calls ++ [(t, call)] } := by
  simp [tally, Loop.noting, World.handle, Note.call?, Note.exchange?]

theorem tally_receive :
    tally (Loop.noting World.handle t Effect.receive w).2 =
      { tally w with
        answers := (World.nextAnswer w.1.answers).2
        exchanges := (tally w).exchanges ++ [(t, (World.nextAnswer w.1.answers).1)] } := by
  simp [tally, Loop.noting, World.handle, Note.call?, Note.exchange?]

end

/-! ## Before there is a session -/

namespace Routine

/-- The routine ends as cancelled and does nothing before but give the lock back. -/
def Stops : Flow M → Prop
  | .done o => o = .error .cancelled
  | .release next => Stops next
  | _ => False

/-- The routine counts nothing, and ends with a value unless it is cancelled. -/
def Quiet : Flow M → Prop
  | .done o => ∃ v, o = .ok v
  | .perform op k => Effect.Quiet op ∧ ∀ reply, Quiet (k reply)
  | .sleep _ k => Quiet (k .resumed) ∧ Stops (k .cancelled)
  | .acquire k => Quiet (k .resumed) ∧ Stops (k .cancelled)
  | .release next => Quiet next
  | _ => False

/-- After a wait, something quiet is still to be done before a routine goes on. -/
structure Opens (f : Value → Flow M) (k : Wake → Flow M) : Prop where
  resumed : ∃ r, Quiet r ∧ k .resumed = r.onValue f
  cancelled : ∃ r, Stops r ∧ k .cancelled = r.onValue f

variable {f : Value → Flow M} {t : Nat} {P : Wait (effects M) → World M × ClientNotes M → Prop}
  {w : World M × ClientNotes M} {r : Flow M}

theorem Stops.reaches (stops : r.Stops) (stopped : P (.over (.error .cancelled)) w) :
    (r.onValue f).Reaches (Loop.noting World.handle) t P w := by
  induction r with
  | done o =>
    obtain rfl : o = .error .cancelled := stops
    exact stopped
  | release next ih => exact ih stops
  | _ => exact stops.elim

theorem Quiet.reaches (quiet : r.Quiet)
    (goesOn : ∀ v w', tally w' = tally w → (f v).Reaches (Loop.noting World.handle) t P w')
    (waits : ∀ k w', tally w' = tally w → Opens f k → P (.sleep k) w' ∧ P (.lock k) w') :
    (r.onValue f).Reaches (Loop.noting World.handle) t P w := by
  induction r generalizing w with
  | done o =>
    obtain ⟨v, rfl⟩ := quiet
    exact goesOn v w rfl
  | perform op k ih =>
    have same := tally_of_quiet quiet.1 t w
    exact ih _ (quiet.2 _) (fun v w' same' => goesOn v w' (same'.trans same))
      fun k w' same' => waits k w' (same'.trans same)
  | sleep d k _ => exact (waits _ w rfl ⟨⟨_, quiet.1, rfl⟩, _, quiet.2, rfl⟩).1
  | acquire k ih =>
    exact ⟨ih _ quiet.1 goesOn waits, (waits _ w rfl ⟨⟨_, quiet.1, rfl⟩, _, quiet.2, rfl⟩).2⟩
  | release next ih => exact ih quiet goesOn waits
  | _ => exact quiet.elim

theorem Stops.thenRelease (stops : r.Stops) : (r.andThen fun o => release (done o)).Stops := by
  induction r with
  | done o => exact stops
  | release next ih => exact ih stops
  | _ => exact stops.elim

theorem Quiet.thenRelease (quiet : r.Quiet) : (r.andThen fun o => release (done o)).Quiet := by
  induction r with
  | done o => exact quiet
  | perform op k ih => exact ⟨quiet.1, fun reply => ih reply (quiet.2 reply)⟩
  | sleep d k ih => exact ⟨ih _ quiet.1, quiet.2.thenRelease⟩
  | acquire k ih => exact ⟨ih _ quiet.1, quiet.2.thenRelease⟩
  | release next ih => exact ih quiet
  | _ => exact quiet.elim

theorem Quiet.withLock (quiet : r.Quiet) : (withLock r).Quiet := ⟨quiet.thenRelease, rfl⟩

end Routine

namespace Pooled

theorem quiet_unlessOpen {r : Flow M} (quiet : r.Quiet) : (unlessOpen r).Quiet := by
  refine ⟨trivial, fun pool => ?_⟩
  show Routine.Quiet (if Pool.isClosed pool then r else .ret .null)
  split
  · exact quiet
  · exact ⟨_, rfl⟩

theorem quiet_makeSession : (makeSession : Flow M).Quiet := by
  have made : Routine.Quiet (.perform (.updatePool Pool.openSession) fun _ => .ret .null : Flow M) :=
    ⟨fun _ => ⟨rfl, rfl⟩, fun _ => ⟨_, rfl⟩⟩
  refine ⟨trivial, fun source => ?_⟩
  cases source with
  | network => exact ⟨trivial, fun _ => made⟩
  | scripted delay? =>
    cases delay? with
    | none => exact made
    | some d => exact ⟨made, rfl⟩

theorem quiet_openSession : (openSession : Flow M).Quiet :=
  quiet_unlessOpen (quiet_unlessOpen quiet_makeSession).withLock

/-! ## With a session -/

/-- How a post goes on when it is answered. -/
def finish (url : Value) (start : Rat) : Except Failure Answer → Flow M
  | .error (.fault f) => if f.isHandled then refuse url f else .fail (.fault f)
  | .error e => .fail e
  | .ok (.respond r) => read url start r
  | .ok a => .done (Endpoint.plainOutcome (.ok a))

/-- Waits for an answer and goes on. -/
def awaitAnswer (k : Except Failure Answer → Flow M) (ex : Exchange) : Flow M :=
  match ex.delay? with
  | none => k (Endpoint.Answer.toExcept ex.answer)
  | some d => .sleep d fun
    | .resumed => k (Endpoint.Answer.toExcept ex.answer)
    | .cancelled => .perform (.trace "transport:cancelled") fun _ => k (.error .cancelled)

/-- A post that has a session hands its call over. -/
def handOver (c : Call) : Flow M :=
  .clock fun start => .perform (.updatePool Pool.countRequest) fun _ =>
    Endpoint.callThen c (finish c.url start)

theorem post_eq (c : Call) :
    (post c.url c.headers c.body : Flow M) = openSession.onValue fun _ => handOver c := rfl

/-- What a post that was answered ends with: the data of a response, an error of this library for a
response or a handled fault, the failure of reading an integer of a response, or another fault as it
is. -/
inductive Settles (url : Value) : Answer → Outcome → Prop
  | data {r v} : Response.isSuccess r.status = true → r.HasData v → Settles url (.respond r) (.ok v)
  | reported {r e} : e.Concerns url → Settles url (.respond r) (.error (.query e))
  | unread {r : Response} {digits} : Response.isSuccess r.status = true → r.LongInteger digits →
      Settles url (.respond r) (.error (.integerNotRead digits))
  | failed {f e} : f.isHandled = true → e.Concerns url → e.cause = some (.fault f) →
      Settles url (.refuse (.fault f)) (.error (.query e))
  | passed {f} : f.isHandled = false → Settles url (.refuse (.fault f)) (.error (.fault f))

end Pooled

/-- An answer comes from outside: a response whose headers are texts, or any fault. -/
def Answer.IsExternal : Answer → Prop
  | .respond r => TextValues r.headers
  | .refuse (.fault _) => True
  | _ => False

namespace Pooled

variable {t : Nat} {P : Wait (effects M) → World M × ClientNotes M → Prop}
  {w : World M × ClientNotes M}

theorem reaches_read {url : Value} {start : Rat} {r : Response} (texts : TextValues r.headers)
    (ends : ∀ o w', Settles url (.respond r) o → tally w' = (tally w).settle o → P (.over o) w') :
    (read url start r).Reaches (Loop.noting World.handle) t P w := by
  have counted (e : Failure) (isCounted : Outcome.isCounted (.error e) = true)
      (settles : Settles url (.respond r) (.error e)) (error : r.data url = .error e) :
      (read url start r).Reaches (Loop.noting World.handle) t P w := by
    rw [read, error]
    refine fun now => ends _ _ settles ((tally_countError t _).trans ?_)
    rw [tally_of_quiet (by trivial), Tally.settle, isCounted]
    rfl
  rcases r.data_spec url texts with
    ⟨v, ok, success, data⟩ | ⟨e, error, concerns⟩ | ⟨digits, error, success, long⟩
  · rw [read, ok]
    exact fun now => ends _ _ (.data success data) (tally_of_quiet (by trivial) t w)
  · exact counted _ rfl (.reported concerns) error
  · exact counted _ rfl (.unread success long) error

theorem reaches_refuse {url : Value} {f : Fault} (handled : f.isHandled = true)
    (ends : ∀ o w', Settles url (.refuse (.fault f)) o → tally w' = (tally w).settle o →
      P (.over o) w') :
    (refuse url f).Reaches (Loop.noting World.handle) t P w := by
  let counted := (Loop.noting World.handle t (Effect.updatePool Pool.countError) w).2
  let logged := (Loop.noting World.handle t (Effect.log ⟨Stock.warningLevel, loggerName,
    "GraphQL request to " ++ url.display ++ " failed: " ++ f.shown⟩) counted).2
  let settings := (Loop.noting World.handle t Effect.settings logged).1
  let asked := (Loop.noting World.handle t Effect.settings logged).2
  obtain ⟨e, made, concerns⟩ := QueryError.ofFailure_concerns f url (.float settings.timeout)
  have same : tally asked = { tally w with errors := (tally w).errors + 1 } := by
    rw [tally_of_quiet (by trivial), tally_of_quiet (by trivial), tally_countError]
  have raised := ends (.error (.query { e with cause := some (.fault f) })) asked
    (.failed handled ⟨concerns.cls, concerns.url⟩ rfl) same
  simp only [refuse, log, Routine.Reaches]
  rw [made]
  exact raised

/-- When a post ends, nothing but its own error is counted. -/
theorem reaches_finish {url : Value} {start : Rat} {a : Answer} (external : a.IsExternal)
    (ends : ∀ o w', Settles url a o → tally w' = (tally w).settle o → P (.over o) w') :
    (finish url start (Endpoint.Answer.toExcept a)).Reaches (Loop.noting World.handle) t P w := by
  cases a with
  | data v => exact external.elim
  | respond r => exact reaches_read external ends
  | refuse error =>
    cases error with
    | fault f =>
      show (finish url start (.error (.fault f))).Reaches _ t P w
      rw [finish]
      split
      · rename_i handled
        exact reaches_refuse handled ends
      · rename_i unhandled
        exact ends _ _ (.passed (eq_false_of_ne_true unhandled)) rfl
    | _ => exact external.elim

/-- A post hands its call over and receives an answer, for which it may have to wait. -/
theorem reaches_handOver {c : Call} {ex : Exchange} {rest : List Exchange}
    (next : World.nextAnswer w.1.answers = (ex, rest)) (external : ex.answer.IsExternal)
    (waits : ∀ d k start w', ex.delay? = some d →
      k .resumed = finish c.url start (Endpoint.Answer.toExcept ex.answer) →
      k .cancelled = .perform (.trace "transport:cancelled") (fun _ => .fail .cancelled) →
      tally w' = (tally w).exchange t c ex rest → P (.sleep k) w')
    (ends : ∀ o w', Settles c.url ex.answer o →
      tally w' = ((tally w).exchange t c ex rest).settle o → P (.over o) w') :
    (handOver c).Reaches (Loop.noting World.handle) t P w := by
  intro start
  let counted := (Loop.noting World.handle t (Effect.updatePool Pool.countRequest) w).2
  let recorded := (Loop.noting World.handle t (Effect.record c) counted).2
  let traced := (Loop.noting World.handle t (Effect.trace "transport") recorded).2
  let answered := (Loop.noting World.handle t Effect.receive traced).2
  have same : tally answered = (tally w).exchange t c ex rest := by
    rw [tally_receive, show traced.1.answers = w.1.answers from rfl, next, tally_of_quiet (by trivial),
      tally_record, tally_countRequest]
    rfl
  have reply : (World.nextAnswer traced.1.answers).1 = ex := congrArg Prod.fst next
  show Routine.Reaches _ t P (awaitAnswer (finish c.url start) (World.nextAnswer traced.1.answers).1)
    answered
  rw [reply]
  unfold awaitAnswer
  split
  · refine reaches_finish external fun o w' settles ended => ends o w' settles (same ▸ ended)
  · rename_i d delay
    exact waits d _ start answered delay rfl rfl same

end Pooled

end GraphClient
