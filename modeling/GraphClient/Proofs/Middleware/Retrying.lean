import Mathlib.Algebra.BigOperators.Group.List.Basic
import GraphClient.Proofs.Client.Alone
import GraphClient.Proofs.Flow.Sequence
import GraphClient.Proofs.Middleware.Transparency

/-!
# Middleware that tries again

A middleware that runs the rest of the chain again after an error, up to a number of times, around
others that do so too, multiplies the attempts.

* `LastCall`: which call is the last one of so many attempts, counted from a call on.
* `Tries`: a middleware makes up to a number of attempts. One attempt just passes the outcome on.
* `Routine.Serves`: a routine calls the last step of the chain until a value or until so many calls.
  `Serves.tries`: such middleware multiplies the calls.
* `Middleware.attempts`: the stock middleware and the scripts that are of this kind.
* `run_retrying`: how often a request is sent over the direct transport, and what the run ends with.
-/

namespace GraphClient

variable {E : Effects} {W M : Type}

/-- From the call `n` on, at most `attempts` calls are made until one of them answers a value. The call `m`
is the last one. -/
structure LastCall (answer : Nat → Outcome) (attempts n m : Nat) : Prop where
  from_le : n ≤ m
  lt : m < n + attempts
  errors : ∀ i, n ≤ i → i < m → (answer i).isOk = false
  ends : (answer m).isOk = true ∨ m + 1 = n + attempts

namespace LastCall

variable {answer : Nat → Outcome} {attempts more n m m' : Nat}

theorem single (answer : Nat → Outcome) (n : Nat) : LastCall answer 1 n n :=
  ⟨Nat.le_refl n, Nat.lt_succ_self n, fun _ _ _ => by omega, .inr rfl⟩

/-- After a value no more attempts are made. -/
theorem of_value (h : LastCall answer attempts n m) (value : (answer m).isOk = true)
    (le : attempts ≤ more) : LastCall answer more n m :=
  ⟨h.from_le, by have := h.lt; omega, h.errors, .inl value⟩

/-- After an error the calls go on where they ended. -/
theorem trans (h : LastCall answer attempts n m) (error : (answer m).isOk = false)
    (h' : LastCall answer more (m + 1) m') : LastCall answer (more + attempts) n m' := by
  have last : m + 1 = n + attempts := h.ends.resolve_left (error ▸ Bool.false_ne_true)
  refine ⟨by have := h.from_le; have := h'.from_le; omega, by have := h'.lt; omega,
    fun i le lt => ?_, h'.ends.imp_right fun same => by omega⟩
  rcases Nat.lt_trichotomy i m with early | rfl | late
  · exact h.errors i le early
  · exact error
  · exact h'.errors i late lt

/-- Where the first value is the answer to the call `j` from there on, that call is the last one, if there
are as many attempts. -/
theorem eq_min {j : Nat} (h : LastCall answer attempts n m) (value : (answer (n + j)).isOk = true)
    (first : ∀ i < j, (answer (n + i)).isOk = false) : m + 1 = n + min (j + 1) attempts := by
  obtain ⟨i, rfl⟩ := Nat.exists_eq_add_of_le h.from_le
  have lt := h.lt
  have le : i ≤ j := by
    by_contra later
    have error := h.errors (n + j) (Nat.le_add_right n j) (by omega)
    rw [value] at error
    cases error
  rcases h.ends with value' | all
  · rcases Nat.lt_or_ge i j with early | late
    · have error := first i early
      rw [value'] at error
      cases error
    · omega
  · omega

/-- Without a value, all attempts are made. -/
theorem eq_attempts (h : LastCall answer attempts n m) (errors : ∀ i, (answer (n + i)).isOk = false) :
    m + 1 = n + attempts := by
  obtain ⟨i, rfl⟩ := Nat.exists_eq_add_of_le h.from_le
  exact h.ends.resolve_left (errors i ▸ Bool.false_ne_true)

end LastCall

section

variable (handler : Handler E W) (scope : Nat) (J : W → Prop) (calls : W → Nat)

/-- The operation is no call of the last step, and keeps what is assumed of the world. -/
def Harmless (op : E.Op) : Prop :=
  ∀ w, J w → J (handler scope op w).2 ∧ calls (handler scope op w).2 = calls w

/-- The routine ends with an outcome, and calls nothing before. -/
inductive Routine.Yields (o : Outcome) : Routine E → Prop
  | done : Yields o (.done o)
  | perform {op k} : Harmless handler scope J calls op →
      (∀ w, J w → Yields o (k (handler scope op w).1)) → Yields o (.perform op k)
  | clock {k} : (∀ now, Yields o (k now)) → Yields o (.clock k)
  | sleep {d k} : Yields o (k .resumed) → Yields o (.sleep d k)

/-- A middleware waits for the rest of the chain, and again after each error, up to a number of times. It
ends with a value at once, and with the error of the last attempt. -/
inductive Tries : Nat → (Routine E → Routine E) → Prop
  | perform {c op} {f : E.Reply op → Routine E → Routine E} : Harmless handler scope J calls op →
      (∀ w, J w → Tries c (f (handler scope op w).1)) →
      Tries c fun next => .perform op fun reply => f reply next
  | clock {c} {f : Rat → Routine E → Routine E} : (∀ now, Tries c (f now)) →
      Tries c fun next => .clock fun now => f now next
  | sleep {c d} {f : Wake → Routine E → Routine E} : Tries c (f .resumed) →
      Tries c fun next => .sleep d fun wake => f wake next
  | last {f : Outcome → Routine E → Routine E} :
      (∀ v next, Routine.Yields handler scope J calls (.ok v) (f (.ok v) next)) →
      (∀ e, e.isError = true → ∀ next,
        Routine.Yields handler scope J calls (.error e) (f (.error e) next)) →
      Tries 1 fun next => next.andThen fun outcome => f outcome next
  | again {c} {f : Outcome → Routine E → Routine E} :
      (∀ v next, Routine.Yields handler scope J calls (.ok v) (f (.ok v) next)) →
      (∀ e, e.isError = true → Tries c (f (.error e))) →
      Tries (c + 1) fun next => next.andThen fun outcome => f outcome next

/-- The routine calls the last step of a chain until it answers a value, at most a number of times, and
ends with the last answer. -/
def Routine.Serves (answer : Nat → Outcome) (attempts : Nat) (r : Routine E) : Prop :=
  ∀ s : Situation W, J s.world →
    ∃ m s', LastCall answer attempts (calls s.world) m ∧
      evaluate handler scope r s = .over (answer m) s' ∧ J s'.world ∧ calls s'.world = m + 1

end

variable {handler : Handler E W} {scope : Nat} {J : W → Prop} {calls : W → Nat}
  {answer : Nat → Outcome}

theorem Routine.Yields.evaluate {o : Outcome} {r : Routine E} (h : r.Yields handler scope J calls o)
    {s : Situation W} (hs : J s.world) :
    ∃ s', Routine.evaluate handler scope r s = .over o s' ∧ J s'.world ∧
      calls s'.world = calls s.world := by
  induction h generalizing s with
  | done => exact ⟨s, rfl, hs, rfl⟩
  | @perform op k harmless _ ih =>
    obtain ⟨kept, same⟩ := harmless s.world hs
    obtain ⟨s', came, hs', called⟩ :=
      ih s.world hs (s := { s with world := (handler scope op s.world).2 }) kept
    exact ⟨s', came, hs', called.trans same⟩
  | clock _ ih => exact ih s.now hs
  | @sleep d k _ ih =>
    exact ih (s := { s with now := if d ≤ 0 then s.now else s.now + d }) hs

/-- Around a routine that makes up to a number of calls, such middleware makes so many for each attempt. -/
theorem Routine.Serves.tries {c attempts : Nat} {f : Routine E → Routine E} {r : Routine E}
    (h : Tries handler scope J calls c f) (serves : r.Serves handler scope J calls answer attempts)
    (counts : ∀ i e, answer i = .error e → e.isError = true) :
    (f r).Serves handler scope J calls answer (c * attempts) := by
  -- After the call `m`, a middleware goes on with its answer.
  have called (f : Outcome → Routine E → Routine E) {s : Situation W} (hs : J s.world) :
      ∃ m s₁, LastCall answer attempts (calls s.world) m ∧
        evaluate handler scope (r.andThen fun outcome => f outcome r) s =
          evaluate handler scope (f (answer m) r) s₁ ∧ J s₁.world ∧ calls s₁.world = m + 1 := by
    obtain ⟨m, s₁, call, came, rest⟩ := serves s hs
    exact ⟨m, s₁, call, by rw [evaluate_andThen, came, Ending.andThen], rest⟩
  induction h with
  | perform harmless _ ih =>
    intro s hs
    obtain ⟨kept, same⟩ := harmless s.world hs
    exact same ▸ ih s.world hs { s with world := (handler scope _ s.world).2 } kept
  | clock _ ih => exact fun s => ih s.now s
  | @sleep _ d f _ ih => exact fun s => ih { s with now := if d ≤ 0 then s.now else s.now + d }
  | @last f value error =>
    intro s hs
    obtain ⟨m, s₁, call, first, hs₁, after⟩ := called f hs
    have passedOn : (f (answer m) r).Yields handler scope J calls (answer m) := by
      cases e : answer m with
      | ok v => exact value v r
      | error e' => exact error e' (counts m e' e) r
    obtain ⟨s', ended, hs', same⟩ := passedOn.evaluate hs₁
    exact ⟨m, s', by rwa [Nat.one_mul], first.trans ended, hs', same.trans after⟩
  | @again c f value _ ih =>
    intro s hs
    obtain ⟨m, s₁, call, first, hs₁, after⟩ := called f hs
    cases e : answer m with
    | ok v =>
      obtain ⟨s', ended, hs', same⟩ := (value v r).evaluate hs₁
      refine ⟨m, s', call.of_value (e ▸ rfl) (Nat.le_mul_of_pos_left _ c.succ_pos), ?_, hs',
        same.trans after⟩
      rw [first, e, ended]
    | error e' =>
      obtain ⟨m', s', call', ended, rest⟩ := ih e' (counts m e' e) s₁ hs₁
      refine ⟨m', s', ?_, first.trans (e ▸ ended), rest⟩
      rw [Nat.succ_mul]
      exact call.trans (e ▸ rfl) (after ▸ call')

/-- A chain of programs that try again multiplies their attempts. -/
theorem Routine.Serves.foldr {behaviour : M → Routine E → Routine E} {attempts : M → Nat} {ms : List M}
    {r : Routine E} (tries : ∀ m ∈ ms, Tries handler scope J calls (attempts m) (behaviour m))
    (serves : r.Serves handler scope J calls answer 1)
    (counts : ∀ i e, answer i = .error e → e.isError = true) :
    (ms.foldr behaviour r).Serves handler scope J calls answer (ms.map attempts).prod := by
  induction ms with
  | nil => exact serves
  | cons m ms ih =>
    rw [List.foldr_cons, List.map_cons, List.prod_cons]
    exact .tries (tries m List.mem_cons_self) (ih fun m mem => tries m (List.mem_cons_of_mem _ mem)) counts

/-- Middleware that just waits for the rest of the chain. -/
theorem Tries.passingOn : Tries handler scope J calls 1 fun next => next := by
  have ends : Tries handler scope J calls 1 fun next => next.andThen .done :=
    .last (f := fun outcome _ => .done outcome) (fun _ _ => .done) fun _ _ _ => .done
  rwa [funext Routine.andThen_done] at ends

/-! ## Over the direct transport -/

/-- The last answer repeats. -/
theorem World.answerAt_singleton (last : Exchange) (k : Nat) : answerAt [last] k = last := by
  induction k with
  | zero => rfl
  | succ k ih => exact ih

/-- What the direct transport ends with on the call `k` from now on. -/
def World.outcomeAt (answers : List Exchange) (k : Nat) : Outcome :=
  Endpoint.plainOutcome (Endpoint.Answer.toExcept (answerAt answers k).answer)

/-- After some calls, the direct transport answers as given from now on, and the request of a run is of a
kind. -/
structure Serving (scope : Nat) (kind : Request → Prop) (base : Nat) (answers : List Exchange)
    (w : World M) : Prop where
  direct : w.transport = .direct
  request : kind (w.requestOf scope)
  from_le : base ≤ w.calls.length
  upcoming : ∀ i, World.answerAt w.answers i = World.answerAt answers (w.calls.length - base + i)

variable {kind : Request → Prop} {base : Nat} {answers : List Exchange}

/-- A call is answered, and the next one is up. -/
theorem Serving.called {w w' : World M} (h : Serving scope kind base answers w)
    (transport : w'.transport = w.transport) (request : w'.requestOf scope = w.requestOf scope)
    (calls : w'.calls.length = w.calls.length + 1)
    (rest : w'.answers = (World.nextAnswer w.answers).2) : Serving scope kind base answers w' := by
  have le := h.from_le
  refine ⟨transport.trans h.direct, request ▸ h.request, by omega, fun i => ?_⟩
  rw [rest, show w'.calls.length - base + i = w.calls.length - base + (i + 1) by omega]
  exact h.upcoming (i + 1)

/-- Sending a request makes one call. -/
theorem serves_send (sends : ∀ r, kind r → ∃ body, r.body = .ok body) :
    (Client.send (M := M)).Serves World.handle scope (Serving scope kind base answers)
      (·.calls.length) (fun k => World.outcomeAt answers (k - base)) 1 := by
  intro s hs
  obtain ⟨body, found⟩ := sends _ hs.request
  let w := s.world
  let call : Call := ⟨(w.requestOf scope).url, (w.requestOf scope).headers, body⟩
  let w' : World M := { w with
    calls := w.calls ++ [call], trace := w.trace ++ ["transport"],
    answers := (World.nextAnswer w.answers).2, transport := .direct }
  have length : w'.calls.length = w.calls.length + 1 := List.length_append
  have answered : World.outcomeAt answers (w.calls.length - base) =
      Endpoint.plainOutcome (Endpoint.Answer.toExcept (World.nextAnswer w.answers).1.answer) := by
    unfold World.outcomeAt
    rw [← Nat.add_zero (_ - _), ← hs.upcoming 0]
    rfl
  have after : Serving scope kind base answers w' := hs.called hs.direct.symm rfl length rfl
  obtain ⟨now, ends⟩ : ∃ now, Routine.evaluate World.handle scope (Client.send (M := M)) s =
      .over (World.outcomeAt answers (w.calls.length - base)) { s with now := now, world := w' } := by
    simp only [Client.send, Routine.evaluate, World.handle, found, Transport.post, hs.direct,
      Endpoint.callThen, Endpoint.answerThen, answered]
    cases (World.nextAnswer s.world.answers).1.delay? with
    | none => exact ⟨s.now, rfl⟩
    | some d => exact ⟨if d ≤ 0 then s.now else s.now + d, rfl⟩
  exact ⟨w.calls.length, _, .single _ _, ends, after, length⟩

/-! ## Scripts that try again -/

/-- The request asks a text and can be sent. -/
def Request.IsReady (r : Request) : Prop := (∃ text, r.query = .text text) ∧ ∃ body, r.body = .ok body

/-- The step has no result, and changes at most the headers of the request. -/
def Step.isQuiet : Step → Bool
  | .log _ | .header .. | .dropHeader _ | .sleep _ | .show => true
  | _ => false

/-- How often a step waits for the rest of the chain. -/
def Step.attempts? : Step → Option Nat
  | .next => some 1
  | .retry (count + 1) => some (count + 1)
  | _ => none

/-- How often a script waits for the rest of the chain, if it does little else. -/
def Script.attempts? : List Step → Option Nat
  | [] => none
  | step :: steps =>
    if step.isQuiet then attempts? steps
    else if steps.all Step.isQuiet then step.attempts? else none

/-- How often a middleware waits for the rest of the chain, if it does little else. -/
def Middleware.attempts? : Middleware → Option Nat
  | header _ | logging .. => some 1
  | script _ _ steps => Script.attempts? steps
  | _ => none

section

variable (scope : Nat) (base : Nat) (answers : List Exchange)

/-- The operation is no call, and the request stays ready to be sent. -/
abbrev Effect.IsHarmless (op : Effect Middleware) : Prop :=
  Harmless (E := effects Middleware) World.handle scope (Serving scope Request.IsReady base answers)
    (·.calls.length) op

/-- The routine ends with an outcome, without a call. -/
abbrev Concludes (o : Outcome) (r : Flow Middleware) : Prop :=
  Routine.Yields World.handle scope (Serving scope Request.IsReady base answers) (·.calls.length) o r

/-- The middleware makes so many attempts to send a request that is ready. -/
abbrev Attempts (count : Nat) (f : Flow Middleware → Flow Middleware) : Prop :=
  Tries World.handle scope (Serving scope Request.IsReady base answers) (·.calls.length) count f

variable {scope base answers}

theorem isHarmless_trace (line : String) : Effect.IsHarmless scope base answers (.trace line) :=
  fun _ h => ⟨⟨h.direct, h.request, h.from_le, h.upcoming⟩, rfl⟩

theorem isHarmless_log (entry : LogEntry) : Effect.IsHarmless scope base answers (.log entry) :=
  fun _ h => ⟨⟨h.direct, h.request, h.from_le, h.upcoming⟩, rfl⟩

theorem isHarmless_request : Effect.IsHarmless scope base answers .request := fun _ h => ⟨h, rfl⟩

/-- The headers of a request are not in its body. -/
theorem isHarmless_edit (f : Headers → Headers) :
    Effect.IsHarmless scope base answers (.edit fun r => { r with headers := f r.headers }) := by
  refine fun w h => ⟨⟨h.direct, ?_, h.from_le, h.upcoming⟩, rfl⟩
  have edited := w.requestOf_setRequest_self scope
    { w.requestOf scope with headers := f (w.requestOf scope).headers }
  exact edited.symm ▸ h.request

namespace Script

/-- What holds of the rest of a script holds before a quiet step, if it does before harmless operations
and sleep. -/
theorem of_quiet {P : (Flow Middleware → Flow Middleware) → Prop}
    (perform : ∀ (op : Effect Middleware) (f : op.Reply → Flow Middleware → Flow Middleware),
      op.IsHarmless scope base answers → (∀ reply, P (f reply)) →
      P fun next => .perform op fun reply => f reply next)
    (sleep : ∀ d (f : Wake → Flow Middleware → Flow Middleware), P (f .resumed) →
      P fun next => .sleep d fun wake => f wake next)
    {step : Step} (quiet : step.isQuiet = true) {name : String} {waits : Bool} {steps : List Step}
    {v : Value} (rest : P fun next => run name waits next steps v) :
    P fun next => run name waits next (step :: steps) v := by
  have one (op : Effect Middleware) (harmless : op.IsHarmless scope base answers) :
      P fun next => .perform op fun _ => run name waits next steps v :=
    perform op (fun _ next => run name waits next steps v) harmless fun _ => rest
  cases step with
  | log text => exact one _ (isHarmless_trace _)
  | header name' v' => exact one _ (isHarmless_edit _)
  | dropHeader name' => exact one _ (isHarmless_edit _)
  | «show» =>
    exact perform .request (fun r next => .perform (.trace (name ++ ":" ++ showRequest r)) fun _ =>
      run name waits next steps v) isHarmless_request fun r => one _ (isHarmless_trace _)
  | sleep d => exact sleep d _ rest
  | _ => cases quiet

/-- Quiet steps at the end of a script leave its result. -/
theorem concludes (name : String) (waits : Bool) (next : Flow Middleware) {steps : List Step}
    (quiet : steps.all Step.isQuiet = true) (v : Value) :
    Concludes scope base answers (.ok v) (run name waits next steps v) := by
  induction steps generalizing next with
  | nil => exact .done
  | cons step steps ih =>
    obtain ⟨first, rest⟩ := Bool.and_eq_true_iff.1 quiet
    exact of_quiet (P := fun f => ∀ next, Concludes scope base answers (.ok v) (f next))
      (fun _ _ harmless h next => .perform harmless fun _ _ => h _ next)
      (fun _ _ h next => .sleep (h next)) first (fun next => ih next rest) next

theorem attempts_retry (name : String) {k : Value → Flow Middleware → Flow Middleware}
    (ends : ∀ v next, Concludes scope base answers (.ok v) (k v next)) (left i : Nat) (v : Value) :
    Attempts scope base answers (left + 1) fun next =>
      retry name next (fun v => k v next) (left + 1) i v := by
  induction left generalizing i v with
  | zero =>
    refine Tries.last (fun v next => ends v next) fun e counts next => ?_
    simp only [if_pos counts]
    exact .perform (isHarmless_trace _) fun _ _ => .done
  | succ left ih =>
    refine Tries.again (fun v next => ends v next) fun e counts => ?_
    simp only [if_pos counts, if_neg left.succ_ne_zero]
    exact .perform (isHarmless_trace _) fun _ _ => ih (i + 1) v

/-- A script makes as many attempts as its steps say. -/
theorem attempts (name : String) (waits : Bool) {steps : List Step} {count : Nat}
    (found : attempts? steps = some count) (v : Value) :
    Attempts scope base answers count fun next => run name waits next steps v := by
  induction steps with
  | nil => cases found
  | cons step steps ih =>
    simp only [attempts?] at found
    split_ifs at found with quiet rest
    · exact of_quiet (fun _ _ harmless h => .perform harmless fun _ _ => h _) (fun _ _ h => .sleep h)
        quiet (ih found)
    · have ends (v : Value) (next : Flow Middleware) :
          Concludes scope base answers (.ok v) (run name waits next steps v) :=
        concludes name waits next rest v
      cases step with
      | next =>
        obtain rfl := Option.some.inj found
        cases waits with
        | true => exact .last (fun v next => ends v next) fun _ _ _ => .done
        | false => exact .passingOn
      | retry count' =>
        cases count' with
        | zero => cases found
        | succ left =>
          obtain rfl := Option.some.inj found
          exact attempts_retry name ends left 0 v
      | _ => cases found

end Script

theorem attempts_logging (logger : String) (level : Int) :
    Attempts scope base answers 1 (Stock.logging logger level) := by
  refine .perform isHarmless_request fun w h => ?_
  obtain ⟨text, asks⟩ := h.request.1
  simp only [World.handle, asks, Stock.operationName]
  refine .clock fun start => .perform (isHarmless_log _) fun _ _ =>
    .last (fun v next => ?_) fun e counts next => ?_
  · exact .clock fun _ => .perform (isHarmless_log _) fun _ _ => .done
  · simp only [if_pos counts]
    exact .clock fun _ => .perform (isHarmless_log _) fun _ _ => .done

/-- A middleware makes as many attempts as it says. -/
theorem Middleware.attempts {m : Middleware} {count : Nat} (found : m.attempts? = some count) :
    Attempts scope base answers count (behaviour m) := by
  cases m with
  | header headers =>
    obtain rfl := Option.some.inj found
    exact .perform (isHarmless_edit (Pairs.merge · headers)) fun _ _ => .passingOn
  | logging logger level =>
    obtain rfl := Option.some.inj found
    exact attempts_logging logger level
  | script name waits steps => exact Script.attempts name waits found .null
  | _ => cases found

end

/-- Sent over the direct transport through a chain of middleware that try again, a request is sent until the
first value, but not more often than the product of the attempts. The run ends with that value or with
the error of the last call. -/
theorem run_retrying (behaviour : M → Flow M → Flow M) (attempts : M → Nat) (ms : List M)
    (kind : Request → Prop) (scope : Nat) (l : ClientLoop M) (idle : l.Idle)
    (direct : l.world.transport = .direct) (request : kind (l.world.requestOf scope))
    (sends : ∀ r, kind r → ∃ body, r.body = .ok body)
    (tries : ∀ m ∈ ms, Tries World.handle scope
      (Serving scope kind l.world.calls.length l.world.answers) (·.calls.length) (attempts m)
      (behaviour m))
    (counts : ∀ k e, World.outcomeAt l.world.answers k = .error e → e.isError = true) :
    let answer := World.outcomeAt l.world.answers
    let most := (ms.map attempts).prod
    ∃ l' o, l.run World.handle (DispatchChain.mk ms behaviour Client.send).dispatch scope =
        (l', some o) ∧
      (∀ j, (answer j).isOk = true → (∀ i < j, (answer i).isOk = false) →
        l'.world.calls.length = l.world.calls.length + min (j + 1) most ∧
        o = if j < most then answer j else answer (most - 1)) ∧
      ((∀ i, (answer i).isOk = false) →
        l'.world.calls.length = l.world.calls.length + most ∧ o = answer (most - 1)) := by
  intro answer most
  let n := l.world.calls.length
  have serves : (ms.foldr behaviour Client.send).Serves World.handle scope
      (Serving scope kind n l.world.answers) (·.calls.length) (fun k => answer (k - n)) most :=
    (serves_send sends).foldr tries fun i e => counts (i - n) e
  have fresh : Serving scope kind n l.world.answers l.world :=
    ⟨direct, request, Nat.le_refl n, fun i => by rw [Nat.sub_self, Nat.zero_add]⟩
  obtain ⟨m, s, last, came, -, called⟩ := serves l.situation fresh
  have call : LastCall (fun k => answer (k - n)) most n m := last
  obtain ⟨l', ran, -, world⟩ := idle.run_of_evaluate came
  have composed : (DispatchChain.mk ms behaviour Client.send).dispatch =
      ms.foldr behaviour Client.send := DispatchChain.call_eq_foldr _ 0
  have made : l'.world.calls.length = m + 1 := world ▸ called
  have shifted (i : Nat) : answer (n + i - n) = answer i := by rw [Nat.add_sub_cancel_left]
  refine ⟨l', answer (m - n), composed ▸ ran, fun j value first => ?_, fun errors => ?_⟩
  · have last : m + 1 = n + min (j + 1) most :=
      call.eq_min ((congrArg _ (shifted j)).trans value) fun i lt =>
        (congrArg _ (shifted i)).trans (first i lt)
    refine ⟨made.trans last, ?_⟩
    split
    · rw [show m - n = j by omega]
    · rw [show m - n = most - 1 by omega]
  · have last : m + 1 = n + most := call.eq_attempts fun i =>
      (congrArg _ (shifted i)).trans (errors i)
    exact ⟨made.trans last, by rw [show m - n = most - 1 by omega]⟩

/-- A client whose endpoint is not found four times, and answers then. -/
def hiddenClient : ClientLoop Middleware :=
  let address : Value := .text "https://api.example.com/graphql"
  let missing : Exchange := ⟨none, .refuse (.own .notFound "not found" 404)⟩
  .initial (World.setRequest
    (Client.make address [] .direct .default
      [missing, missing, missing, missing, ⟨some 1, .data (.text "found")⟩] .network) 0
    ⟨address, .text "{ a }", [], .null⟩)

/-- Two times three attempts find the endpoint at the fifth. -/
theorem run_retrying_hiddenClient :
    ∃ l', hiddenClient.run World.handle
        (DispatchChain.mk [.script "outer" true [.retry 2], .header [("h", .text "v")],
          .script "inner" true [.log "up", .retry 3]] Middleware.behaviour Client.send).dispatch 0 =
        (l', some (.ok (.text "found"))) ∧ l'.world.calls.length = 5 := by
  let chain : List Middleware := [.script "outer" true [.retry 2], .header [("h", .text "v")],
    .script "inner" true [.log "up", .retry 3]]
  have errors (k : Nat) (e : Failure)
      (came : World.outcomeAt hiddenClient.world.answers k = .error e) : e.isError = true := by
    match k with
    | 0 | 1 | 2 | 3 =>
      obtain rfl := Except.error.inj came
      rfl
    | k + 4 =>
      have last : World.outcomeAt hiddenClient.world.answers (k + 4) = .ok (.text "found") :=
        congrArg (fun ex : Exchange => Endpoint.plainOutcome (Endpoint.Answer.toExcept ex.answer))
          (World.answerAt_singleton ⟨some 1, .data (.text "found")⟩ k)
      rw [last] at came
      cases came
  have tries : ∀ m ∈ chain, Attempts 0 0 hiddenClient.world.answers (m.attempts?.getD 1) m.behaviour := by
    have known : ∀ m ∈ chain, m.attempts?.isSome = true := by decide
    intro m mem
    obtain ⟨count, found⟩ := Option.isSome_iff_exists.1 (known m mem)
    rw [found]
    exact Middleware.attempts found
  obtain ⟨l', o, ran, found, -⟩ := run_retrying Middleware.behaviour (·.attempts?.getD 1) chain
    Request.IsReady 0 hiddenClient ⟨rfl, rfl, rfl⟩ rfl ⟨⟨_, rfl⟩, ⟨_, rfl⟩⟩ (fun _ ready => ready.2)
    tries errors
  obtain ⟨calls, rfl⟩ := found 4 rfl (by decide)
  exact ⟨l', ran, calls⟩

end GraphClient
