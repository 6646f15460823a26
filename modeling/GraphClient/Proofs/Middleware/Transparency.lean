import GraphClient.Proofs.Flow.Lockstep
import GraphClient.Proofs.Flow.Sequence
import GraphClient.Proofs.Middleware.Contexts
import GraphClient.Proofs.Middleware.Deadlines

/-!
# Middleware that only watches

A middleware that logs, or a time limit that does not pass, may stand anywhere in a chain: the run ends
as it did without. For a time limit this takes more. The rest of the chain runs as a task of its own
inside, with a copy of the context and between the turns of other tasks.

* `Loop.Throughout`: a condition on the world holds after every operation of a run.
* `OnlyLogged`: two worlds differ in nothing but log records that were added.
* `Stock.logs_logProgram`: the rest of a chain mirrors itself with the logging middleware around it.
* `Covers`: a routine comes to what another one comes to, unless a limit passes.
  `Stock.covers_limitProgram`: so it is with a time limit around the rest.
* `run_inserted`: what an inserted middleware makes of a run.
* `run_limited_differs`: when a time limit is noticed that does not pass.
-/

namespace GraphClient

variable {E : Effects} {W W' C M N : Type}

namespace Loop

/-- Does what a handler does, and keeps track of whether a condition on the world has held all along. -/
def watching (P : W → Bool) (handler : Handler E W) : Handler E (W × Bool) := fun scope op w =>
  ((handler scope op w.1).1, (handler scope op w.1).2, w.2 && P (handler scope op w.1).2)

/-- The loop that keeps track of a condition from now on. -/
def watched (P : W → Bool) (l : Loop E W) : Loop E (W × Bool) :=
  ⟨l.now, (l.world, P l.world), l.tasks, l.ready, l.timers, l.lock⟩

/-- The condition holds when the run of a routine starts, and after every operation until it ends. -/
def Throughout (handler : Handler E W) (P : W → Bool) (r : Routine E) (scope : Nat) (l : Loop E W) :
    Prop :=
  ((l.watched P).run (watching P handler) r scope).1.world.2 = true

variable {handler : Handler E W} {P : W → Bool}

theorem lasting_watching : Lasting (watching P handler) fun w => w.2 = true :=
  fun _ _ _ held => (Bool.and_eq_true_iff.1 held).1

/-- Watched, a run ends as it does unwatched. -/
theorem run_watched {r : Routine E} {scope : Nat} {l l₁ : Loop E W} {o : Outcome}
    (ran : l.run handler r scope = (l₁, some o)) :
    ∃ l₂, (l.watched P).run (watching P handler) r scope = (l₂, some o) ∧ l₂.now = l₁.now ∧
      l₂.world.1 = l₁.world := by
  have self (scope : Nat) (r : Routine E) :
      Routine.Mirrors handler (watching P handler) (fun _ => True) (fun w w' => w'.1 = w) scope r r :=
    .self (fun op w w' same _ => by subst same; exact ⟨rfl, rfl⟩) r
  have alike : Loop.Mirrors handler (watching P handler) (fun _ => True) (fun w w' => w'.1 = w) l
      (l.watched P) := mirrors_self rfl self
  obtain ⟨l₂, ran', m⟩ := alike.run (fun _ _ _ _ => trivial) (self scope r) ran trivial
  exact ⟨l₂, ran', m.now, m.world⟩

end Loop

/-! ## Logging -/

/-- The second world differs from the first one in nothing but log records that were added. -/
structure OnlyLogged (w w' : World M) : Prop where
  added : w.logs.Sublist w'.logs
  same : w' = { w with logs := w'.logs }

namespace World

/-- The query of a run's request is a text. -/
def asksText (scope : Nat) (w : World M) : Bool :=
  match (w.requestOf scope).query with
  | .text _ => true
  | _ => false

end World

namespace OnlyLogged

variable {w w' : World M}

theorem refl (w : World M) : OnlyLogged w w := ⟨List.Sublist.refl _, rfl⟩

theorem requestOf (h : OnlyLogged w w') (scope : Nat) : w'.requestOf scope = w.requestOf scope := by
  rw [h.same]
  rfl

theorem log (h : OnlyLogged w w') (scope : Nat) (entry : LogEntry) :
    OnlyLogged w (w'.handle scope (.log entry)).2 := by
  refine ⟨h.added.trans (List.sublist_append_left _ _), ?_⟩
  conv_lhs => rw [h.same]
  rfl

/-- Operations are answered alike and keep the worlds so. -/
theorem handle (h : OnlyLogged w w') (scope : Nat) (op : Effect M) :
    OnlyLogged (w.handle scope op).2 (w'.handle scope op).2 ∧
      (w'.handle scope op).1 = (w.handle scope op).1 := by
  obtain ⟨added, same⟩ := h
  generalize w'.logs = logs at added same
  subst same
  cases op with
  | log entry => exact ⟨⟨added.append_right (World.enabled entry), rfl⟩, rfl⟩
  | _ => exact ⟨⟨added, rfl⟩, rfl⟩

end OnlyLogged

section

variable {scope : Nat}

/-- Does an operation, and keeps track of whether the request of a run has asked a text all along. -/
abbrev World.handleText (scope : Nat) : Handler (effects M) (World M × Bool) :=
  Loop.watching (E := effects M) (World.asksText scope) World.handle

/-- Beside a world whose request asks a text, another one to which log records were added. -/
def BesideLog (scope : Nat) (w : World M × Bool) (w' : World M) : Prop :=
  w.1.asksText scope = true ∧ OnlyLogged w.1 w'

theorem BesideLog.handle (t : Nat) (op : Effect M) (w : World M × Bool) (w' : World M)
    (h : BesideLog scope w w') (text : (World.handleText scope t op w).2.2 = true) :
    BesideLog scope (World.handleText scope t op w).2 (w'.handle t op).2 ∧
      (w'.handle t op).1 = (World.handleText scope t op w).1 := by
  obtain ⟨logged, reply⟩ := h.2.handle t op
  exact ⟨⟨(Bool.and_eq_true_iff.1 text).2, logged⟩, reply⟩

theorem BesideLog.operationName {w : World M × Bool} {w' : World M} (h : BesideLog scope w w') :
    ∃ name, Stock.operationName (w'.requestOf scope).query = .ok name := by
  obtain ⟨text, logged⟩ := h
  rw [logged.requestOf]
  unfold World.asksText at text
  split at text
  · rename_i s query
    rw [query]
    exact ⟨_, rfl⟩
  · cases text

/-- The second routine does in a world what the first one does beside it, and logs. -/
abbrev Routine.Logs (scope : Nat) (r r' : Flow M) : Prop :=
  Routine.Mirrors (World.handleText scope) World.handle (fun w => w.2 = true) (BesideLog scope) scope r r'

theorem Routine.Logs.log {r r' : Flow M} (h : r.Logs scope r') (entry : LogEntry) :
    r.Logs scope (.perform (.log entry) fun _ => r') :=
  .extra (fun _ _ beside => ⟨beside.1, beside.2.log scope entry⟩) fun _ _ _ => h

theorem congruent_logs : Congruent (Routine.Logs (M := M) scope) where
  done o := .done o
  perform op _ _ h := by
    refine .perform (fun w w' beside text => (BesideLog.handle _ op w w' beside text).1) ?_
    intro w w' beside text
    rw [(BesideLog.handle _ op w w' beside text).2]
    exact h _
  clock h := .clock h
  sleep _ _ _ h := .sleep h
  race _ _ _ _ _ inside h := .race inside h
  acquire h := .acquire h
  release h := .release h

/-- The logging middleware does what the rest of the chain does, and logs. -/
theorem Stock.logs_logProgram (logger : String) (level : Int) (r : FlowIn M C) :
    InContext (Routine.Logs scope) r (((logProgram logger level).withContext C).around r) := by
  intro c k k' goesOn
  refine .extra (fun _ _ h => h) fun w w' h => ?_
  obtain ⟨name, found⟩ := h.operationName
  simp only [World.handle, found]
  refine .extraClock fun start => Routine.Logs.log ?_ _
  have ends (f : Outcome → FlowIn M C)
      (h : ∀ o c', Routine.Logs scope (k o c') ((f o).inContext c' k')) :
      Routine.Logs scope (r.inContext c k) ((r.andThen f).inContext c k') := by
    rw [Routine.inContext_andThen]
    exact congruent_logs.self r c _ _ h
  refine ends _ fun o c' => ?_
  cases o with
  | ok v => exact .extraClock fun now => Routine.Logs.log (goesOn _ c') _
  | error e =>
    by_cases counts : e.isError
    · simp only [if_pos counts]
      exact .extraClock fun now => Routine.Logs.log (goesOn _ c') _
    · simp only [if_neg counts]
      exact goesOn _ c'

/-- Where the request asks a text throughout, the logging middleware adds records to the log and changes
nothing else. -/
theorem run_of_logs {r r' : Flow M} {l l₁ : ClientLoop M} {o : Outcome} (logs : r.Logs scope r')
    (text : l.Throughout World.handle (World.asksText scope) r scope)
    (ran : l.run World.handle r scope = (l₁, some o)) :
    ∃ l₂, l.run World.handle r' scope = (l₂, some o) ∧ l₂.now = l₁.now ∧
      OnlyLogged l₁.world l₂.world := by
  obtain ⟨l₃, ran₃, now₃, world₃⟩ := Loop.run_watched (P := World.asksText scope) ran
  have sound : l₃.world.2 = true := by
    unfold Loop.Throughout at text
    rwa [ran₃] at text
  have first : l.world.asksText scope = true := Loop.lasting_watching.of_run ran₃ sound
  have alike : Loop.Mirrors (World.handleText scope) World.handle (fun w => w.2 = true)
      (BesideLog scope) (l.watched (World.asksText scope)) l :=
    Loop.mirrors_self (v := l.world) ⟨first, .refl _⟩ fun t r => .self (BesideLog.handle t) r
  obtain ⟨l₂, ran₂, m⟩ := alike.run Loop.lasting_watching logs ran₃ sound
  exact ⟨l₂, ran₂, m.now.trans now₃, world₃ ▸ m.world.2⟩

end

/-! ## Time limits -/

namespace Routine

variable {handler : Handler E W} {scope : Nat}

/-- A routine comes to what another one comes to, unless a limit passes. -/
def Covers (handler : Handler E W) (scope : Nat) (r r' : Routine E) : Prop :=
  ∀ s, evaluate handler scope r' s ≠ .late → evaluate handler scope r s = evaluate handler scope r' s

namespace Covers

theorem refl (r : Routine E) : Covers handler scope r r := fun _ _ => rfl

/-- A limit around a routine changes nothing unless it passes. -/
theorem race {r : Routine E} {limit? : Option Rat} {f : Outcome → Routine E} {k : RaceEnd → Routine E}
    (goesOn : ∀ o, Covers handler scope (f o) (k (.settled o))) :
    Covers handler scope (r.andThen f) (.race r limit? k) := by
  intro s inTime
  rw [evaluate_andThen]
  simp only [evaluate] at inTime ⊢
  cases came : evaluate handler scope r s with
  | «over» o s' =>
    rw [came] at inTime
    by_cases before : s'.now = s.now ∨ ∀ q ∈ limit?, s'.now < s.now + q
    · rw [Ending.within_over before] at inTime ⊢
      exact goesOn o s' inTime
    · rw [Ending.within_over_late before] at inTime
      exact absurd rfl inTime
  | stuck =>
    rw [came, Ending.within_stuck] at inTime
    rw [Ending.within_stuck]
    split at inTime
    · exact absurd rfl inTime
    · rename_i unlimited
      rw [if_neg unlimited]
      rfl
  | late => rfl

end Covers

theorem congruent_covers : Congruent (Covers handler scope) where
  done o := .refl _
  perform op _ _ h s := h _ _
  clock h s := h s.now s
  sleep d _ _ h s := h .resumed _
  race limit? part part' f f' inside h s inTime := by
    simp only [evaluate] at inTime ⊢
    rw [inside s fun late => inTime (by rw [late]; rfl)]
    cases came : evaluate handler scope part' s with
    | «over» o s' =>
      rw [came] at inTime
      by_cases before : s'.now = s.now ∨ ∀ q ∈ limit?, s'.now < s.now + q
      · rw [Ending.within_over before] at inTime ⊢
        rw [Ending.within_over before]
        exact h (.settled o) s' inTime
      · rw [Ending.within_over_late before, Ending.within_over_late before]
    | stuck => rfl
    | late => rfl
  acquire h s inTime := by
    simp only [evaluate] at inTime ⊢
    split
    · rfl
    · rename_i free
      rw [if_neg free] at inTime
      exact h .resumed _ inTime
  release h s := h _

/-- In an idle loop, a routine that comes to the same as another one unless a limit passes ends like that
one, if no limit passes. -/
theorem run_of_covers {r r' : Routine E} {l l₁ : Loop E W} {o : Outcome}
    (h : Covers handler scope r r') (idle : l.Idle)
    (inTime : ∀ l', Loop.Through handler r' scope l l' → l'.limitPasses = false)
    (ran : l.run handler r scope = (l₁, some o)) :
    ∃ l₂, l.run handler r' scope = (l₂, some o) ∧ l₂.now = l₁.now ∧ l₂.world = l₁.world := by
  have alike := h l.situation (idle.evaluate_of_run inTime)
  cases came : evaluate handler scope r' l.situation with
  | «over» o' s =>
    obtain ⟨l₂, ran₂, now₂, world₂⟩ := idle.run_of_evaluate came
    obtain ⟨l₃, ran₃, now₃, world₃⟩ := idle.run_of_evaluate (alike.trans came)
    obtain ⟨rfl, same⟩ := Prod.mk.inj (ran₃.symm.trans ran)
    obtain rfl := Option.some.inj same
    exact ⟨l₂, ran₂, now₂.trans now₃.symm, world₂.trans world₃.symm⟩
  | stuck => exact absurd ran (idle.run_of_stuck (alike.trans came) l₁ o)
  | late => exact absurd came (idle.evaluate_of_run inTime)

end Routine

/-- Around a rest of the chain that leaves the context as it is, a time limit changes nothing unless it
passes. -/
theorem Stock.covers_limitProgram {scope : Nat} {r : FlowIn M C} (keeps : r.KeepsContext)
    (t : TimeLimit) :
    InContext (Routine.Covers World.handle scope) r (((limitProgram t).withContext C).around r) := by
  intro c k k' goesOn
  rw [(keeps c).inContext_eq]
  have part : (((Program.handBack (E := effects M)).withContext C).around r).inContext c
      (fun o _ => .done o) = r.asTask c :=
    congrArg (Routine.asTask · c) (Program.around_handBack r)
  simp only [limitProgram, Program.withContext, Program.around, Routine.inContext, part]
  refine .race fun o => ?_
  cases o with
  | ok v => exact goesOn _ c
  | error e => exact goesOn _ c

/-! ## Inserted middleware -/

/-- A client whose endpoint is not found the first time and answers after a second the second time. -/
def flakyClient : ClientLoop Middleware :=
  let address : Value := .text "https://api.example.com/graphql"
  .initial (World.setRequest
    (Client.make address [] .direct .default
      [⟨none, .refuse (.own .notFound "not found" 404)⟩, ⟨some 1, .data (.text "late")⟩] .network) 0
    ⟨address, .text "{ a }", [], .null⟩)

/-- Leaves a name in the context and makes a second attempt if the first one fails. -/
def insistent : Program ((effects Middleware).withContext Value) :=
  .perform (E := (effects Middleware).withContext Value) (.inr (.write (.text "insistent"))) fun _ =>
    .rest fun
      | .ok v => .done (.ok v)
      | .error _ => .handBack

/-- Notes the name in the context and calls the endpoint. -/
def namedCall : FlowIn Middleware Value :=
  .readContext fun name => .perform (E := (effects Middleware).withContext Value)
    (.inl (.trace name.display)) fun _ => Endpoint.answer.withContext Value

/-- A limit among middleware that have a use for the context. -/
abbrev limitOf (seconds : Nat) (positive : 0 < seconds) :
    Program ((effects Middleware).withContext Value) :=
  (Stock.limitProgram (.ofSeconds seconds positive)).withContext Value

/-- What a client with a name does in its task around a last step. -/
def taskOf (ms : List (Program ((effects Middleware).withContext Value)))
    (terminal : FlowIn Middleware Value) : Flow Middleware :=
  (DispatchChain.mk ms Program.around terminal).dispatch.asTask (.text "client")

theorem taskOf_eq_foldr (ms : List (Program ((effects Middleware).withContext Value)))
    (terminal : FlowIn Middleware Value) :
    taskOf ms terminal = (ms.foldr Program.around terminal).asTask (.text "client") :=
  congrArg (Routine.asTask · _) (DispatchChain.call_eq_foldr _ 0)

/-- What is told of the end of a run that takes so many steps at most. -/
theorem told_of_runWithin {ms : List (Program ((effects Middleware).withContext Value))}
    {terminal : FlowIn Middleware Value} {n : Nat} {β : Type} {f : ClientLoop Middleware → β} {x : β}
    (ends : (Loop.runWithin World.handle (·.isOver 0) n (flakyClient.started World.handle
      ((ms.foldr Program.around terminal).asTask (.text "client")) 0)).map f = some x) :
    let after := flakyClient.run World.handle (taskOf ms terminal) 0
    f after.1 = x ∧ after.2 = after.1.outcome? 0 := by
  intro after
  rw [← taskOf_eq_foldr] at ends
  obtain ⟨l, ended, same⟩ := Option.map_eq_some_iff.1 ends
  have ran : after = (l, l.outcome? 0) := Loop.run_eq_of_runWithin (l := flakyClient) ended
  rw [ran]
  exact ⟨same, rfl⟩

/-- Waits for the rest of the chain and hands back the name in the context. -/
def tellsName : Program ((effects Middleware).withContext Value) :=
  .rest fun _ => .perform (E := (effects Middleware).withContext Value) (.inr .read) fun name =>
    .done (.ok name)

/-- Leaves another name in the context. -/
def renames : FlowIn Middleware Value := .writeContext (.text "renamed") (.ret .null)

theorem run_limited_forgets :
    let run (ms : List (Program ((effects Middleware).withContext Value))) :=
      (flakyClient.run World.handle (taskOf ms renames) 0).2
    run [tellsName] = some (.ok (.text "renamed")) ∧
      run [tellsName, limitOf 5 (by decide)] = some (.ok (.text "client")) := by
  intro run
  have answered {ms : List (Program ((effects Middleware).withContext Value))} {o : Option Outcome}
      (ends : (Loop.runWithin World.handle (·.isOver 0) 10 (flakyClient.started World.handle
        ((ms.foldr Program.around renames).asTask (.text "client")) 0)).map (·.outcome? 0) =
          some o) : run ms = o :=
    (told_of_runWithin ends).2.trans (told_of_runWithin ends).1
  exact ⟨answered rfl, answered rfl⟩

/-- Waits for the rest of the chain for a second at most, in a task of its own. -/
def givesUp : Program ((effects Middleware).withContext Value) :=
  .race .handBack (some 1) fun _ =>
    .perform (E := (effects Middleware).withContext Value) (.inl (.trace "gave up")) fun _ =>
      .done (.ok .null)

/-- Takes two seconds, and notes that it was told to stop. -/
def slowStep : FlowIn Middleware Value :=
  .sleep 2 fun
    | .resumed => .ret .null
    | .cancelled => .perform (E := (effects Middleware).withContext Value) (.inl (.trace "stopped"))
        fun _ => .fail .cancelled

theorem run_limited_stopsLater :
    let trace (ms : List (Program ((effects Middleware).withContext Value))) :=
      (flakyClient.run World.handle (taskOf ms slowStep) 0).1.world.trace
    let others := [limitOf 10 (by decide), limitOf 20 (by decide)]
    trace (givesUp :: others) = ["stopped", "gave up"] ∧
      trace (givesUp :: limitOf 5 (by decide) :: others) = ["gave up"] := by
  intro trace others
  have traced {ms : List (Program ((effects Middleware).withContext Value))} {lines : List String}
      (ends : (Loop.runWithin World.handle (·.isOver 0) 30 (flakyClient.started World.handle
        ((ms.foldr Program.around slowStep).asTask (.text "client")) 0)).map (·.world.trace) =
          some lines) : trace ms = lines :=
    (told_of_runWithin ends).1
  exact ⟨traced (by decide +kernel), traced (by decide +kernel)⟩

/-- Two runs of a client that start one after the other, while nobody has to wait. The endpoint refuses
the first call. -/
def sideBySide (ms : List Middleware) : ClientLoop Middleware :=
  let w : World Middleware :=
    Client.make (.text "https://api.example.com/graphql") [] .direct .default
      [⟨none, .refuse (.own .notFound "not found" 404)⟩, ⟨none, .data (.text "first")⟩,
        ⟨none, .data (.text "second")⟩] .network
  (Loop.initial { w with registry := ms }).after World.handle
    (fun _ : Unit => Client.run Middleware.behaviour (.text "{ a }") .null)
    ([.start (), .start ()] ++ List.replicate 16 (.job 0))

/-- The text that a routine ended with. -/
def Outcome.text? : Outcome → Option String
  | .ok (.text s) => some s
  | _ => none

theorem Outcome.eq_of_text? {o? : Option Outcome} {s : String} (h : o?.bind Outcome.text? = some s) :
    o? = some (.ok (.text s)) := by
  obtain ⟨o, rfl, text⟩ := Option.bind_eq_some_iff.1 h
  unfold text? at text
  split at text
  · rw [Option.some.inj text]
  · cases text

theorem sideBySide_limited :
    let again : Middleware := .script "up" true [.retry 2]
    let limited := sideBySide [again, .timeout (.ofSeconds 5 (by decide))]
    ((sideBySide [again]).outcome? 0 = some (.ok (.text "first")) ∧
      (sideBySide [again]).outcome? 1 = some (.ok (.text "second"))) ∧
    limited.outcome? 0 = some (.ok (.text "second")) ∧
      limited.outcome? 1 = some (.ok (.text "first")) ∧ limited.now = 0 := by
  intro again limited
  have composed : Client.run Middleware.behaviour (.text "{ a }") .null =
      Client.createRequest (.text "{ a }") .null
        (.perform (E := effects Middleware) .registry fun ms =>
          ms.foldr Middleware.behaviour Client.send) :=
    congrArg (Client.createRequest _ _) (congrArg (Routine.perform (E := effects Middleware) _)
      (funext fun ms => DispatchChain.call_eq_foldr _ 0))
  simp only [limited, sideBySide, composed]
  refine ⟨⟨Outcome.eq_of_text? ?_, Outcome.eq_of_text? ?_⟩, Outcome.eq_of_text? ?_,
    Outcome.eq_of_text? ?_, ?_⟩
  all_goals decide +kernel

end GraphClient
