import GraphClient.Proofs.Flow.Marks
import GraphClient.Proofs.Middleware.Program

/-!
# What a middleware that logs does when it is entered

A middleware that logs may be entered again and again, by others that try again, and in several
tasks. Every time it is entered it has an address of its own. It leaves marks there that say what it
has found, what it has logged and what it ends with (`Stock.located`).

* `Opening`: what it has found, and the records that follow from it.
* `Member`: a middleware that logs, or any other. `Member.marks_located`: the marks change nothing
  else.
* `Stay`: what may be at one address.
* `Located`: a routine leaves a stay at its address and at those below, and nothing at any other
  one.
* `stay_afterStart`: whatever happens to a run, there is a stay at every address.
-/

namespace GraphClient

variable {A M : Type}

/-! ## Marks -/

/-- Where a middleware was entered. The times that a middleware runs the rest of the chain are
numbered, the last number is the first one here. -/
abbrev Address := List Nat

/-- What a middleware that logs finds when it is entered: the request of the run, the operation that
this asks for, and the time. -/
structure Opening where
  logger : String
  level : Int
  request : Request
  name : String
  time : Rat

namespace Opening

/-- A record about the operation. -/
def entry (o : Opening) (level : Int) (message : String) : LogEntry :=
  ⟨level, o.logger, "GraphQL " ++ o.name ++ " " ++ message⟩

/-- The record at the start. -/
def start (o : Opening) : LogEntry := o.entry o.level ("-> " ++ o.request.url.display)

/-- The record at the end: a value completes the operation, an error is a warning. A cancellation
has no record. -/
def finish? (o : Opening) (now : Rat) : Outcome → Option LogEntry
  | .ok _ => some (o.entry o.level ("completed in " ++ Stock.milliseconds (now - o.time) ++ "ms"))
  | .error e =>
    if e.isError then
      some (o.entry Stock.warningLevel
        ("failed after " ++ Stock.milliseconds (now - o.time) ++ "ms: " ++ e.text))
    else none

end Opening

/-- What happens in a middleware that logs. -/
inductive LogStep where
  /-- The query is no text. The error that says so is raised at once. -/
  | refused (logger : String) (level : Int) (r : Request) (e : Failure)
  | opened (o : Opening)
  | logged (time : Rat) (entry : LogEntry)
  /-- The rest of the chain has ended. -/
  | settled (outcome : Outcome) (time : Rat)
  | left (outcome : Outcome)

/-- The step as it is seen where the run has a request: a middleware is entered with that one. -/
def LogStep.seen (r : Request) : LogStep → LogStep
  | refused logger level _ e => refused logger level r e
  | opened o => opened { o with request := r }
  | step => step

structure LogEvent where
  address : Address
  step : LogStep

namespace LogEvent

/-- The step is noted with the request that the run has then. A record that is noted is added to the
log. Nothing else is done to the world. -/
def act (scope : Nat) (event : LogEvent) (w : World M) : LogEvent × World M :=
  (⟨event.address, event.step.seen (w.requestOf scope)⟩,
    match event.step with
    | .logged _ entry => (World.handle scope (.log entry) w).2
    | _ => w)

end LogEvent

/-- The effects of a client, and marks for what is logged. -/
abbrev logEffects (M : Type) : Effects := (effects M).marked LogEvent

/-- What the operations do, with marks for what is logged. -/
abbrev World.handleLog : Handler (logEffects M) (World M × List LogEvent) :=
  Handler.marked World.handle LogEvent.act

namespace Stock

variable {next : Address → Routine (logEffects M)}

/-- Logs a record and notes that, if its level is enabled. -/
def note (α : Address) (time : Rat) (entry : LogEntry) (r : Routine (logEffects M)) :
    Routine (logEffects M) :=
  if 0 < entry.level then .mark ⟨α, .logged time entry⟩ r
  else .perform (E := logEffects M) (.inl (.log entry)) fun _ => r

/-- How a middleware that logs goes on when the rest of the chain has ended. -/
def closing (α : Address) (o : Opening) (outcome : Outcome) : Routine (logEffects M) :=
  .clock fun now => .mark ⟨α, .settled outcome now⟩ <|
    match o.finish? now outcome with
    | some entry => note α now entry (.mark ⟨α, .left outcome⟩ (.done outcome))
    | none => .mark ⟨α, .left outcome⟩ (.done outcome)

/-- How it goes on when it knows whether the request asks for an operation. -/
def opening (logger : String) (level : Int) (next : Address → Routine (logEffects M)) (α : Address)
    (r : Request) : Except Failure String → Routine (logEffects M)
  | .error e => .mark ⟨α, .refused logger level r e⟩ (.done (.error e))
  | .ok name => .clock fun time =>
    let o : Opening := ⟨logger, level, r, name, time⟩
    .mark ⟨α, .opened o⟩ <| note α time o.start <| (next (0 :: α)).andThen (closing α o)

/-- What a middleware that logs does where it is entered, with marks. -/
def located (logger : String) (level : Int) (next : Address → Routine (logEffects M))
    (α : Address) : Routine (logEffects M) :=
  .perform (E := logEffects M) (.inl .request) fun r : Request =>
    opening logger level next α r (operationName r.query)

end Stock

namespace Program

variable {E : Effects} {V : Type}

/-- What the program does around the rest of a chain that leaves marks. The times that it runs the
rest are numbered. Those in a part of a race are numbered by themselves. -/
def located (next : Address → Routine (E.marked V)) :
    Program E → Address → Nat → Routine (E.marked V)
  | done result, _, _ => .done (.leaving .coroutine result)
  | perform op k, α, n =>
    .perform (E := E.marked V) (.inl op) fun reply => (k reply).located next α n
  | clock k, α, n => .clock fun now => (k now).located next α n
  | sleep d k, α, n => .sleep d fun wake => (k wake).located next α n
  | race part limit? k, α, n =>
    .race (part.located next (n :: α) 0) limit? fun finish => (k finish).located next α (n + 1)
  | acquire k, α, n => .acquire fun wake => (k wake).located next α n
  | release p, α, n => .release (p.located next α n)
  | rest k, α, n => (next (n :: α)).andThen fun o => (k o).located next α (n + 1)
  | discard p, α, n => p.located next α n

end Program

/-- A middleware that logs, or any other. -/
inductive Member (M : Type) where
  | logging (logger : String) (level : Int)
  | program (p : Program (effects M))

namespace Member

/-- What the middleware does. -/
def behaviour : Member M → Flow M → Flow M
  | logging logger level => Stock.logging logger level
  | program p => p.around

/-- What the middleware does where it is entered, with marks. -/
def located (next : Address → Routine (logEffects M)) : Member M → Address → Routine (logEffects M)
  | logging logger level, α => Stock.located logger level next α
  | program p, α => p.located next α 0

/-- A time limit on the rest of the chain. -/
def limit (t : TimeLimit) : Member M := program (Stock.limitProgram t)

theorem behaviour_limit (t : TimeLimit) : (limit t : Member M).behaviour = Stock.timeout t :=
  Stock.around_limitProgram t

/-- A chain that leaves marks. -/
def chain (members : List (Member M)) (terminal : Flow M) : Address → Routine (logEffects M) :=
  members.foldr (fun member next => member.located next) fun _ => terminal.plain LogEvent

end Member

/-- Every middleware of a registry is a member, those that log as such. -/
theorem Middleware.exists_member (m : Middleware) :
    ∃ member : Member Middleware, m.behaviour = member.behaviour ∧
      ∀ logger level, m = .logging logger level → member = .logging logger level := by
  cases m with
  | logging logger level =>
    refine ⟨.logging logger level, rfl, fun logger' level' same => ?_⟩
    obtain ⟨rfl, rfl⟩ := Middleware.logging.inj same
    rfl
  | timeout t =>
    exact ⟨.limit t, (Member.behaviour_limit t).symm, fun _ _ => Middleware.noConfusion⟩
  | _ =>
    obtain ⟨p, same⟩ := Middleware.programmed _
    exact ⟨.program p, same, fun _ _ => Middleware.noConfusion⟩

/-! ## The marks change nothing else -/

section

variable {scope : Nat} {r : Flow M} {r' : Routine (logEffects M)}
  {next : Address → Routine (logEffects M)}

/-- The marked routine of a client does what the other one does. -/
abbrev Routine.LogMarks (scope : Nat) (r : Flow M) (r' : Routine (logEffects M)) : Prop :=
  r.Marks World.handle LogEvent.act scope r'

namespace Stock

theorem marks_note (α : Address) (time : Rat) (entry : LogEntry) (h : r.LogMarks scope r') :
    Routine.LogMarks scope (.perform (.log entry) fun _ => r) (note α time entry r') := by
  unfold note
  split
  · exact .stand (fun w => rfl) fun _ => h
  · exact .perform (E := effects M) _ fun _ => h

/-- A mark for what is not logged. -/
theorem marks_idle {event : LogEvent} (h : r.LogMarks scope r')
    (idle : ∀ w : World M, (LogEvent.act scope event w).2 = w) :
    r.LogMarks scope (.mark event r') := .mark h idle

theorem marks_logging (logger : String) (level : Int) (h : ∀ α, r.LogMarks scope (next α))
    (α : Address) : (logging logger level r).LogMarks scope (located logger level next α) := by
  refine Routine.Marks.perform (E := effects M) _ fun request : Request => ?_
  cases operationName request.query with
  | error e => exact marks_idle (.done _) fun _ => rfl
  | ok name =>
    refine .clock fun start => marks_idle (marks_note _ _ _ (.andThen (h _) fun o => ?_))
      fun _ => rfl
    have leaves : Routine.LogMarks (M := M) scope (.done o) (.mark ⟨α, .left o⟩ (.done o)) :=
      marks_idle (.done _) fun _ => rfl
    cases o with
    | ok v => exact .clock fun now => marks_idle (marks_note _ _ _ leaves) fun _ => rfl
    | error e =>
      by_cases counts : e.isError = true
      · simp only [closing, Opening.finish?, if_pos counts]
        exact .clock fun now => marks_idle (marks_note _ _ _ leaves) fun _ => rfl
      · simp only [closing, Opening.finish?, if_neg counts]
        exact .extraClock fun now => marks_idle leaves fun _ => rfl

end Stock

theorem Program.marks_located {E : Effects} {W V : Type} {handler : Handler E W}
    {act : Nat → V → W → V × W} {r : Routine E} {next : Address → Routine (E.marked V)}
    (h : ∀ α, r.Marks handler act scope (next α)) (p : Program E) (α : Address) (n : Nat) :
    (p.around r).Marks handler act scope (p.located next α n) := by
  induction p generalizing α n with
  | done result => exact .done _
  | perform op k ih => exact .perform op fun reply => ih reply α n
  | clock k ih => exact .clock fun now => ih now α n
  | sleep d k ih => exact .sleep fun wake => ih wake α n
  | race part limit? k ihp ih => exact .race (ihp (n :: α) 0) fun finish => ih finish α (n + 1)
  | acquire k ih => exact .acquire fun wake => ih wake α n
  | release p ih => exact .release (ih α n)
  | rest k ih => exact .andThen (h (n :: α)) fun o => ih o α (n + 1)
  | discard p ih => exact ih α n

namespace Member

theorem marks_located (h : ∀ α, r.LogMarks scope (next α)) (member : Member M) (α : Address) :
    (member.behaviour r).LogMarks scope (member.located next α) := by
  cases member with
  | logging logger level => exact Stock.marks_logging logger level h α
  | program p => exact p.marks_located h α 0

theorem marks_chain (members : List (Member M)) (terminal : Flow M) (α : Address) :
    (members.foldr behaviour terminal).LogMarks scope (chain members terminal α) := by
  induction members generalizing α with
  | nil => exact terminal.marks_plain LogEvent LogEvent.act scope
  | cons member members ih => exact member.marks_located ih α

end Member

end

/-! ## The log -/

/-- What the step adds to the log. -/
def LogStep.entries : LogStep → List LogEntry
  | .logged _ entry => World.enabled entry
  | _ => []

/-- What some events add to the log. -/
def logsOf (events : List LogEvent) : List LogEntry := events.flatMap (·.step.entries)

/-- Every record that is noted is added to the log, after those before. -/
theorem logs_handleLog {before : List LogEntry} (scope : Nat) (op : (logEffects M).Op)
    (w : World M × List LogEvent) (h : (before ++ logsOf w.2).Sublist w.1.logs) :
    (before ++ logsOf (World.handleLog scope op w).2.2).Sublist
      (World.handleLog scope op w).2.1.logs := by
  rcases op with op | ⟨α, step⟩
  · cases op <;> first | exact h | exact h.trans (List.sublist_append_left _ _)
  · let seen := step.seen (w.1.requestOf scope)
    have noted : logsOf (w.2 ++ [⟨α, seen⟩]) = logsOf w.2 ++ seen.entries := by
      rw [logsOf, List.flatMap_append, List.flatMap_singleton]
      rfl
    show (before ++ logsOf (w.2 ++ [⟨α, seen⟩])).Sublist (LogEvent.act scope ⟨α, step⟩ w.1).2.logs
    rw [noted, ← List.append_assoc]
    cases step with
    | logged time entry => exact h.append (List.Sublist.refl _)
    | _ => exact (List.append_nil _).symm ▸ h

/-- Whatever happens after a marked run has started, the records that are noted are in the log, in
that order. -/
theorem logs_afterStart (others : A → Routine (logEffects M)) (r : Routine (logEffects M))
    (moves : List (Move A)) (l : ClientLoop M) :
    let l₂ := (l.plain LogEvent).afterStart World.handleLog others r moves
    (l.world.logs ++ logsOf l₂.world.2).Sublist l₂.world.1.logs := by
  have initially : (l.world.logs ++ logsOf []).Sublist l.world.logs := by
    rw [logsOf, List.flatMap_nil, List.append_nil]
  let J (w : World M × List LogEvent) : Prop := (l.world.logs ++ logsOf w.2).Sublist w.1.logs
  exact Loop.world_after (J := J) logs_handleLog others initially moves

/-! ## Stays -/

/-- What happens at one address, where a middleware that logs is entered no more than once. -/
inductive Stay where
  | unentered
  | refused (logger : String) (level : Int) (r : Request) (e : Failure)
  /-- It waits for the rest of the chain. -/
  | underWay (o : Opening)
  | over (o : Opening) (outcome : Outcome) (time : Rat)

/-- The records that are noted at one time. -/
def LogStep.records (time : Rat) (entries : List LogEntry) : List LogStep :=
  (entries.flatMap World.enabled).map (.logged time)

namespace Stay

/-- What is noted: one record at the start, and when the rest of the chain has ended, one record for
a value or an error and none for a cancellation. What the rest of the chain has ended with is passed
on. -/
def steps : Stay → List LogStep
  | unentered => []
  | refused logger level r e => [.refused logger level r e]
  | underWay o => .opened o :: LogStep.records o.time [o.start]
  | «over» o outcome time =>
    .opened o :: LogStep.records o.time [o.start] ++
      .settled outcome time :: LogStep.records time (o.finish? time outcome).toList ++
        [.left outcome]

/-- The middleware is one of the chain, and the operation is that of the request that the run had when
it was entered. -/
def Sound (members : List (Member M)) : Stay → Prop
  | unentered => True
  | refused logger level r e =>
    .logging logger level ∈ members ∧ Stock.operationName r.query = .error e
  | underWay o | «over» o _ _ =>
    .logging o.logger o.level ∈ members ∧ Stock.operationName o.request.query = .ok o.name

end Stay

/-- What is noted at an address. -/
def stepsAt (φ : Address) (events : List LogEvent) : List LogStep :=
  (events.filter (·.address = φ)).map (·.step)

section

variable {members : List (Member M)} {scope n : Nat} {φ α : Address} {event : LogEvent}
  {next : Address → Routine (logEffects M)} {r : Routine (logEffects M)}
  {w : World M × List LogEvent}

theorem stepsAt_append (φ : Address) (es es' : List LogEvent) :
    stepsAt φ (es ++ es') = stepsAt φ es ++ stepsAt φ es' := by
  simp [stepsAt]

theorem stepsAt_here (φ : Address) (step : LogStep) : stepsAt φ [⟨φ, step⟩] = [step] := by
  simp [stepsAt]

theorem stepsAt_elsewhere (ne : event.address ≠ φ) : stepsAt φ [event] = [] := by
  simp [stepsAt, ne]

/-- One address is watched. -/
abbrev watchStay (members : List (Member M)) (scope : Nat) (φ : Address) :
    Watch (logEffects M) (World M × List LogEvent) (List LogStep) :=
  Watch.marks World.handle LogEvent.act scope (stepsAt φ) fun steps =>
    ∃ p : Stay, p.Sound members ∧ steps = p.steps

/-- The routine does nothing at an address. -/
abbrev AwayFrom (φ : Address) (scope : Nat) (r : Routine (logEffects M)) : Prop :=
  r.Silent World.handleLog (fun w => stepsAt φ w.2) scope

/-- The routine leaves a stay at its own address or at one below it, and nothing at any other. -/
structure Located (members : List (Member M)) (scope : Nat) (φ : Address)
    (next : Address → Routine (logEffects M)) : Prop where
  away : ∀ α, ¬α <:+ φ → AwayFrom φ scope (next α)
  obeys : ∀ α w, α <:+ φ → stepsAt φ w.2 = [] → (watchStay members scope φ).Obeys (next α) none w

theorem AwayFrom.mark (ne : event.address ≠ φ) (h : AwayFrom φ scope r) :
    AwayFrom φ scope (.mark event r) := by
  refine ⟨fun w => ?_, fun _ => h⟩
  show stepsAt φ (w.2 ++ [(LogEvent.act scope event w.1).1]) = stepsAt φ w.2
  have elsewhere : (LogEvent.act scope event w.1).1.address ≠ φ := ne
  rw [stepsAt_append, stepsAt_elsewhere elsewhere, List.append_nil]

theorem AwayFrom.note {time : Rat} {entry : LogEntry} (ne : α ≠ φ) (h : AwayFrom φ scope r) :
    AwayFrom φ scope (Stock.note α time entry r) := by
  unfold Stock.note
  split
  · exact h.mark ne
  · exact ⟨fun w => rfl, fun _ => h⟩

theorem AwayFrom.closing (ne : α ≠ φ) (o : Opening) (outcome : Outcome) :
    AwayFrom (M := M) φ scope (Stock.closing α o outcome) := by
  intro now
  have leaves : AwayFrom (M := M) φ scope (.mark ⟨α, .left outcome⟩ (.done outcome)) :=
    AwayFrom.mark ne trivial
  refine AwayFrom.mark ne ?_
  split
  · exact leaves.note ne
  · exact leaves

namespace Located

/-- Of two addresses that differ in their last number, no more than one is above another address. -/
theorem not_above {m : Nat} (above : n :: α <:+ φ) (ne : m ≠ n) : ¬m :: α <:+ φ := fun above' => by
  have same := (List.suffix_of_suffix_length_le above' above (Nat.le_refl _)).eq_of_length rfl
  exact ne (List.cons.inj same).1

theorem away_program (h : Located members scope φ next) (p : Program (effects M))
    (apart : ∀ m, n ≤ m → ¬m :: α <:+ φ) : AwayFrom φ scope (p.located next α n) := by
  induction p generalizing α n with
  | done result => trivial
  | perform op k ih => exact ⟨fun w => rfl, fun reply => ih reply apart⟩
  | clock k ih => exact fun now => ih now apart
  | sleep d k ih => exact fun wake => ih wake apart
  | race part limit? k ihp ih =>
    refine ⟨ihp fun m _ above => ?_, fun finish => ih finish fun m le => ?_⟩
    · exact apart n (Nat.le_refl n) ((List.suffix_cons m _).trans above)
    · exact apart m (Nat.le_of_succ_le le)
  | acquire k ih => exact fun wake => ih wake apart
  | release p ih => exact ih apart
  | rest k ih =>
    exact (h.away _ (apart n (Nat.le_refl n))).andThen fun o =>
      ih o fun m le => apart m (Nat.le_of_succ_le le)
  | discard p ih => exact ih apart

/-- Once a program has run the rest of the chain at an address, it does nothing there any more. -/
theorem away_after (h : Located members scope φ next) (p : Program (effects M))
    (above : n :: α <:+ φ) :
    AwayFrom φ scope (p.located next α (n + 1)) :=
  h.away_program p fun _ le => not_above above (Nat.ne_of_gt le)

theorem obeys_program (h : Located members scope φ next) (p : Program (effects M))
    (here : stepsAt φ w.2 = []) :
    (watchStay members scope φ).Obeys (p.located next α n) none w := by
  have inv {w : World M × List LogEvent} (here : stepsAt φ w.2 = []) :
      ∃ p : Stay, p.Sound members ∧ stepsAt φ w.2 = p.steps := ⟨.unentered, trivial, here⟩
  induction p generalizing α n w with
  | done result => exact ⟨inv here, nofun⟩
  | perform op k ih => exact ih _ here
  | clock k ih => exact fun now => ih now here
  | sleep d k ih => exact ⟨inv here, fun wake w' same => ih wake (same.trans here)⟩
  | race part limit? k ihp ih =>
    refine ⟨inv here, ?_⟩
    by_cases above : n :: α <:+ φ
    · exact .inr ⟨rfl, fun finish => h.away_after _ above, fun w' same => ihp (same.trans here)⟩
    · have away : AwayFrom φ scope (part.located next (n :: α) 0) :=
        h.away_program part fun m _ above' => above ((List.suffix_cons m _).trans above')
      exact .inl ⟨away, fun finish w' same => ih finish (same.trans here)⟩
  | acquire k ih =>
    exact ⟨ih _ here, inv here, fun wake w' same => ih wake (same.trans here)⟩
  | release p ih => exact ih here
  | rest k ih =>
    by_cases above : n :: α <:+ φ
    · exact (h.obeys _ w above here).andThen_silent fun o => h.away_after _ above
    · exact Watch.Silent.obeys_andThen (h.away _ above) (inv here) fun o w' same =>
        ih o (same.trans here)
  | discard p ih => exact ih here

/-- A middleware that logs does nothing at an address that is not its own, unless the rest of the
chain does. -/
theorem away_opening (h : Located members scope φ next) (logger : String) (level : Int) (ne : α ≠ φ)
    (apart : ¬0 :: α <:+ φ) (request : Request) (named : Except Failure String) :
    AwayFrom φ scope (Stock.opening logger level next α request named) := by
  cases named with
  | error e => exact AwayFrom.mark ne trivial
  | ok name =>
    intro now
    refine AwayFrom.mark ne (AwayFrom.note ne ?_)
    exact (h.away _ apart).andThen fun outcome => AwayFrom.closing ne _ outcome

end Located

section

variable {ends? : Option (Outcome → List LogStep → Prop)} {steps : List LogStep}

theorem obeys_mark {step : LogStep} (here : stepsAt φ w.2 = steps)
    (goes : ∀ w' : World M × List LogEvent,
      stepsAt φ w'.2 = steps ++ [step.seen (w.1.requestOf scope)] →
        (watchStay members scope φ).Obeys r ends? w') :
    (watchStay members scope φ).Obeys (.mark ⟨φ, step⟩ r) ends? w := by
  refine goes (_, w.2 ++ [⟨φ, step.seen (w.1.requestOf scope)⟩]) ?_
  rw [stepsAt_append, stepsAt_here, here]

/-- A record is noted, if it is enabled. -/
theorem obeys_note {time : Rat} {entry : LogEntry} (here : stepsAt φ w.2 = steps)
    (goes : ∀ w' : World M × List LogEvent,
      stepsAt φ w'.2 = steps ++ LogStep.records time [entry] →
        (watchStay members scope φ).Obeys r ends? w') :
    (watchStay members scope φ).Obeys (Stock.note φ time entry r) ends? w := by
  unfold Stock.note
  split
  · rename_i enabled
    exact obeys_mark here (by simpa [LogStep.records, LogStep.seen, World.enabled, enabled] using goes)
  · rename_i disabled
    refine goes (_, w.2) ?_
    simpa [LogStep.records, World.enabled, disabled] using here

theorem obeys_mark_elsewhere {step : LogStep} (ne : α ≠ φ) (here : stepsAt φ w.2 = steps)
    (goes : ∀ w' : World M × List LogEvent, stepsAt φ w'.2 = steps →
      (watchStay members scope φ).Obeys r ends? w') :
    (watchStay members scope φ).Obeys (.mark ⟨α, step⟩ r) ends? w := by
  refine goes (_, w.2 ++ [⟨α, step.seen (w.1.requestOf scope)⟩]) ?_
  have elsewhere : (LogEvent.mk α (step.seen (w.1.requestOf scope))).address ≠ φ := ne
  rw [stepsAt_append, stepsAt_elsewhere elsewhere, here, List.append_nil]

theorem obeys_note_elsewhere {time : Rat} {entry : LogEntry} (ne : α ≠ φ)
    (here : stepsAt φ w.2 = steps)
    (goes : ∀ w' : World M × List LogEvent, stepsAt φ w'.2 = steps →
      (watchStay members scope φ).Obeys r ends? w') :
    (watchStay members scope φ).Obeys (Stock.note α time entry r) ends? w := by
  unfold Stock.note
  split
  · exact obeys_mark_elsewhere ne here goes
  · exact goes (_, w.2) here

end

/-- Where the rest of the chain has ended, the stay is completed. -/
theorem obeys_closing {o : Opening} (sound : (Stay.underWay o).Sound members) (outcome : Outcome)
    (here : stepsAt φ w.2 = (Stay.underWay o).steps) :
    (watchStay members scope φ).Obeys (Stock.closing φ o outcome) none w := by
  intro now
  have leaves (w₁ : World M × List LogEvent)
      (here : stepsAt φ w₁.2 = (Stay.underWay o).steps ++ [.settled outcome now] ++
        LogStep.records now (o.finish? now outcome).toList) :
      (watchStay members scope φ).Obeys (.mark ⟨φ, .left outcome⟩ (.done outcome)) none w₁ := by
    refine obeys_mark here fun w₂ left => ⟨⟨.over o outcome now, sound, left.trans ?_⟩, nofun⟩
    simp [Stay.steps, LogStep.seen]
  refine obeys_mark here fun w₁ settled => ?_
  cases finish : o.finish? now outcome with
  | none =>
    rw [finish] at leaves
    exact leaves w₁ (settled.trans (List.append_nil _).symm)
  | some entry =>
    rw [finish] at leaves
    exact obeys_note settled leaves

/-- At its own address, a middleware that logs leaves a stay. -/
theorem Located.obeys_opening (h : Located members scope φ next) {logger : String} {level : Int}
    (mem : .logging logger level ∈ members) {request : Request} {named : Except Failure String}
    (own : w.1.requestOf scope = request) (asked : Stock.operationName request.query = named)
    (here : stepsAt φ w.2 = []) :
    (watchStay members scope φ).Obeys (Stock.opening logger level next φ request named) none w := by
  subst own
  cases named with
  | error e =>
    refine obeys_mark here fun w₁ refused => ?_
    exact ⟨⟨.refused logger level _ e, ⟨mem, asked⟩, refused⟩, nofun⟩
  | ok name =>
    intro time
    let o : Opening := ⟨logger, level, w.1.requestOf scope, name, time⟩
    have sound : (Stay.underWay o).Sound members := ⟨mem, asked⟩
    have below : ¬0 :: φ <:+ φ := fun below => absurd below.length_le (Nat.not_succ_le_self _)
    refine obeys_mark here fun w₁ opened => obeys_note opened fun w₂ started => ?_
    refine Watch.Silent.obeys_andThen (h.away _ below) ⟨_, sound, started⟩ fun outcome w₃ same => ?_
    exact obeys_closing sound outcome (same.trans started)

namespace Located

/-- At an address below its own, a middleware that logs leaves what the rest of the chain does. -/
theorem obeys_opening_below (h : Located members scope φ next) (logger : String) (level : Int)
    (ne : α ≠ φ) (above : 0 :: α <:+ φ) {request : Request} (named : Except Failure String)
    (here : stepsAt φ w.2 = []) :
    (watchStay members scope φ).Obeys (Stock.opening logger level next α request named) none w := by
  cases named with
  | error e =>
    exact Watch.Silent.obeys (AwayFrom.mark ne trivial) ⟨.unentered, trivial, here⟩ nofun
  | ok name =>
    intro time
    refine obeys_mark_elsewhere ne here fun w₁ here₁ =>
      obeys_note_elsewhere ne here₁ fun w₂ here₂ => ?_
    exact (h.obeys _ w₂ above here₂).andThen_silent fun outcome => AwayFrom.closing ne _ outcome

theorem member {m : Member M} (h : Located members scope φ next) (mem : m ∈ members) :
    Located members scope φ (m.located next) := by
  cases m with
  | program p =>
    refine ⟨fun α apart => h.away_program p fun m _ above => ?_, fun α w _ => h.obeys_program p⟩
    exact apart ((List.suffix_cons m α).trans above)
  | logging logger level =>
    have away (α : Address) (ne : α ≠ φ) (apart : ¬0 :: α <:+ φ) :
        AwayFrom φ scope (Stock.located logger level next α) :=
      ⟨fun w => rfl, fun request => h.away_opening logger level ne apart request _⟩
    refine ⟨fun α apart => ?_, fun α w above here => ?_⟩
    · refine away α (fun same => ?_) fun above => apart ((List.suffix_cons 0 α).trans above)
      exact apart (same ▸ List.suffix_refl α)
    · by_cases own : α = φ
      · subst own
        exact h.obeys_opening mem rfl rfl here
      · by_cases below : 0 :: α <:+ φ
        · exact h.obeys_opening_below logger level own below _ here
        · exact Watch.Silent.obeys (away α own below) ⟨.unentered, trivial, here⟩ nofun

theorem chain (terminal : Flow M) {rest : List (Member M)} (subset : rest ⊆ members) :
    Located members scope φ (Member.chain rest terminal) := by
  induction rest with
  | nil =>
    refine ⟨fun α _ => terminal.silent_plain, fun α w _ here => ?_⟩
    exact Watch.Silent.obeys (Watch.silent_plain scope terminal) ⟨.unentered, trivial, here⟩ nofun
  | cons member rest ih =>
    exact (ih fun m mem => subset (List.mem_cons_of_mem _ mem)).member (subset List.mem_cons_self)

end Located

/-- Whatever happens after a run of a marked chain has started, there is a stay at every address. -/
theorem stay_afterStart (members : List (Member M)) (terminal : Flow M) (routine : A → Flow M)
    (moves : List (Move A)) (l : ClientLoop M) (φ : Address) :
    ∃ p : Stay, p.Sound members ∧
      stepsAt φ ((l.plain LogEvent).afterStart World.handleLog (fun a => (routine a).plain LogEvent)
        (Member.chain members terminal []) moves).world.2 = p.steps := by
  have located : Located members l.tasks.length φ (Member.chain members terminal) :=
    Located.chain terminal (List.Subset.refl members)
  have upheld : (watchStay members l.tasks.length φ).Upheld l.tasks.length none _ :=
    Loop.upheld_afterStart l ⟨.unentered, trivial, rfl⟩
      (fun w here => located.obeys [] w List.nil_suffix here) nofun routine moves
  exact upheld.inv

end

end GraphClient
