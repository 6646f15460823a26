import Mathlib.Tactic.Linarith
import GraphClient.Proofs.Flow.Line
import GraphClient.Proofs.Middleware.Deadlines
import GraphClient.Proofs.Middleware.Stays

/-!
# Start and end records

The records of the middleware that log are those of spans. A span lies from the time when a
middleware is entered to the time when it is left, and has those inside that are opened in between.

* `Spans`: spans one after another, each with those inside. `Spans.events`: their records.
* `Spans.Nested`: inside of a span are those of the middleware further in that are entered from it.
* `Spans.Timed.bounded`: no span lasts longer than the one around it.
* `Tracks`: a routine adds spans. `Member.tracks`: around what does so, every middleware does.
* `run_logged`: whatever happens to a run, there is a stay at every address, and the records are
  those of spans if no abandoned task adds to them.
-/

namespace GraphClient

variable {A M N : Type}

/-! ## Addresses -/

namespace Address

variable {α β γ : Address} {m n : Nat}

/-- Neither of two addresses is above the other one. -/
def Apart (α β : Address) : Prop := ¬α <:+ β ∧ ¬β <:+ α

/-- The addresses where the rest of the chain is run before a given time. -/
def Before (α : Address) (n : Nat) (β : Address) : Prop := ∃ m, m < n ∧ m :: α <:+ β

theorem Before.above (h : Before α n β) : α <:+ β := by
  obtain ⟨m, -, above⟩ := h
  exact (List.suffix_cons m α).trans above

theorem Before.mono (h : Before α m β) (le : m ≤ n) : Before α n β := by
  obtain ⟨k, lt, above⟩ := h
  exact ⟨k, by omega, above⟩

/-- What is run at different times is apart. -/
theorem Before.apart (h : Before α n β) (now : n :: α <:+ γ) : Apart β γ := by
  obtain ⟨m, lt, above⟩ := h
  have ne : m ≠ n := by omega
  exact ⟨fun up => Located.not_above now ne (above.trans up),
    fun up => Located.not_above above ne.symm (now.trans up)⟩

theorem ne_of_below (h : n :: α <:+ β) : β ≠ α := by
  rintro rfl
  exact absurd h.length_le (Nat.not_succ_le_self _)

end Address

/-! ## Spans -/

/-- Spans one after another, each with those inside. A span ends with an outcome, or it was
cancelled, abandoned or is still open. -/
inductive Spans where
  | quiet
  | span (α : Address) (o : Opening) (inner : Spans) (outcome? : Option Outcome) (ended : Rat)
    (rest : Spans)

/-- The records that are noted at an address at one time. -/
def LogEvent.records (α : Address) (time : Rat) (entries : List LogEntry) : List LogEvent :=
  (LogStep.records time entries).map (⟨α, ·⟩)

namespace Opening

/-- The start record, if its level is enabled. -/
def starts (o : Opening) (α : Address) : List LogEvent := LogEvent.records α o.time [o.start]

/-- The end record, if there is one. -/
def finishes (o : Opening) (α : Address) (ended : Rat) (outcome? : Option Outcome) :
    List LogEvent :=
  LogEvent.records α ended (outcome?.bind (o.finish? ended)).toList

theorem finishes_none (o : Opening) (α : Address) (ended : Rat) : o.finishes α ended none = [] :=
  rfl

end Opening

namespace Spans

/-- The records of the spans. Those inside are between the start record and the end record. -/
def events : Spans → List LogEvent
  | quiet => []
  | span α o inner outcome? ended rest =>
    o.starts α ++ inner.events ++ o.finishes α ended outcome? ++ rest.events

/-- The spans lie between two times, one after another, and so do those inside of each. -/
def Timed : Rat → Rat → Spans → Prop
  | a, b, quiet => a ≤ b
  | a, b, span _ o inner _ ended rest => a ≤ o.time ∧ inner.Timed o.time ended ∧ rest.Timed ended b

/-- None of the spans lasts longer than said, and none of those inside longer than the one around
it. -/
def Bounded : Rat → Spans → Prop
  | _, quiet => True
  | d, span _ o inner _ ended rest =>
    ended - o.time ≤ d ∧ inner.Bounded (ended - o.time) ∧ rest.Bounded d

/-- The spans are at addresses of some kind. Inside of each are those below its address, and all
those that come later are apart from it. -/
def Nested : (Address → Prop) → Spans → Prop
  | _, quiet => True
  | place, span α _ inner _ _ rest =>
    place α ∧ inner.Nested (fun β => place β ∧ α <:+ β ∧ β ≠ α) ∧
      rest.Nested fun β => place β ∧ α.Apart β

/-- More spans afterwards. -/
def append : Spans → Spans → Spans
  | quiet, s => s
  | span α o inner outcome? ended rest, s => span α o inner outcome? ended (rest.append s)

theorem events_append (s s' : Spans) : (s.append s').events = s.events ++ s'.events := by
  induction s with
  | quiet => rfl
  | span α o inner outcome? ended rest _ ih => simp only [append, events, ih, List.append_assoc]

namespace Timed

variable {a b c : Rat} {s s' : Spans}

theorem le (h : s.Timed a b) : a ≤ b := by
  induction s generalizing a b with
  | quiet => exact h
  | span α o inner outcome? ended rest ihi ih => exact h.1.trans ((ihi h.2.1).trans (ih h.2.2))

theorem earlier (h : s.Timed b c) (le : a ≤ b) : s.Timed a c := by
  cases s with
  | quiet => exact le.trans h
  | span α o inner outcome? ended rest => exact ⟨le.trans h.1, h.2⟩

theorem append (h : s.Timed a b) (h' : s'.Timed b c) : (s.append s').Timed a c := by
  induction s generalizing a with
  | quiet => exact h'.earlier h
  | span α o inner outcome? ended rest _ ih => exact ⟨h.1, h.2.1, ih h.2.2⟩

theorem later (h : s.Timed a b) (le : b ≤ c) : s.Timed a c := by
  induction s generalizing a with
  | quiet => exact h.trans le
  | span α o inner outcome? ended rest _ ih => exact ⟨h.1, h.2.1, ih h.2.2⟩

/-- No span lasts longer than the time that they lie in. -/
theorem bounded (h : s.Timed a b) {d : Rat} (fits : b - a ≤ d) : s.Bounded d := by
  induction s generalizing a b d with
  | quiet => trivial
  | span α o inner outcome? ended rest ihi ih =>
    obtain ⟨before, inside, after⟩ := h
    have opened := inside.le
    have closed := after.le
    exact ⟨by linarith, ihi inside le_rfl, ih after (by linarith)⟩

end Timed

namespace Nested

variable {P Q R : Address → Prop} {s s' : Spans}

theorem mono (h : s.Nested P) (weaker : ∀ β, P β → Q β) : s.Nested Q := by
  induction s generalizing P Q with
  | quiet => trivial
  | span α o inner outcome? ended rest ihi ih =>
    obtain ⟨here, inside, after⟩ := h
    exact ⟨weaker α here, ihi inside fun β => And.imp_left (weaker β),
      ih after fun β => And.imp_left (weaker β)⟩

theorem append (h : s.Nested P) (h' : s'.Nested Q) (apart : ∀ β γ, P β → Q γ → β.Apart γ)
    (left : ∀ β, P β → R β) (right : ∀ β, Q β → R β) : (s.append s').Nested R := by
  induction s generalizing P R with
  | quiet => exact h'.mono right
  | span α o inner outcome? ended rest _ ih =>
    obtain ⟨here, inside, after⟩ := h
    refine ⟨left α here, inside.mono fun β => And.imp_left (left β), ih after ?_ ?_ ?_⟩
    · exact fun β γ first => apart β γ first.1
    · exact fun β => And.imp_left (left β)
    · exact fun γ second => ⟨right γ second, apart α γ here second⟩

end Nested

/-- Since a time, spans at addresses of some kind have been added to some records. -/
def since (forward : Prop) (place : Address → Prop) (start : Rat) (es : List LogEvent) :
    Promise forward (List LogEvent) where
  holds now es' := ∃ s, (forward → Timed start now s) ∧ s.Nested place ∧ es' = es ++ s.events
  later le := fun ⟨s, timed, nested, same⟩ =>
    ⟨s, fun goes => (timed goes).later (le goes), nested, same⟩

section

variable {forward : Prop} {start now now' : Rat} {es es' es'' : List LogEvent}
  {place : Address → Prop} {α : Address} {n : Nat}

theorem since_refl (forward : Prop) (place : Address → Prop) (now : Rat) (es : List LogEvent) :
    (since forward place now es).holds now es :=
  ⟨quiet, fun _ => le_rfl, trivial, (List.append_nil es).symm⟩

/-- Before the rest of a chain is run the next time, spans are below the address of the whole chain.
-/
theorem since_above (h : (since forward (α.Before n) start es).holds now es') :
    (since forward (α <:+ ·) start es).holds now es' := by
  obtain ⟨s, timed, nested, same⟩ := h
  exact ⟨s, timed, nested.mono fun β => Address.Before.above, same⟩

/-- When the rest of a chain is run the next time, more spans are added. -/
theorem since_next (h : (since forward (α.Before n) start es).holds now es')
    (h' : (since forward (n :: α <:+ ·) now es').holds now' es'') :
    (since forward (α.Before (n + 1)) start es).holds now' es'' := by
  obtain ⟨s, timed, nested, rfl⟩ := h
  obtain ⟨s', timed', nested', rfl⟩ := h'
  refine ⟨s.append s', fun goes => (timed goes).append (timed' goes), ?_,
    by rw [events_append, List.append_assoc]⟩
  refine nested.append nested' (fun β γ => Address.Before.apart) (fun β before => ?_)
    fun β above => ?_
  · exact before.mono (Nat.le_succ n)
  · exact ⟨n, Nat.lt_succ_self n, above⟩

/-- What was added since a span was opened is inside of it. -/
theorem since_opened {o : Opening} (opened : o.time = now) (outcome? : Option Outcome) {ended : Rat}
    (inside : (since forward (0 :: α <:+ ·) now (es ++ o.starts α)).holds ended es') :
    (since forward (α <:+ ·) now es).holds ended (es' ++ o.finishes α ended outcome?) := by
  obtain ⟨s, timed, nested, rfl⟩ := inside
  refine ⟨span α o s outcome? ended quiet, fun goes => ⟨opened.ge, opened.symm ▸ timed goes, le_rfl⟩,
    ?_, ?_⟩
  · have below (β : Address) (h : 0 :: α <:+ β) : α <:+ β ∧ α <:+ β ∧ β ≠ α :=
      ⟨(List.suffix_cons 0 α).trans h, (List.suffix_cons 0 α).trans h, Address.ne_of_below h⟩
    exact ⟨List.suffix_refl α, nested.mono below, trivial⟩
  · simp only [events, List.append_assoc, List.append_nil]

end

end Spans

/-! ## Every member adds spans -/

/-- The events that are records. -/
def LogStep.isRecord : LogStep → Bool
  | .logged .. => true
  | _ => false

@[simp] theorem LogStep.isRecord_seen (r : Request) (step : LogStep) :
    (step.seen r).isRecord = step.isRecord := by
  cases step <;> rfl

def recordsOf (events : List LogEvent) : List LogEvent := events.filter (·.step.isRecord)

section

variable {forward : Prop} {scope : Nat} {α : Address} {r : Routine (logEffects M)} {start now : Rat}
  {es : List LogEvent} {during ends : Promise forward (List LogEvent)}
  {w : World M × List LogEvent} {next : Address → Routine (logEffects M)}

/-- The records of a run are observed. -/
abbrev recordsObserver (forward : Prop) (M : Type) (scope : Nat) :
    Observer forward (logEffects M) (World M × List LogEvent) (List LogEvent) :=
  ⟨World.handleLog, scope, fun w => recordsOf w.2⟩

/-- Wherever it is entered, the routine adds spans to the records, at an address and below. -/
def Tracks (forward : Prop) (scope : Nat) (α : Address) (r : Routine (logEffects M)) : Prop :=
  ∀ now w, (recordsObserver forward M scope).Obeys r
    (Spans.since forward (α <:+ ·) now (recordsOf w.2))
    (Spans.since forward (α <:+ ·) now (recordsOf w.2)) now w

/-- What leaves no marks adds no spans. -/
theorem tracks_plain (α : Address) (r : Flow M) : Tracks forward scope α (r.plain LogEvent) := by
  intro now w
  have kept := Spans.since_refl forward (α <:+ ·) now (recordsOf w.2)
  exact Observer.Silent.obeys (x := recordsObserver forward M scope) r.silent_plain kept
    (fun _ _ => Promise.holds_of_still kept) ⟨fun _ => le_rfl, rfl⟩

/-- A program adds those of the rest of the chain, each time that it runs it. -/
theorem obeys_program (h : ∀ α, Tracks forward scope α (next α)) (p : Program (effects M)) {n : Nat}
    (here : (Spans.since forward (α.Before n) start es).holds now (recordsOf w.2)) :
    (recordsObserver forward M scope).Obeys (p.located next α n)
      (Spans.since forward (α <:+ ·) start es) (Spans.since forward (α <:+ ·) start es) now w := by
  induction p generalizing α n start es now w with
  | done result => exact ⟨Spans.since_above here, Spans.since_above here⟩
  | perform op k ih => exact ih _ here
  | clock k ih => exact ih now here
  | sleep d k ih =>
    exact ⟨Spans.since_above here, fun wake now' w' later => ih wake (later.holds here)⟩
  | race part limit? k ihp ih =>
    -- While the part is under way, it is what is run the next time.
    refine ⟨Spans.since_above here, Spans.since forward (α.Before (n + 1)) start es,
      fun _ _ => Spans.since_above, ?_, fun now' w' later => ?_, fun finish now' w' => ih finish⟩
    · obtain ⟨s, timed, nested, same⟩ := here
      exact ⟨s, timed, nested.mono fun β before => before.mono (Nat.le_succ n), same⟩
    · have inside := ihp (Spans.since_refl forward (Address.Before (n :: α) 0) now' (recordsOf w'.2))
      exact inside.mono (fun _ _ => Spans.since_next (later.holds here)) fun _ _ _ => trivial
  | acquire k ih =>
    exact ⟨ih _ here, Spans.since_above here, fun wake now' w' later => ih wake (later.holds here)⟩
  | release p ih => exact ih here
  | rest k ih =>
    refine Observer.Obeys.andThen ((h _ now w).mono (fun _ _ inside => ?_) fun _ _ inside => ?_)
      fun o now' w' => ih o
    · exact Spans.since_above (Spans.since_next here inside)
    · exact Spans.since_next here inside
  | discard p ih => exact ih here

theorem recordsOf_append (es es' : List LogEvent) :
    recordsOf (es ++ es') = recordsOf es ++ recordsOf es' :=
  List.filter_append _ _

/-- What is noted that is no record is not observed. -/
theorem Observer.Obeys.mark {step : LogStep} (other : step.isRecord = false)
    (goes : ∀ w' : World M × List LogEvent, recordsOf w'.2 = recordsOf w.2 →
      (recordsObserver forward M scope).Obeys r during ends now w') :
    (recordsObserver forward M scope).Obeys (.mark ⟨α, step⟩ r) during ends now w := by
  refine goes (_, w.2 ++ [⟨α, step.seen (w.1.requestOf scope)⟩]) ?_
  rw [recordsOf_append]
  simp [recordsOf, other]

theorem Observer.Obeys.note {time : Rat} {entry : LogEntry}
    (goes : ∀ w' : World M × List LogEvent,
      recordsOf w'.2 = recordsOf w.2 ++ LogEvent.records α time [entry] →
        (recordsObserver forward M scope).Obeys r during ends now w') :
    (recordsObserver forward M scope).Obeys (Stock.note α time entry r) during ends now w := by
  unfold Stock.note
  split
  · rename_i enabled
    refine goes (_, w.2 ++ [⟨α, .logged time entry⟩]) ?_
    rw [recordsOf_append]
    simp [recordsOf, LogStep.isRecord, LogEvent.records, LogStep.records, World.enabled, enabled]
  · rename_i disabled
    refine goes (_, w.2) ?_
    simp [LogEvent.records, LogStep.records, World.enabled, disabled]

namespace Spans

/-- Where the rest of the chain has ended, the span is closed. -/
theorem obeys_closing {o : Opening} (opened : o.time = start) (outcome : Outcome)
    (inside : (since forward (0 :: α <:+ ·) start (es ++ o.starts α)).holds now (recordsOf w.2)) :
    (recordsObserver forward M scope).Obeys (Stock.closing α o outcome)
      (since forward (α <:+ ·) start es) (since forward (α <:+ ·) start es) now w := by
  have leaves (w₁ : World M × List LogEvent)
      (here : recordsOf w₁.2 = recordsOf w.2 ++ o.finishes α now (some outcome)) :
      (recordsObserver forward M scope).Obeys (.mark ⟨α, .left outcome⟩ (.done outcome))
        (since forward (α <:+ ·) start es) (since forward (α <:+ ·) start es) now w₁ := by
    refine Observer.Obeys.mark rfl fun w₂ left => ?_
    have closed : (since forward (α <:+ ·) start es).holds now (recordsOf w₂.2) := by
      rw [left, here]
      exact since_opened opened (some outcome) inside
    exact ⟨closed, closed⟩
  refine Observer.Obeys.mark rfl fun w₁ settled => ?_
  cases finish : o.finish? now outcome with
  | none =>
    refine leaves w₁ ?_
    rw [settled, Opening.finishes, Option.bind_some, finish]
    exact (List.append_nil _).symm
  | some entry =>
    refine Observer.Obeys.note fun w₂ noted => leaves w₂ ?_
    rw [noted, settled, Opening.finishes, Option.bind_some, finish]
    rfl

end Spans

/-- A middleware that logs adds a span, in which the rest of the chain adds its own. -/
theorem tracks_opening (h : ∀ α, Tracks forward scope α (next α)) (logger : String) (level : Int)
    (α : Address) (request : Request) (named : Except Failure String) :
    Tracks forward scope α (Stock.opening logger level next α request named) := by
  intro now w
  have kept := Spans.since_refl forward (α <:+ ·) now (recordsOf w.2)
  cases named with
  | error e =>
    refine Observer.Obeys.mark rfl fun w₁ refused => ?_
    rw [← refused] at kept ⊢
    exact ⟨kept, kept⟩
  | ok name =>
    let o : Opening := ⟨logger, level, request, name, now⟩
    refine Observer.Obeys.mark rfl fun w₁ opened => Observer.Obeys.note fun w₂ started => ?_
    rw [opened] at started
    have inside := h (0 :: α) now w₂
    rw [show recordsOf w₂.2 = recordsOf w.2 ++ o.starts α from started] at inside
    refine Observer.Obeys.andThen (inside.mono (fun ended s holds => ?_) fun _ _ holds => holds)
      fun outcome ended w₃ holds => Spans.obeys_closing rfl outcome holds
    have opened : o.time = now := rfl
    have left : (Spans.since forward (α <:+ ·) now (recordsOf w.2)).holds ended
        (s ++ o.finishes α ended none) :=
      Spans.since_opened opened none holds
    rwa [Opening.finishes_none, List.append_nil] at left

namespace Member

theorem tracks (h : ∀ α, Tracks forward scope α (next α)) (member : Member M) (α : Address) :
    Tracks forward scope α (member.located next α) := by
  cases member with
  | logging logger level => exact fun now w => tracks_opening h logger level α _ _ now w
  | program p => exact fun now w => obeys_program h p (Spans.since_refl forward (α.Before 0) now _)

theorem tracks_chain (members : List (Member M)) (terminal : Flow M) (α : Address) :
    Tracks forward scope α (chain members terminal α) := by
  induction members generalizing α with
  | nil => exact tracks_plain α terminal
  | cons member members ih => exact member.tracks ih α

end Member

end

/-! ## Runs -/

/-- Where a run of a marked chain is in order, its records are those of spans. -/
theorem spans_afterStart (members : List (Member M)) (terminal : Flow M) (routine : A → Flow M)
    (moves : List (Move A)) (l : ClientLoop M) :
    let others := fun a => (routine a).plain LogEvent
    let marked := Member.chain members terminal []
    let l₀ := ((l.plain LogEvent).spawn marked l.tasks.length none).1
    let l₂ := (l.plain LogEvent).afterStart World.handleLog others marked moves
    l₀.InOrder World.handleLog others (fun w => recordsOf w.2) l.tasks.length moves →
      ∃ s : Spans, (l₀.Forward World.handleLog others moves → s.Timed l.now l₂.now) ∧
        s.Nested (fun _ => True) ∧ recordsOf l₂.world.2 = s.events := by
  intro others marked l₀ l₂ inOrder
  let forward : Prop := l₀.Forward World.handleLog others moves
  have length : (l.plain LogEvent).tasks.length = l.tasks.length := List.length_map _
  let anywhere : Promise forward (List LogEvent) := Spans.since forward (fun _ => True) l.now []
  have started : (recordsObserver forward M l.tasks.length).Upheld anywhere l₀ := by
    refine Observer.upheld_spawn (Spans.since_refl forward _ l.now []) length.symm l.within_plain
      fun now w later => ?_
    obtain ⟨passes, same⟩ := later
    have tracks : Tracks forward l.tasks.length [] marked := Member.tracks_chain members terminal []
    have added := tracks now w
    rw [show recordsOf w.2 = [] from same] at added
    refine added.mono (fun now' es holds => ?_) fun _ _ _ => trivial
    obtain ⟨s, timed, nested, records⟩ := holds
    exact ⟨s, fun goes => (timed goes).earlier (passes goes), nested.mono fun _ _ => trivial, records⟩
  have upheld := started.after (fun a scope => (routine a).silent_plain) inOrder id
  have same : l₂ = l₀.after World.handleLog others moves := by
    simp only [l₂, l₀, Loop.afterStart, length]
  rw [same]
  exact upheld.holds

/-- Whatever happens after a run of a chain has started, its marked run does the same. At every
address, there is a stay. Where no abandoned task logs anything, the records are those of spans, each
with those inside that are opened in it, and if the clock does not go back, none of them lasts longer
than the one around it. -/
theorem run_logged (behaviour : N → Flow M → Flow M) (member : N → Member M) (ms : List N)
    (terminal : Flow M) (routine : A → Flow M) (moves : List (Move A)) (l : ClientLoop M)
    (members : ∀ m ∈ ms, behaviour m = (member m).behaviour) :
    let chain := (DispatchChain.mk ms behaviour terminal).dispatch
    let marked := Member.chain (ms.map member) terminal []
    let others := fun a => (routine a).plain LogEvent
    let l₀ := ((l.plain LogEvent).spawn marked l.tasks.length none).1
    let l₁ := l.afterStart World.handle routine chain moves
    let l₂ := (l.plain LogEvent).afterStart World.handleLog others marked moves
    l₁.Marks World.handle LogEvent.act l₂ ∧
      (l.world.logs ++ logsOf l₂.world.2).Sublist l₁.world.logs ∧
      (∀ φ, ∃ p : Stay, p.Sound (ms.map member) ∧ stepsAt φ l₂.world.2 = p.steps) ∧
      (l₀.InOrder World.handleLog others (fun w => recordsOf w.2) l.tasks.length moves →
        ∃ s : Spans, s.Nested (fun _ => True) ∧ recordsOf l₂.world.2 = s.events ∧
          (l₀.Forward World.handleLog others moves →
            s.Timed l.now l₁.now ∧ s.Bounded (l₁.now - l.now))) := by
  intro chain marked others l₀ l₁ l₂
  have composed : chain = (ms.map member).foldr Member.behaviour terminal :=
    (DispatchChain.dispatch_eq_foldr members).trans List.foldr_map.symm
  have marks : l₁.Marks World.handle LogEvent.act l₂ :=
    Loop.marks_afterStart (composed ▸ Member.marks_chain (ms.map member) terminal []) routine moves
  have logs : (l.world.logs ++ logsOf l₂.world.2).Sublist l₂.world.1.logs :=
    logs_afterStart others marked moves l
  rw [marks.world] at logs
  refine ⟨marks, logs, fun φ => stay_afterStart (ms.map member) terminal routine moves l φ,
    fun inOrder => ?_⟩
  obtain ⟨s, timed, nested, records⟩ :=
    spans_afterStart (ms.map member) terminal routine moves l inOrder
  refine ⟨s, nested, records, fun goes => ?_⟩
  have lasting := timed goes
  rw [marks.now] at lasting
  exact ⟨lasting, lasting.bounded le_rfl⟩

/-- Two middleware that log, and a limit of a second between them. Each comes with what it does as a
member of a chain. -/
def loggedLimit : List (Middleware × Member Middleware) :=
  [(.logging "outer" 20, .logging "outer" 20),
    (.timeout (.ofSeconds 1 Nat.one_pos), .limit (.ofSeconds 1 Nat.one_pos)),
    (.logging "inner" 10, .logging "inner" 10)]

theorem loggedLimit_behaviour : ∀ m ∈ loggedLimit, m.1.behaviour = m.2.behaviour := by
  refine List.forall_mem_cons.2 ⟨rfl, List.forall_mem_cons.2 ⟨?limit, ?inner⟩⟩
  case inner => exact List.forall_mem_singleton.2 rfl
  exact (Member.behaviour_limit _).symm

/-- The endpoint is called, and a second later the limit cuts it off. -/
def untilLate : List (Move Unit) :=
  [.job 0, .job 0, .tick 1, .fire 0, .job 0, .job 0, .job 0, .job 0]

/-- The limit passes while the endpoint is waited for. The inner middleware is cancelled and has no
end record, the outer one warns. -/
theorem run_logged_loggedLimit :
    let chain := Member.chain (loggedLimit.map Prod.snd) Endpoint.answer []
    let others : Unit → Routine (logEffects Middleware) := fun _ => Endpoint.answer.plain LogEvent
    let l₂ := (slowClient.plain LogEvent).afterStart World.handleLog others chain untilLate
    (recordsOf l₂.world.2).map (·.address) = [[], [0, 0, 0], []] ∧
      (∃ p : Stay, p.Sound (loggedLimit.map Prod.snd) ∧ stepsAt [0, 0, 0] l₂.world.2 = p.steps) ∧
      ∃ s : Spans, s.Timed 0 1 ∧ s.Bounded 1 ∧ s.Nested (fun _ => True) ∧
        recordsOf l₂.world.2 = s.events := by
  dsimp only
  obtain ⟨marks, logs, stay, spans⟩ := run_logged (·.1.behaviour) Prod.snd loggedLimit
    Endpoint.answer (fun _ => Endpoint.answer) untilLate slowClient loggedLimit_behaviour
  obtain ⟨s, nested, records, lasting⟩ := spans (Loop.inOrder_of_attends _ (by decide +kernel))
  obtain ⟨timed, bounded⟩ := lasting (by decide +kernel)
  have started : slowClient.now = 0 := rfl
  have ended : _ = (1 : Rat) := marks.now.symm.trans (by decide +kernel)
  rw [started, ended] at timed bounded
  rw [sub_zero] at bounded
  exact ⟨by decide +kernel, stay _, s, timed, bounded, nested, records⟩

/-- Four runs that are less orderly. A level of zero is not enabled. A query that is no text is
refused. A middleware that a limit has left behind, when it was cancelled itself, has its end record
after the outer one. A clock that goes back makes the inner one last longer. -/
theorem logs_of_disorderly_runs :
    let run (members : List (Member Middleware)) (moves : List (Move Unit)) :
        ClientLoop Middleware :=
      slowClient.afterStart World.handle (fun _ => Endpoint.answer)
        (DispatchChain.mk members Member.behaviour Endpoint.answer).dispatch moves
    let unlogged := run [.logging "outer" 0] [.job 0, .tick 3, .fire 0, .job 0]
    let refused := run
      [.program (.perform (E := effects Middleware) (.edit fun r => { r with query := .null })
        fun _ => .handBack), .logging "outer" 20]
      [.job 0]
    let leftBehind := run
      [.logging "outer" 20, .limit (.ofSeconds 1 Nat.one_pos), .limit (.ofSeconds 2 Nat.two_pos),
        .program (.rest fun _ => .handBack), .logging "inner" 20]
      [.job 0, .job 0, .job 0, .tick 1, .fire 0, .job 0, .job 0, .job 0, .job 0, .job 0,
        .tick 4, .fire 2, .job 0]
    let setBack := run
      [.logging "outer" 20, .program (.sleep 2 fun _ => .handBack), .logging "inner" 20]
      [.job 0, .tick (-8), .fire 0, .job 0, .tick (-5), .fire 0, .job 0]
    let finish (l : ClientLoop Middleware) :=
      (l.world.logs.drop 2).map fun entry => (entry.logger, entry.message)
    ((unlogged.outcome? 0).any Except.isOk = true ∧ unlogged.world.logs.isEmpty = true) ∧
      (refused.isOver 0 = true ∧ refused.world.logs.isEmpty = true) ∧
      finish leftBehind =
        [("inner", "GraphQL anonymous -> https://api.example.com/graphql"),
          ("outer", "GraphQL anonymous failed after 1000.0ms: GraphQL request exceeded 1s"),
          ("inner", "GraphQL anonymous completed in 3000.0ms")] ∧
      finish setBack =
        [("inner", "GraphQL anonymous completed in 3000.0ms"),
          ("outer", "GraphQL anonymous completed in -5000.0ms")] := by
  decide +kernel

end GraphClient
