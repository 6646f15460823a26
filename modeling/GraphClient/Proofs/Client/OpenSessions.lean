import GraphClient.Client.Basic
import GraphClient.Proofs.Client.Posting
import GraphClient.Proofs.Client.Solo

/-!
# Open sessions

Posts and closes share a transport, suspended and going on in any order.

* `Routine.Calm`: a routine that leaves the sessions alone, as a post does once it has one
  (`Pooled.calm_handOver`).
* `Pool.Turns`: what a post or a close does to the sessions from wait to wait. Only a close that was
  asleep may do something else (`Pooled.passes`).
* `Pooled.Lost`: a close that was asleep has ended while a session was open and in use.
* `Pooled.open_sessions`: the open sessions are the one in use and the lost ones.
-/

namespace GraphClient

variable {M : Type}

/-! ## Routines that leave the sessions alone -/

/-- The operation leaves the sessions and the client alone. -/
def Effect.Calm : Effect M → Prop
  | .updatePool f => ∀ p, (f p).sessions = p.sessions ∧ (f p).current? = p.current?
  | op => op.IsOwn

/-- The worlds have the same client and the same sessions. -/
structure World.Alike (w w' : World M) : Prop where
  fixed : w'.fixed = w.fixed
  sessions : w'.pool.sessions = w.pool.sessions
  current? : w'.pool.current? = w.pool.current?

theorem World.Alike.trans {w w' w'' : World M} (h : w.Alike w') (h' : w'.Alike w'') :
    w.Alike w'' :=
  ⟨h'.fixed.trans h.fixed, h'.sessions.trans h.sessions, h'.current?.trans h.current?⟩

theorem Effect.Calm.alike {op : Effect M} (calm : op.Calm) (w : World M) (t : Nat) :
    w.Alike (w.handle t op).2 := by
  cases op with
  | updatePool f => exact ⟨rfl, (calm w.pool).1, (calm w.pool).2⟩
  | register _ => exact calm.elim
  | updateHeaders _ => exact calm.elim
  | _ => exact ⟨rfl, rfl, rfl⟩

namespace Routine

/-- The routine leaves the sessions and the client alone, and waits for nothing but time. -/
def Calm : Flow M → Prop
  | done _ => True
  | perform op k => Effect.Calm op ∧ ∀ reply, Calm (k reply)
  | clock k => ∀ now, Calm (k now)
  | sleep _ k => ∀ wake, Calm (k wake)
  | release next => Calm next
  | race .. | acquire .. => False

theorem Calm.reaches {r : Flow M} (calm : r.Calm) {t : Nat} {w : World M}
    {P : Wait (effects M) → World M → Prop} (ends : ∀ o w', w.Alike w' → P (.over o) w')
    (sleeps : ∀ k w', (∀ wake, Calm (k wake)) → w.Alike w' → P (.sleep k) w') :
    r.Reaches World.handle t P w := by
  induction r generalizing w with
  | done o => exact ends o w ⟨rfl, rfl, rfl⟩
  | perform op k ih =>
    have alike := calm.1.alike w t
    exact ih _ (calm.2 _) (fun o w' more => ends o w' (alike.trans more))
      fun k w' later more => sleeps k w' later (alike.trans more)
  | clock k ih => exact fun now => ih now (calm now) ends sleeps
  | sleep d k _ => exact sleeps k w calm ⟨rfl, rfl, rfl⟩
  | release next ih => exact ih calm ends sleeps
  | _ => exact calm.elim

end Routine

namespace Pooled

theorem calm_finish (url : Value) (start : Rat) (a : Except Failure Answer) :
    (finish url start a : Flow M).Calm := by
  unfold finish
  split
  · split
    · refine ⟨fun _ => ⟨rfl, rfl⟩, fun _ => ⟨trivial, fun _ => ⟨trivial, fun settings => ?_⟩⟩⟩
      simp only
      split <;> trivial
    · trivial
  · trivial
  · refine fun now => ⟨trivial, fun _ => ?_⟩
    simp only
    split
    · trivial
    · exact ⟨fun _ => ⟨rfl, rfl⟩, fun _ => trivial⟩
  · trivial

theorem calm_handOver (c : Call) : (handOver c : Flow M).Calm := by
  refine fun start => ⟨fun _ => ⟨rfl, rfl⟩, fun _ => ⟨trivial, fun _ => ⟨trivial, fun _ =>
    ⟨trivial, fun ex => ?_⟩⟩⟩⟩
  show Routine.Calm (awaitAnswer (finish c.url start) ex)
  unfold awaitAnswer
  split
  · exact calm_finish ..
  · intro wake
    cases wake with
    | resumed => exact calm_finish ..
    | cancelled => exact ⟨trivial, fun _ => calm_finish ..⟩

end Pooled

/-! ## Posts and closes from wait to wait -/

/-- What becomes of the sessions: nothing, a new one is opened where none is open and is in use, the
one in use is closed, or none is in use any more where none is open. -/
inductive Pool.Turns (p p' : Pool) : Prop
  | kept : p'.sessions = p.sessions → p'.current? = p.current? → Turns p p'
  | opened : p.isClosed = true → p'.sessions = p.sessions ++ [false] →
      p'.current? = some p.sessions.length → Turns p p'
  | closed {i} : p.current? = some i → p'.sessions = p.sessions.set i true →
      p'.current? = some i ∨ p'.current? = none → Turns p p'
  | left : p.isClosed = true → p'.sessions = p.sessions → p'.current? = none → Turns p p'

theorem Pool.Turns.alike {p p' p'' : Pool} (turns : p.Turns p')
    (sessions : p''.sessions = p'.sessions) (current? : p''.current? = p'.current?) : p.Turns p'' := by
  cases turns with
  | kept same same' => exact .kept (sessions.trans same) (current?.trans same')
  | opened closed new inUse => exact .opened closed (sessions.trans new) (current?.trans inUse)
  | closed inUse closed after => exact .closed inUse (sessions.trans closed) (current? ▸ after)
  | left closed same none => exact .left closed (sessions.trans same) (current?.trans none)

/-- A session is open. -/
def Pool.IsOpen (p : Pool) (s : Nat) : Prop := p.sessions[s]? = some false

instance (p : Pool) (s : Nat) : Decidable (p.IsOpen s) := inferInstanceAs (Decidable (_ = _))

theorem Pool.isClosed_iff {p : Pool} :
    p.isClosed = true ↔ ∀ s, p.current? = some s → ¬ p.IsOpen s := by
  unfold Pool.IsOpen Pool.isClosed
  cases p.current? with
  | none => exact ⟨fun _ => nofun, fun _ => rfl⟩
  | some i =>
    simp only [Option.some.injEq, forall_eq', List.getD_eq_getElem?_getD]
    cases p.sessions[i]? with
    | none => simp
    | some b => cases b <;> simp

theorem Pool.isOpen_concat {p p' : Pool} (new : p'.sessions = p.sessions ++ [false]) (s : Nat) :
    p'.IsOpen s ↔ p.IsOpen s ∨ s = p.sessions.length := by
  rw [IsOpen, IsOpen, new]
  constructor
  · exact fun found => (getElem?_concat_cases found).imp_right And.left
  · rintro (old | rfl)
    · exact List.getElem?_append_left (List.getElem?_eq_some_iff.1 old).1 ▸ old
    · exact List.getElem?_concat_length

theorem Pool.isOpen_set {p p' : Pool} {i : Nat} (closed : p'.sessions = p.sessions.set i true)
    (s : Nat) : p'.IsOpen s ↔ p.IsOpen s ∧ i ≠ s := by
  rw [IsOpen, IsOpen, closed]
  constructor
  · intro found
    rcases getElem?_set_cases found with ⟨-, same⟩ | ⟨ne, old⟩
    · cases same
    · exact ⟨old, ne.symm⟩
  · rintro ⟨old, ne⟩
    rwa [List.getElem?_set_ne ne]

/-- So the same sessions are open without being in use. -/
theorem Pool.Turns.isOpen_iff {p p' : Pool} (turns : p.Turns p') (s : Nat) :
    (p'.IsOpen s ∧ p'.current? ≠ some s) ↔ (p.IsOpen s ∧ p.current? ≠ some s) := by
  -- A pool that is closed has no open session in use.
  have unused (closed : p.isClosed = true) : p.IsOpen s ↔ (p.IsOpen s ∧ p.current? ≠ some s) :=
    ⟨fun isOpen => ⟨isOpen, fun inUse => isClosed_iff.1 closed s inUse isOpen⟩, And.left⟩
  cases turns with
  | kept same inUse => simp only [IsOpen, same, inUse]
  | opened closed new inUse =>
    rw [← unused closed, isOpen_concat new, inUse]
    constructor
    · rintro ⟨old | rfl, other⟩
      · exact old
      · exact absurd rfl other
    · intro old
      have inside : s < p.sessions.length := (List.getElem?_eq_some_iff.1 old).1
      exact ⟨.inl old, fun same => inside.ne' (Option.some.inj same)⟩
  | @closed i inUse closed after =>
    rw [isOpen_set closed, inUse, and_assoc]
    refine and_congr_right fun _ => ⟨fun ne same => ne.1 (Option.some.inj same), fun other => ?_⟩
    refine ⟨fun same => other (congrArg some same), ?_⟩
    rcases after with after | after <;> rw [after]
    · exact other
    · exact nofun
  | left closed same none =>
    rw [← unused closed, IsOpen, IsOpen, same, none]
    exact ⟨And.left, fun isOpen => ⟨isOpen, nofun⟩⟩

/-- Making a session takes no time. -/
def SessionSource.Prompt : SessionSource → Prop
  | .scripted (some _) => False
  | _ => True

/-- A use of the transport. -/
inductive Use where
  | post (c : Call)
  | close

/-- A use of the transport, as a task of its own. -/
def Use.run : Use → Flow M
  | .post c => Pooled.post c.url c.headers c.body
  | .close => Pooled.close

namespace Pooled

/-- How a post goes on once it has waited for the lock. -/
def enter (c : Call) (wake : Wake) : Flow M :=
  Routine.onValue (match wake with
    | .resumed => (unlessOpen makeSession).andThen fun outcome => .release (.done outcome)
    | .cancelled => .fail .cancelled) fun _ => handOver c

/-- How a close goes on once it has slept. -/
def wakeClose (wake : Wake) : Flow M :=
  match wake with
  | .resumed => logClosed (.perform (.updatePool Pool.forget) fun _ => .ret .null)
  | .cancelled => .fail .cancelled

/-- Where a use stands, as its wait shows it. -/
inductive Stands (closeDelay? : Option Rat) : Use → Wait (effects M) → Prop
  | unbegun (u) : Stands closeDelay? u (.start u.run)
  | entering {c k} : (∀ wake, k wake = enter c wake) → Stands closeDelay? (.post c) (.lock k)
  | calm (c) {k} : (∀ wake, Routine.Calm (k wake)) → Stands closeDelay? (.post c) (.sleep k)
  | closing {k} : closeDelay? ≠ none → (∀ wake, k wake = wakeClose wake) →
      Stands closeDelay? .close (.sleep k)
  | ended (u o) : Stands closeDelay? u (.over o)

/-- A close that was asleep has ended. -/
def Woken (u : Use) (was is : Wait (effects M)) : Prop :=
  u = .close ∧ (∃ k, was = .sleep k) ∧ is = .over (.ok .null)

/-- What a use does from one wait to the next. -/
structure Passes (u : Use) (was is : Wait (effects M)) (w w' : World M) : Prop where
  stands : Stands w.closeDelay? u is
  fixed : w'.fixed = w.fixed
  turns : ¬ Woken u was is → w.pool.Turns w'.pool
  woken : Woken u was is → w'.pool.sessions = w.pool.sessions
  ends : u = .close → is = .over (.ok .null) → w'.pool.current? = none

variable {u : Use} {c : Call} {was : Wait (effects M)} {w w' : World M} {t : Nat}

/-- A post that needs no session any more leaves the sessions as they are. -/
theorem passes_of_calm {r : Flow M} (calm : r.Calm) (w' : World M) (fixed : w'.fixed = w.fixed)
    (turns : w.pool.Turns w'.pool) :
    r.Reaches World.handle t (fun is w' => Passes (.post c) was is w w') w' := by
  refine calm.reaches (fun o w'' alike => ?_) fun k w'' later alike => ?_
  · exact ⟨.ended _ o, alike.fixed.trans fixed, fun _ => turns.alike alike.sessions alike.current?,
      fun woken => (nomatch woken.1), nofun⟩
  · exact ⟨.calm c later, alike.fixed.trans fixed,
      fun _ => turns.alike alike.sessions alike.current?, fun woken => (nomatch woken.1), nofun⟩

theorem passes_enter (prompt : w.sessions.Prompt) (wake : Wake) :
    (enter c wake).Reaches World.handle t (fun is w' => Passes (.post c) was is w w') w := by
  cases wake with
  | cancelled => exact passes_of_calm (by trivial) w rfl (.kept rfl rfl)
  | resumed =>
    show Routine.Reaches _ t _ (Routine.onValue (Routine.andThen
      (if w.pool.isClosed then makeSession else .ret .null) _) _) w
    split
    · rename_i closed
      cases source : w.sessions with
      | network =>
        simp only [makeSession, Routine.andThen, Routine.onValue, Routine.Reaches, World.handle,
          source]
        exact passes_of_calm (calm_handOver c) { w with
            logs := w.logs ++ World.enabled ⟨10, loggerName, "HTTP session created"⟩
            pool := w.pool.openSession } rfl (.opened closed rfl rfl)
      | scripted delay? =>
        cases delay? with
        | none =>
          simp only [makeSession, Routine.andThen, Routine.onValue, Routine.Reaches, World.handle,
          source]
          exact passes_of_calm (calm_handOver c) { w with pool := w.pool.openSession } rfl
            (.opened closed rfl rfl)
        | some d => exact (source ▸ prompt).elim
    · exact passes_of_calm (calm_handOver c) w rfl (.kept rfl rfl)

theorem not_woken_start {r : Flow M} {is : Wait (effects M)} : ¬ Woken u (.start r) is := by
  rintro ⟨-, ⟨k, asleep⟩, -⟩
  cases asleep

/-- In the end, a close leaves no session in use. -/
theorem reaches_wakeClose {P : Wait (effects M) → World M → Prop}
    (ends : ∀ w', w'.fixed = w.fixed → w'.pool = w.pool.forget → P (.over (.ok .null)) w') :
    (wakeClose .resumed).Reaches World.handle t P w :=
  ends _ rfl rfl

/-- A close that has closed the session in use may fall asleep. -/
theorem passes_pause {i : Nat} {delay? : Option Rat} (delay : delay? = w.closeDelay?)
    (w' : World M) (fixed : w'.fixed = w.fixed) (inUse : w.pool.current? = some i)
    (closed : w'.pool.sessions = w.pool.sessions.set i true) (still : w'.pool.current? = some i) :
    (Endpoint.pause delay? (wakeClose .resumed)).Reaches World.handle t
      (fun is w' => Passes .close (.start close) is w w') w' := by
  cases delay? with
  | none =>
    refine reaches_wakeClose fun w'' fixed' forgot => ?_
    have none : w''.pool.current? = none := by rw [forgot]; rfl
    have same : w''.pool.sessions = w'.pool.sessions := by rw [forgot]; rfl
    exact ⟨.ended _ _, fixed'.trans fixed, fun _ => .closed inUse (same.trans closed) (.inr none),
      fun woken => (not_woken_start woken).elim, fun _ _ => none⟩
  | some d =>
    exact ⟨.closing (delay ▸ Option.some_ne_none d) fun wake => by cases wake <;> rfl, fixed,
      fun _ => .closed inUse closed (.inl still), fun woken => (not_woken_start woken).elim, nofun⟩

theorem passes_close :
    (close : Flow M).Reaches World.handle t
      (fun is w' => Passes .close (.start close) is w w') w := by
  show Routine.Reaches _ t _ (if w.pool.isClosed then _ else _) w
  split
  · rename_i closed
    exact ⟨.ended _ _, rfl, fun _ => .left closed rfl rfl,
      fun woken => (not_woken_start woken).elim, fun _ _ => rfl⟩
  · rename_i isOpen
    obtain ⟨i, inUse⟩ : ∃ i, w.pool.current? = some i := by
      cases found : w.pool.current? with
      | none => exact absurd (by rw [Pool.isClosed, found]) isOpen
      | some i => exact ⟨i, rfl⟩
    have closed : w.pool.closeCurrent = { w.pool with sessions := w.pool.sessions.set i true } := by
      rw [Pool.closeCurrent, inUse]
      simp only [inUse]
    exact passes_pause rfl { w with pool := w.pool.closeCurrent } rfl inUse
      (congrArg Pool.sessions closed) ((congrArg Pool.current? closed).trans inUse)

theorem passes (prompt : w.sessions.Prompt) {signal : Wake} {r : Flow M}
    (stands : Stands w.closeDelay? u was) (goes : was.Goes signal r) :
    r.Reaches World.handle t (fun is w' => Passes u was is w w') w := by
  cases stands with
  | unbegun u =>
    cases goes with
    | unbegun =>
      exact ⟨.ended _ _, rfl, fun _ => .kept rfl rfl, fun woken => (nomatch woken.2.2), nofun⟩
    | start =>
      cases u with
      | close => exact passes_close
      | post c =>
        show Routine.Reaches _ t _ (Routine.onValue
          (if w.pool.isClosed then Routine.withLock (unlessOpen makeSession) else .ret .null)
          fun _ => handOver c) w
        split
        · refine ⟨passes_enter prompt .resumed, ?_⟩
          exact ⟨.entering fun wake => by cases wake <;> rfl, rfl, fun _ => .kept rfl rfl,
            fun woken => (nomatch woken.1), nofun⟩
        · exact passes_of_calm (calm_handOver c) w rfl (.kept rfl rfl)
  | entering same =>
    cases goes
    rw [same]
    exact passes_enter prompt _
  | calm c later =>
    cases goes
    exact passes_of_calm (later _) w rfl (.kept rfl rfl)
  | closing _ same =>
    cases goes
    rw [same]
    cases signal with
    | resumed =>
      refine reaches_wakeClose fun w' fixed forgot => ?_
      exact ⟨.ended _ _, fixed, fun asleep => absurd ⟨rfl, ⟨_, rfl⟩, rfl⟩ asleep,
        fun _ => by rw [forgot]; rfl, fun _ _ => by rw [forgot]; rfl⟩
    | cancelled =>
      exact ⟨.ended _ _, rfl, fun _ => .kept rfl rfl, fun woken => (nomatch woken.2.2), nofun⟩
  | ended u o => cases goes

/-! ## Every history -/

/-- The loop after some moves of posts and closes. -/
def shared (world : World M) (moves : List (Move Use)) : ClientLoop M :=
  (Loop.initial world).after World.handle Use.run moves

/-- With a move a close ends that was asleep before. -/
def Wakes (world : World M) (moves : List (Move Use)) (m : Move Use) (t : Nat) : Prop :=
  (moves.filterMap Move.started?)[t]? = some .close ∧
    (∃ k, (shared world moves).waits[t]? = some (.sleep k)) ∧
    (shared world (moves ++ [m])).outcome? t = some (.ok .null)

/-- A close that was asleep has ended while a session was open and in use. -/
def Lost (world : World M) (moves : List (Move Use)) (s : Nat) : Prop :=
  ∃ before m t, before ++ [m] <+: moves ∧ Wakes world before m t ∧
    (shared world before).world.pool.IsOpen s ∧
    (shared world before).world.pool.current? = some s

/-- Every use stands where its wait shows it. -/
structure Tracked (world : World M) (moves : List (Move Use)) : Prop where
  orderly : (shared world moves).Orderly (moves.filterMap Move.cancelled?)
  fixed : (shared world moves).world.fixed = world.fixed
  length : (moves.filterMap Move.started?).length = (shared world moves).waits.length
  stands : ∀ (t : Nat) u wait, (moves.filterMap Move.started?)[t]? = some u →
    (shared world moves).waits[t]? = some wait → Stands world.closeDelay? u wait

/-- What a move does to the sessions. -/
structure Moves (world : World M) (moves : List (Move Use)) (m : Move Use) : Prop where
  turns : (∀ t, ¬ Wakes world moves m t) →
    (shared world moves).world.pool.Turns (shared world (moves ++ [m])).world.pool
  wakes : ∀ t, Wakes world moves m t →
    (shared world (moves ++ [m])).world.pool.sessions = (shared world moves).world.pool.sessions ∧
      (shared world (moves ++ [m])).world.pool.current? = none
  ends : ∀ t : Nat, (moves.filterMap Move.started?)[t]? = some .close →
    (shared world moves).isOver t = false →
    (shared world (moves ++ [m])).outcome? t = some (.ok .null) →
    (shared world (moves ++ [m])).world.pool.current? = none

variable {world : World M} {moves : List (Move Use)} {s : Nat}

theorem tracked_nil : Tracked world [] where
  orderly := ⟨nofun⟩
  fixed := rfl
  length := rfl
  stands _ _ _ started := nomatch started

/-- A use that runs has not ended. -/
theorem ne_over_of_running {t : Nat} (running : (shared world moves).isOver t = false)
    (o : Outcome) : (shared world moves).waits[t]? ≠ some (.over o) := fun finished => by
  rw [Loop.isOver, Loop.outcome?_eq_some_iff.2 finished] at running
  cases running

section

variable (h : Tracked world moves) {m : Move Use}
  (orderly : (shared world (moves ++ [m])).Orderly
    (moves.filterMap Move.cancelled? ++ m.cancelled?.toList))

include h orderly

/-- A move at which no use goes on changes nothing, but it may start one. -/
theorem Tracked.still (waits : (shared world (moves ++ [m])).waits =
      (shared world moves).waits ++ m.started?.toList.map fun u => .start u.run)
    (same : (shared world (moves ++ [m])).world = (shared world moves).world) :
    Tracked world (moves ++ [m]) ∧ Moves world moves m := by
  have old {t : Nat} {o : Outcome}
      (finished : (shared world (moves ++ [m])).outcome? t = some o) :
      (shared world moves).waits[t]? = some (.over o) := by
    have finished := Loop.outcome?_eq_some_iff.1 finished
    rw [waits] at finished
    cases started : m.started? with
    | none => simpa only [started, Option.toList, List.map_nil, List.append_nil] using finished
    | some u =>
      rw [started] at finished
      rcases getElem?_concat_cases finished with old | ⟨-, new⟩
      · exact old
      · cases new
  refine ⟨⟨filterMap_concat Move.cancelled? moves m ▸ orderly, same ▸ h.fixed, ?_,
    fun t u wait => ?_⟩, fun _ => same ▸ .kept rfl rfl, fun t woken => ?_,
    fun t _ running finished => absurd (old finished) (ne_over_of_running running _)⟩
  · rw [filterMap_concat, waits, List.length_append, List.length_append, List.length_map, h.length]
  · rw [filterMap_concat, waits]
    cases m.started? with
    | none =>
      simp only [Option.toList, List.map_nil, List.append_nil]
      exact h.stands t u wait
    | some u' =>
      intro mine waiting
      rcases getElem?_concat_cases mine with mine | ⟨rfl, rfl⟩
      · rw [List.getElem?_append_left (h.length ▸ (List.getElem?_eq_some_iff.1 mine).1)] at waiting
        exact h.stands t u wait mine waiting
      · rcases getElem?_concat_cases waiting with old | ⟨-, rfl⟩
        · exact absurd (h.length ▸ (List.getElem?_eq_some_iff.1 old).1) (Nat.lt_irrefl _)
        · exact .unbegun u
  · obtain ⟨-, ⟨k, asleep⟩, finished⟩ := woken
    cases asleep.symm.trans (old finished)

/-- A move at which a use goes on does what this does. -/
theorem Tracked.goes {t : Nat} {u : Use} {was is : Wait (effects M)} (unstarted : m.started? = none)
    (waits : (shared world (moves ++ [m])).waits = (shared world moves).waits.set t is)
    (mine : (moves.filterMap Move.started?)[t]? = some u)
    (waiting : (shared world moves).waits[t]? = some was)
    (passed : Passes u was is (shared world moves).world (shared world (moves ++ [m])).world) :
    Tracked world (moves ++ [m]) ∧ Moves world moves m := by
  have uses : (moves ++ [m]).filterMap Move.started? = moves.filterMap Move.started? := by
    rw [filterMap_concat, unstarted]
    exact List.append_nil _
  have delay : (shared world moves).world.closeDelay? = world.closeDelay? :=
    (congrArg World.closeDelay? h.fixed :)
  -- Whoever has ended had ended before, or is the use that went on.
  have ended {t' : Nat} {o : Outcome}
      (finished : (shared world (moves ++ [m])).outcome? t' = some o) :
      t' = t ∧ .over o = is ∨ (shared world moves).waits[t']? = some (.over o) := by
    have finished := Loop.outcome?_eq_some_iff.1 finished
    rw [waits] at finished
    exact (getElem?_set_cases finished).imp_right And.right
  refine ⟨⟨filterMap_concat Move.cancelled? moves m ▸ orderly, passed.fixed.trans h.fixed, ?_,
    fun t' u' wait mine' waiting' => ?_⟩, fun asleep => ?_, fun t' woken => ?_,
    fun t' mine' running finished => ?_⟩
  · rw [uses, waits, List.length_set, h.length]
  · rw [uses] at mine'
    rw [waits] at waiting'
    rcases getElem?_set_cases waiting' with ⟨rfl, rfl⟩ | ⟨-, old⟩
    · obtain rfl := Option.some.inj (mine.symm.trans mine')
      exact delay ▸ passed.stands
    · exact h.stands t' u' wait mine' old
  · refine passed.turns ?_
    rintro ⟨rfl, ⟨k, rfl⟩, rfl⟩
    refine asleep t ⟨mine, ⟨k, waiting⟩, Loop.outcome?_eq_some_iff.2 ?_⟩
    rw [waits, List.getElem?_set_self (List.getElem?_eq_some_iff.1 waiting).1]
  · obtain ⟨mine', ⟨k, asleep⟩, finished⟩ := woken
    rcases ended finished with ⟨rfl, rfl⟩ | old
    · obtain rfl := Option.some.inj (mine.symm.trans mine')
      exact ⟨passed.woken ⟨rfl, ⟨k, Option.some.inj (waiting.symm.trans asleep)⟩, rfl⟩,
        passed.ends rfl rfl⟩
    · cases asleep.symm.trans old
  · rcases ended finished with ⟨rfl, rfl⟩ | old
    · exact passed.ends (Option.some.inj (mine.symm.trans mine')) rfl
    · exact absurd old (ne_over_of_running running _)

end

/-- A move keeps every use where its wait shows it, and the sessions turn as they may. -/
theorem Tracked.concat (prompt : world.sessions.Prompt) (h : Tracked world moves) (m : Move Use) :
    Tracked world (moves ++ [m]) ∧ Moves world moves m := by
  have sessions : (shared world moves).world.sessions = world.sessions :=
    (congrArg World.sessions h.fixed :)
  have delay : (shared world moves).world.closeDelay? = world.closeDelay? :=
    (congrArg World.closeDelay? h.fixed :)
  have go (t : Nat) (was : Wait (effects M)) (signal : Wake) (r : Flow M)
      (waiting : (shared world moves).waits[t]? = some was) (goes : was.Goes signal r) :
      r.Reaches World.handle t (fun is w' => ∃ u was,
        (moves.filterMap Move.started?)[t]? = some u ∧
        (shared world moves).waits[t]? = some was ∧
        Passes u was is (shared world moves).world w') (shared world moves).world := by
    obtain ⟨u, mine⟩ : ∃ u, (moves.filterMap Move.started?)[t]? = some u :=
      ⟨_, List.getElem?_eq_getElem (h.length ▸ (List.getElem?_eq_some_iff.1 waiting).1)⟩
    exact (passes (sessions ▸ prompt) (delay ▸ h.stands t u was mine waiting) goes).mono
      fun is w' passed => ⟨u, was, mine, waiting, passed⟩
  obtain ⟨orderly, seen⟩ := h.orderly.move Use.run m fun t was signal r waiting goes _ =>
    go t was signal r waiting goes
  have next : shared world (moves ++ [m]) =
      (shared world moves).move World.handle Use.run m := Loop.after_concat ..
  rw [← next] at orderly seen
  rcases seen with ⟨waits, same⟩ | ⟨⟨unstarted, -⟩, t, is, waits, u, was, mine, waiting, passed⟩
  · exact h.still orderly waits same
  · exact h.goes orderly unstarted waits mine waiting passed

theorem tracked (prompt : world.sessions.Prompt) (moves : List (Move Use)) :
    Tracked world moves := by
  induction moves using List.reverseRecOn with
  | nil => exact tracked_nil
  | append_singleton moves m ih => exact (ih.concat prompt m).1

/-- What is lost after a move was lost before, or is lost with the move. -/
theorem lost_concat {m : Move Use} : Lost world (moves ++ [m]) s ↔ Lost world moves s ∨
    (∃ t, Wakes world moves m t) ∧ (shared world moves).world.pool.IsOpen s ∧
      (shared world moves).world.pool.current? = some s := by
  constructor
  · rintro ⟨before, m', t, within, wakes, isOpen, inUse⟩
    rcases List.prefix_concat_iff.1 within with whole | within
    · obtain ⟨rfl, last⟩ := List.append_inj' whole rfl
      obtain rfl := List.singleton_inj.1 last
      exact .inr ⟨⟨t, wakes⟩, isOpen, inUse⟩
    · exact .inl ⟨before, m', t, within, wakes, isOpen, inUse⟩
  · rintro (⟨before, m', t, within, rest⟩ | ⟨⟨t, wakes⟩, isOpen, inUse⟩)
    · exact ⟨before, m', t, within.trans (List.prefix_append moves [m]), rest⟩
    · exact ⟨moves, m, t, List.prefix_rfl, wakes, isOpen, inUse⟩

/-- The sessions that are open and not in use are the lost ones. -/
theorem isOpen_iff_lost (prompt : world.sessions.Prompt) (fresh : world.pool.sessions = [])
    (moves : List (Move Use)) :
    ((shared world moves).world.pool.IsOpen s ∧
      (shared world moves).world.pool.current? ≠ some s) ↔ Lost world moves s := by
  induction moves using List.reverseRecOn with
  | nil =>
    constructor
    · rintro ⟨isOpen, -⟩
      have none : (shared world []).world.pool.sessions = [] := fresh
      rw [Pool.IsOpen, none] at isOpen
      cases isOpen
    · rintro ⟨before, m, t, within, -⟩
      exact absurd (List.prefix_nil.1 within) (List.concat_ne_nil m before)
  | append_singleton moves m ih =>
    obtain ⟨-, does⟩ := (tracked prompt moves).concat prompt m
    rw [lost_concat, ← ih]
    by_cases woken : ∃ t, Wakes world moves m t
    · obtain ⟨t, wakes⟩ := woken
      obtain ⟨same, none⟩ := does.wakes t wakes
      rw [Pool.IsOpen, same, none]
      constructor
      · rintro ⟨isOpen, -⟩
        by_cases inUse : (shared world moves).world.pool.current? = some s
        · exact .inr ⟨⟨t, wakes⟩, isOpen, inUse⟩
        · exact .inl ⟨isOpen, inUse⟩
      · rintro (⟨isOpen, -⟩ | ⟨-, isOpen, -⟩)
        · exact ⟨isOpen, nofun⟩
        · exact ⟨isOpen, nofun⟩
    · rw [(does.turns fun t wakes => woken ⟨t, wakes⟩).isOpen_iff]
      exact ⟨.inl, fun lost => lost.resolve_right fun new => woken new.1⟩

/-- After every history of posts and closes, the sessions that are open are the one in use and the
lost ones, so but for these there is at most one. When a close has ended, whatever else runs, all
that are open are lost. If closing a session takes no time, none is ever lost. -/
theorem open_sessions (world : World M) (prompt : world.sessions.Prompt)
    (fresh : world.pool.sessions = []) (moves : List (Move Use)) :
    let p := (shared world moves).world.pool
    (∀ s, (p.IsOpen s ∧ p.current? ≠ some s) ↔ Lost world moves s) ∧
    (∀ s s', p.IsOpen s → p.IsOpen s' → ¬ Lost world moves s → ¬ Lost world moves s' → s = s') ∧
    (∀ before m (t : Nat), moves = before ++ [m] →
      (before.filterMap Move.started?)[t]? = some .close → (shared world before).isOver t = false →
      (shared world moves).outcome? t = some (.ok .null) → ∀ s, p.IsOpen s → Lost world moves s) ∧
    (world.closeDelay? = none → ∀ s, ¬ Lost world moves s) := by
  intro p
  have lost (s : Nat) : (p.IsOpen s ∧ p.current? ≠ some s) ↔ Lost world moves s :=
    isOpen_iff_lost prompt fresh moves
  have inUse {s : Nat} (isOpen : p.IsOpen s) (kept : ¬ Lost world moves s) : p.current? = some s :=
    by_contra fun other => kept ((lost s).1 ⟨isOpen, other⟩)
  refine ⟨lost, fun s s' isOpen isOpen' kept kept' => ?_, ?_, fun atOnce s => ?_⟩
  · exact Option.some.inj ((inUse isOpen kept).symm.trans (inUse isOpen' kept'))
  · rintro before m t rfl mine running finished s isOpen
    obtain ⟨-, does⟩ := (tracked prompt before).concat prompt m
    exact (lost s).1 ⟨isOpen, fun inUse => nomatch inUse.symm.trans (does.ends t mine running finished)⟩
  · rintro ⟨before, m, t, -, ⟨mine, ⟨k, asleep⟩, -⟩, -⟩
    cases (tracked prompt before).stands t .close _ mine asleep with
    | closing takes _ => exact takes atOnce

/-- An endpoint behind a transport that needs a second to close a session. -/
def slowToClose : World Middleware :=
  let client : World Middleware := Client.make (.text "https://api.example.com/graphql") [] .pooled
    .default [⟨none, .respond ⟨503, "", []⟩⟩] .network
  { client with closeDelay? := some 1 }

/-- A post opens a session. While it is being closed, another post opens one. -/
def overtakenClose : List (Move Use) :=
  let call : Call := ⟨.text "https://api.example.com/graphql", [], "{}"⟩
  [.start (.post call), .job 0, .start .close, .job 0, .start (.post call), .job 0, .tick 1,
   .fire 1, .job 0]

theorem open_sessions_overtakenClose :
    slowToClose.sessions.Prompt ∧ slowToClose.pool.sessions = [] ∧
    Lost slowToClose overtakenClose 1 := by
  have prompt : slowToClose.sessions.Prompt := trivial
  obtain ⟨lost, -⟩ := open_sessions slowToClose prompt rfl overtakenClose
  exact ⟨prompt, rfl, (lost 1).1 (by decide +kernel)⟩

/-- The second session stays open after a later close, though nothing else runs any more. -/
theorem open_after_close :
    let l := shared slowToClose (overtakenClose ++ [.start .close, .job 0])
    l.tasks.all Task.isOver ∧ l.world.pool.sessions = [true, false] ∧
      l.world.pool.current? = none := by
  decide +kernel

end Pooled

end GraphClient
