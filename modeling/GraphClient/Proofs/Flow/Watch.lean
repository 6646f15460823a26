import GraphClient.Proofs.Flow.Interleaving
import GraphClient.Proofs.Flow.Turns

/-!
# A run that is watched

One run is watched in a loop with others: what it does to a state that nobody else changes. At any
time only one task of the run may change the state. It keeps that to itself, or leaves it to a part
that it starts.

* `Watch.Obeys`: a routine keeps an invariant of the state wherever it waits, and ends as specified.
* `Watch.Upheld`: one task obeys, and all others are silent.
* `Upheld.job`, `Upheld.move`, `Upheld.after`: this is kept, whatever happens.
-/

namespace GraphClient

variable {A S : Type} {E : Effects} {W : Type}

/-- What is watched of a run in a scope: a state in the world, and an invariant of it. -/
structure Watch (E : Effects) (W S : Type) where
  handler : Handler E W
  scope : Nat
  state : W → S
  inv : S → Prop

namespace Watch

variable (x : Watch E W S)

/-- The routine does nothing to the state in a scope. -/
abbrev Silent (scope : Nat) (r : Routine E) : Prop := r.Silent x.handler x.state scope

/-- From a world on, the routine keeps the invariant wherever it waits, and ends as specified, if
anything is. The state stays the same while it waits. The part of a race does nothing to the state,
or the race does nothing to it any more. -/
def Obeys : Routine E → Option (Outcome → S → Prop) → W → Prop
  | .done o, ends?, w => x.inv (x.state w) ∧ ∀ ends ∈ ends?, ends o (x.state w)
  | .perform op k, ends?, w =>
    Obeys (k (x.handler x.scope op w).1) ends? (x.handler x.scope op w).2
  | .clock k, ends?, w => ∀ now, Obeys (k now) ends? w
  | .sleep _ k, ends?, w =>
    x.inv (x.state w) ∧ ∀ wake w', x.state w' = x.state w → Obeys (k wake) ends? w'
  | .race part _ k, ends?, w =>
    x.inv (x.state w) ∧
      (x.Silent x.scope part ∧
          (∀ finish w', x.state w' = x.state w → Obeys (k finish) ends? w') ∨
        ends? = none ∧ (∀ finish, x.Silent x.scope (k finish)) ∧
          ∀ w', x.state w' = x.state w → Obeys part none w')
  | .acquire k, ends?, w =>
    Obeys (k .resumed) ends? w ∧
      x.inv (x.state w) ∧ ∀ wake w', x.state w' = x.state w → Obeys (k wake) ends? w'
  | .release next, ends?, w => Obeys next ends? w

variable {x} {w : W} {s : S} {ends : Outcome → S → Prop} {ends? : Option (Outcome → S → Prop)}
  {scope : Nat} {r : Routine E} {f : Outcome → Routine E}

/-- After a routine that does nothing to the state, it is as before. -/
theorem Silent.obeys_andThen (h : x.Silent x.scope r) (holds : x.inv (x.state w))
    (rest : ∀ o w', x.state w' = x.state w → x.Obeys (f o) ends? w') :
    x.Obeys (r.andThen f) ends? w := by
  induction r generalizing w with
  | done o => exact rest o w rfl
  | perform op k ih =>
    have same := h.1 w
    exact ih _ (h.2 _) (same ▸ holds) fun o w' later => rest o w' (later.trans same)
  | clock k ih => exact fun now => ih now (h now) holds rest
  | sleep d k ih =>
    exact ⟨holds, fun wake w' same => ih wake (h wake) (same ▸ holds) fun o w'' later =>
      rest o w'' (later.trans same)⟩
  | race part limit? k _ ih =>
    exact ⟨holds, .inl ⟨h.1, fun finish w' same => ih finish (h.2 finish) (same ▸ holds)
      fun o w'' later => rest o w'' (later.trans same)⟩⟩
  | acquire k ih =>
    exact ⟨ih .resumed (h .resumed) holds rest, holds, fun wake w' same =>
      ih wake (h wake) (same ▸ holds) fun o w'' later => rest o w'' (later.trans same)⟩
  | release next ih => exact ih h holds rest

theorem Silent.obeys (h : x.Silent x.scope r) (holds : x.inv (x.state w))
    (anyhow : ∀ ends ∈ ends?, ∀ o, ends o (x.state w)) : x.Obeys r ends? w := by
  rw [← r.andThen_done]
  refine h.obeys_andThen holds fun o w' same => ?_
  exact ⟨same ▸ holds, fun ends mem => same ▸ anyhow ends mem o⟩

namespace Obeys

/-- After a routine that obeys comes another one. Where the state may be left to a part, the rest does
nothing to it. -/
theorem andThen_of {ends'? : Option (Outcome → S → Prop)} (h : x.Obeys r ends? w)
    (rest : ∀ o w, x.inv (x.state w) → (∀ ends ∈ ends?, ends o (x.state w)) → x.Obeys (f o) ends'? w)
    (left : ends? = none → ends'? = none ∧ ∀ o, x.Silent x.scope (f o)) :
    x.Obeys (r.andThen f) ends'? w := by
  induction r generalizing w with
  | done o => exact rest o w h.1 h.2
  | perform op k ih => exact ih _ h
  | clock k ih => exact fun now => ih now (h now)
  | sleep d k ih => exact ⟨h.1, fun wake w' same => ih wake (h.2 wake w' same)⟩
  | race part limit? k _ ih =>
    refine ⟨h.1, h.2.imp (fun ⟨part, goesOn⟩ => ⟨part, ?_⟩) fun ⟨unsaid, goesOn, part⟩ => ?_⟩
    · exact fun finish w' same => ih finish (goesOn finish w' same)
    · obtain ⟨unsaid', silent⟩ := left unsaid
      exact ⟨unsaid', fun finish => (goesOn finish).andThen silent, part⟩
  | acquire k ih =>
    exact ⟨ih .resumed h.1, h.2.1, fun wake w' same => ih wake (h.2.2 wake w' same)⟩
  | release next ih => exact ih h

theorem andThen (h : x.Obeys r (some ends) w)
    (rest : ∀ o w, ends o (x.state w) → x.Obeys (f o) ends? w) : x.Obeys (r.andThen f) ends? w :=
  h.andThen_of (fun o w _ came => rest o w (came ends rfl)) fun unsaid => by cases unsaid

/-- What does nothing to the state may follow. -/
theorem andThen_silent (h : x.Obeys r none w) (silent : ∀ o, x.Silent x.scope (f o)) :
    x.Obeys (r.andThen f) none w :=
  h.andThen_of (fun o _ holds _ => (silent o).obeys holds fun _ mem => by cases mem)
    fun _ => ⟨rfl, silent⟩

end Obeys

/-! ## The tasks of a run -/

variable (x)

/-- The task obeys after its wait, and before its first turn it may be cancelled. -/
structure Runs (ends? : Option (Outcome → S → Prop)) (s : S) (wait : Wait E) : Prop where
  goesOn : wait.Holds fun r => ∀ w, x.state w = s → x.Obeys r ends? w
  unbegun : ∀ r, wait = .start r → ∀ ends ∈ ends?, ends (.error .cancelled) s
  ended : ∀ o, wait = .over o → ∀ ends ∈ ends?, ends o s

/-- One task obeys. All others do nothing to the state. -/
inductive Judged (own : Nat) (ends? : Option (Outcome → S → Prop)) (s : S) (t scope : Nat)
    (wait : Wait E) : Prop
  | own : t = own → scope = x.scope → x.Runs ends? s wait → Judged own ends? s t scope wait
  | other : t ≠ own → wait.Holds (x.Silent scope) → Judged own ends? s t scope wait

/-- The run is under way, or has ended as specified. -/
def Upheld (base : Nat) (ends? : Option (Outcome → S → Prop)) (l : Loop E W) : Prop :=
  ∃ own, own < l.tasks.length ∧ (ends? = none ∨ own = base) ∧ x.inv (x.state l.world) ∧
    l.Within (x.Judged own ends? (x.state l.world)) fun _ => True

variable {x} {own base t : Nat} {s' : S} {wait : Wait E} {l l₁ l' : Loop E W}

/-- A task that waits goes on with what obeys. -/
theorem Runs.of_open (isOpen : wait.IsOpen)
    (goesOn : wait.Holds fun r => ∀ w, x.state w = s → x.Obeys r ends? w) :
    x.Runs ends? s wait where
  goesOn := goesOn
  unbegun r new := by
    rw [new] at isOpen
    exact isOpen.elim
  ended o came := by
    rw [came] at isOpen
    exact isOpen.elim

theorem Runs.of_over {o : Outcome} (came : ∀ ends ∈ ends?, ends o s) :
    x.Runs ends? s (.over o : Wait E) where
  goesOn := trivial
  unbegun r new := by cases new
  ended o' same := by
    cases same
    exact came

theorem Runs.of_start (obeys : ∀ w, x.state w = s → x.Obeys r ends? w)
    (unbegun : ∀ ends ∈ ends?, ends (.error .cancelled) s) : x.Runs ends? s (.start r) where
  goesOn := obeys
  unbegun _ _ := unbegun
  ended o came := by cases came

theorem Judged.steady (own : Nat) (ends? : Option (Outcome → S → Prop)) (s : S) :
    Loop.Steady (x.Judged own ends? s) := by
  intro t scope part forwarded k h
  cases h with
  | own same scope runs =>
    exact .own same scope (.of_open trivial (Wait.Holds.drain runs.goesOn true))
  | other ne silent => exact .other ne (Wait.Holds.drain silent true)

/-! ## Turns -/

variable (x) in
/-- Where a turn ends, the invariant holds, and what comes next obeys. -/
def Ends (ends? : Option (Outcome → S → Prop)) (halt : Halt E) (w : W) : Prop :=
  x.inv (x.state w) ∧ match halt with
    | .over o => ∀ ends ∈ ends?, ends o (x.state w)
    | .sleep k => ∀ wake w', x.state w' = x.state w → x.Obeys (k wake) ends? w'
    | .race part k =>
      x.Silent x.scope part ∧ (∀ finish w', x.state w' = x.state w → x.Obeys (k finish) ends? w') ∨
        ends? = none ∧ (∀ finish, x.Silent x.scope (k finish)) ∧
          ∀ w', x.state w' = x.state w → x.Obeys part none w'
    | .lock k => ∀ wake w', x.state w' = x.state w → x.Obeys (k wake) ends? w'

theorem Obeys.halts (h : x.Obeys r ends? w) (now : Rat) :
    r.Halts x.handler x.scope (x.Ends ends?) now w := by
  induction r generalizing w with
  | done o => exact h
  | perform op k ih => exact ih _ h
  | clock k ih => exact ih _ (h now)
  | sleep d k _ => exact h
  | race part limit? k _ _ => exact h
  | acquire k ih => exact ⟨ih _ h.1, h.2⟩
  | release next ih => exact ih h

namespace Upheld

/-- The task that obeys runs until it waits again or has ended. -/
theorem turn (whose : ends? = none ∨ own = base) (inside : own < l.tasks.length)
    (others : l.Within (Loop.Others own (x.Judged own ends? s)) fun _ => True)
    (scope : l.Within (Loop.InScope own x.scope) fun _ => True) (obeys : x.Obeys r ends? l.world) :
    x.Upheld base ends? (Loop.exec x.handler x.scope own r l) := by
  obtain ⟨-, halt, ⟨holds, ends⟩, length, judges⟩ := Loop.exec_halts scope (obeys.halts l.now)
  generalize Loop.exec x.handler x.scope own r l = l' at holds ends length judges ⊢
  have inside' : own < l'.tasks.length := length ▸ Nat.lt_add_right _ inside
  have stays
      (judged : halt.Judged (x.Judged own ends? (x.state l'.world)) own x.scope l.tasks.length) :
      x.Upheld base ends? l' := by
    refine ⟨own, inside', whose, holds, judges _ (Judged.steady own ends? _)
      ⟨fun e ne => ?_, trivial⟩ judged⟩
    cases others.task e ne with
    | own same => exact absurd same ne
    | other ne silent => exact .other ne silent
  cases halt with
  | «over» o => exact stays (.own rfl rfl (.of_over ends))
  | sleep k => exact stays (.own rfl rfl (.of_open trivial ends))
  | lock k => exact stays (.own rfl rfl (.of_open trivial ends))
  | race part k =>
    have fresh : l.tasks.length ≠ own := inside.ne'
    rcases ends with ⟨silent, goesOn⟩ | ⟨rfl, silent, obeys⟩
    · exact stays ⟨.own rfl rfl (.of_open trivial goesOn), .other fresh silent⟩
    · -- The state is left to the part.
      refine ⟨l.tasks.length, length ▸ Nat.lt_succ_self _, .inl rfl, holds,
        judges _ (Judged.steady _ none _) ⟨fun e ne => ?_, trivial⟩
        ⟨.other fresh.symm silent, .own rfl rfl (.of_start obeys fun _ mem => by cases mem)⟩⟩
      cases others.task e ne with
      | own same => exact absurd same ne
      | other _ silent => exact .other (List.getElem?_eq_some_iff.1 e).1.ne silent

/-- Another task runs until it waits again or has ended. -/
theorem turn_other (inside : own < l.tasks.length) (whose : ends? = none ∨ own = base)
    (holds : x.inv (x.state l.world))
    (within : l.Within (Loop.Others t (x.Judged own ends? (x.state l.world))) fun _ => True)
    (inScope : l.Within (Loop.InScope t scope) fun _ => True) (ne : t ≠ own)
    (silent : x.Silent scope r) : x.Upheld base ends? (Loop.exec x.handler scope t r l) := by
  obtain ⟨-, halt, ⟨judged, same⟩, length, judges⟩ :=
    Loop.exec_halts inScope (silent.halts rfl l.now t l.tasks.length)
  refine ⟨own, length ▸ Nat.lt_add_right _ inside, whose, same ▸ holds, ?_⟩
  rw [same]
  refine judges _ (Judged.steady own ends? _) within (judged.mono ?_)
  rintro j wait (rfl | rfl) silent
  · exact .other ne silent
  · exact .other inside.ne' silent

theorem stirred (h : x.Upheld base ends? l) (st : l.Stirred l₁) : x.Upheld base ends? l₁ := by
  obtain ⟨own, inside, whose, holds, within⟩ := h
  refine ⟨own, st.length ▸ inside, whose, st.world.symm ▸ holds, ?_⟩
  rw [st.world]
  exact st.kept _ (Judged.steady own ends? _) within

/-- Another routine starts that does nothing to the state. -/
theorem spawn (h : x.Upheld base ends? l) (silent : x.Silent scope r) :
    x.Upheld base ends? (l.spawn r scope none).1 := by
  obtain ⟨own, inside, whose, holds, within⟩ := h
  refine ⟨own, ?_, whose, holds, within.spawn (.other inside.ne' silent)⟩
  rw [Loop.length_spawn]
  exact Nat.lt_succ_of_lt inside

/-- A job keeps it. -/
theorem job {job : Job} (h : x.Upheld base ends? l) :
    x.Upheld base ends? (Loop.runJob x.handler job l) := by
  rcases Loop.runJob_cases x.handler job l with st | ⟨t, task, signal, l₁, rfl, e, st, -, -, ran⟩
  · exact h.stirred st
  rw [ran]
  have inScope := st.own (Loop.Within.inScope e)
  obtain ⟨own, inside, whose, holds, within⟩ := h
  have judged := within.task e
  -- The turn of a task, whatever it goes on with.
  have turn {r : Routine E} {l₂ : Loop E W} (st : l.Stirred l₂)
      (obeys : x.Runs ends? (x.state l.world) task.wait → x.Obeys r ends? l₂.world)
      (silent : task.wait.Holds (x.Silent task.scope) → x.Silent task.scope r) :
      x.Upheld base ends? (Loop.exec x.handler task.scope t r l₂) := by
    have within₂ := st.kept _ (Judged.steady own ends? _) within
    have inside₂ : own < l₂.tasks.length := st.length ▸ inside
    have inScope₂ := st.own (Loop.Within.inScope e)
    cases judged with
    | own same scope runs =>
      subst same
      rw [scope] at inScope₂ ⊢
      exact Upheld.turn whose inside₂ (within₂.others t) inScope₂ (obeys runs)
    | other ne silent' =>
      refine turn_other inside₂ whose (st.world.symm ▸ holds) ?_ inScope₂ ne (silent silent')
      rw [st.world]
      exact within₂.others t
  have resumed := Loop.resume_cases x.handler task t signal l₁
  generalize Loop.resume x.handler task t signal l₁ = l' at resumed ⊢
  cases resumed with
  | goes st' goes =>
    have same := (st.trans st').world
    refine turn (st.trans st') (fun runs => ?_) fun silent => silent.goesOn goes
    exact Wait.Holds.goesOn runs.goesOn goes _ (congrArg x.state same)
  | unbegun starts _ =>
    refine turn (r := .done (.error .cancelled)) st (fun runs => ?_) fun _ => trivial
    rw [st.world]
    exact ⟨holds, runs.unbegun _ starts⟩
  | @drains part k l₂ st' races _ _ =>
    have st₂ := st.trans st'
    have within₂ := st₂.kept _ (Judged.steady own ends? _) within
    have drains : x.Judged own ends? (x.state l.world) t task.scope (.drain part false k) := by
      rw [races] at judged
      cases judged with
      | own same scope runs => exact .own same scope (.of_open trivial runs.goesOn)
      | other ne silent => exact .other ne silent
    have world : (l₂.wait t (.drain part false k)).world = l.world := st₂.world
    have length : (l₂.wait t (.drain part false k)).tasks.length = l.tasks.length :=
      (Loop.length_updateTask _).trans st₂.length
    refine ⟨own, length ▸ inside, whose, world.symm ▸ holds, ?_⟩
    rw [world]
    refine (within₂.others t).wait fun task₂ e₂ => ?_
    rwa [(st₂.own (Loop.Within.inScope e)).task e₂ rfl]
  | «over» _ => exact stirred ⟨own, inside, whose, holds, within⟩ st

/-- What happens next keeps it. -/
theorem move {routine : A → Routine E} (h : x.Upheld base ends? l)
    (others : ∀ a scope, x.Silent scope (routine a)) (m : Move A) :
    x.Upheld base ends? (l.move x.handler routine m) := by
  cases m with
  | start a => exact h.spawn (others a _)
  | job n =>
    simp only [Loop.move]
    split
    · exact (h.stirred (.withReady l _)).job
    · exact h
  | tick now =>
    obtain ⟨own, inside, whose, holds, within⟩ := h
    exact ⟨own, inside, whose, holds, ⟨within.task, trivial⟩⟩
  | fire t => exact h.stirred (.resolve l t .resumed)
  | cancel t => exact h.stirred (.cancel l _ t)

/-- So does a whole history. -/
theorem after {routine : A → Routine E} (h : x.Upheld base ends? l)
    (others : ∀ a scope, x.Silent scope (routine a)) (moves : List (Move A)) :
    x.Upheld base ends? (l.after x.handler routine moves) := by
  induction moves generalizing l with
  | nil => exact h
  | cons m moves ih => exact ih (h.move others m)

theorem inv (h : x.Upheld base ends? l) : x.inv (x.state l.world) :=
  let ⟨_, _, _, holds, _⟩ := h
  holds

/-- When the run has ended, it has ended as specified. -/
theorem ended {o : Outcome} (h : x.Upheld base (some ends) l) (came : l.outcome? base = some o) :
    ends o (x.state l.world) := by
  obtain ⟨own, inside, whose, -, within⟩ := h
  obtain rfl := whose.resolve_left nofun
  have found : l.tasks[own]? = some l.tasks[own] := List.getElem?_eq_getElem inside
  have waits := (Loop.within_of_outcome? came).task found rfl
  cases within.task found with
  | own _ _ runs => exact runs.ended o waits ends rfl
  | other ne _ => exact absurd rfl ne

end Upheld

/-- A run starts beside others that do nothing to the state. -/
theorem upheld_spawn (holds : x.inv (x.state l.world))
    (others : l.Within (fun _ scope wait => wait.Holds (x.Silent scope)) fun _ => True)
    (obeys : ∀ w, x.state w = x.state l.world → x.Obeys r ends? w)
    (unbegun : ∀ ends ∈ ends?, ends (.error .cancelled) (x.state l.world)) :
    x.Upheld l.tasks.length ends? (l.spawn r x.scope none).1 := by
  have judged : l.Within (x.Judged l.tasks.length ends? (x.state l.world)) fun _ => True :=
    ⟨fun e => .other (List.getElem?_eq_some_iff.1 e).1.ne (others.task e), trivial⟩
  refine ⟨l.tasks.length, ?_, .inr rfl, holds, judged.spawn (.own rfl rfl ?_)⟩
  · rw [Loop.length_spawn]
    exact Nat.lt_succ_self _
  · exact .of_start obeys unbegun

end Watch

end GraphClient
