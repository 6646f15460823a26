import GraphClient.Proofs.Flow.Interleaving
import GraphClient.Proofs.Flow.Turns

/-!
# The line of a run

The first task of a run may wait for a part, this part for one of its own, and so on. They stand in
a line, of which only the last one may go on. A task that goes on before its part has ended leaves
all behind that stand after it. They are abandoned.

* `Loop.line`, `Loop.isAbandoned`: the tasks that stand in the line, and those of the run that do
  not.
* `Loop.InOrder`: in a history, abandoned tasks do nothing to what is observed.
  `Loop.inOrder_of_attends`: this is so where no abandoned task goes on.
* `Loop.Forward`: in a history, the clock does not go back. What is said of times may rest on this.
* `Promise`: what is promised of a state at a time. `Observer.Obeys`: a routine keeps a promise, and
  so do the parts that it starts.
* `Observer.Upheld`: the tasks of a run stand in a tower of promises, each of which implies the one
  below.
* `Upheld.after`: this is kept in a history that is in order.
-/

namespace GraphClient

variable {A S : Type} {E : Effects} {W : Type}

namespace Loop

/-- The tasks of which each waits for the next one as its part, from a task on. -/
def line (tasks : List (Task E)) : Nat → Nat → List Nat
  | 0, t => [t]
  | bound + 1, t =>
    match (tasks[t]?).map Task.wait with
    | some (.race part _) => t :: line tasks bound part
    | some (.drain part _ _) => t :: line tasks bound part
    | _ => [t]

/-- A task in the scope of a run is abandoned, if the first task of the run does not wait for it,
nor any task that it waits for. -/
def isAbandoned (base : Nat) (tasks : List (Task E)) (t : Nat) : Bool :=
  (tasks[t]?).any (·.scope == base) && !(line tasks tasks.length base).contains t

/-- Abandoned tasks of a run do nothing to what is observed. -/
def InOrder (handler : Handler E W) (routine : A → Routine E) (observe : W → S) (base : Nat) :
    Loop E W → List (Move A) → Prop
  | _, [] => True
  | l, m :: moves =>
    (∀ n t, m = .job n → l.ready[n]? = some (.wake t) → isAbandoned base l.tasks t = true →
      observe (l.move handler routine m).world = observe l.world) ∧
      InOrder handler routine observe base (l.move handler routine m) moves

/-- No abandoned task goes on. -/
def attends (handler : Handler E W) (routine : A → Routine E) (base : Nat) :
    Loop E W → List (Move A) → Bool
  | _, [] => true
  | l, m :: moves =>
    (match m with
      | .job n =>
        match l.ready[n]? with
        | some (.wake t) => !isAbandoned base l.tasks t
        | _ => true
      | _ => true) &&
      attends handler routine base (l.move handler routine m) moves

theorem inOrder_of_attends {handler : Handler E W} {routine : A → Routine E} (observe : W → S)
    {base : Nat} {l : Loop E W} {moves : List (Move A)}
    (h : l.attends handler routine base moves = true) :
    l.InOrder handler routine observe base moves := by
  induction moves generalizing l with
  | nil => trivial
  | cons m moves ih =>
    unfold attends at h
    simp only [Bool.and_eq_true] at h
    refine ⟨fun n t same job abandoned => ?_, ih h.2⟩
    subst same
    simp [job, abandoned] at h

/-- The clock does not go back. -/
def Forward (handler : Handler E W) (routine : A → Routine E) : Loop E W → List (Move A) → Prop
  | _, [] => True
  | l, m :: moves =>
    l.now ≤ (l.move handler routine m).now ∧ Forward handler routine (l.move handler routine m) moves

instance decidableForward (handler : Handler E W) (routine : A → Routine E) :
    (l : Loop E W) → (moves : List (Move A)) → Decidable (Forward handler routine l moves)
  | _, [] => isTrue trivial
  | l, m :: moves =>
    have := decidableForward handler routine (l.move handler routine m) moves
    inferInstanceAs (Decidable (_ ∧ _))

end Loop

/-- What is promised of a state at a time, and from then on as long as nothing happens. Times are in
order if the clock goes forward. -/
structure Promise (forward : Prop) (S : Type) where
  holds : Rat → S → Prop
  later : ∀ {now now' s}, (forward → now ≤ now') → holds now s → holds now' s

variable {forward : Prop}

namespace Promise

/-- Nothing but time passes. -/
def still (forward : Prop) (now : Rat) (s : S) : Promise forward S where
  holds now' s' := (forward → now ≤ now') ∧ s' = s
  later le := And.imp_left fun le' goes => le_trans (le' goes) (le goes)

theorem holds_of_still {p : Promise forward S} {now now' : Rat} {s s' : S} (kept : p.holds now s)
    (here : (still forward now s).holds now' s') : p.holds now' s' :=
  here.2 ▸ p.later here.1 kept

/-- Nothing is promised. -/
def nothing : Promise forward S := ⟨fun _ _ => True, fun _ _ => trivial⟩

end Promise

/-- One run is observed: what it does to a state of the world in its scope. -/
structure Observer (forward : Prop) (E : Effects) (W S : Type) where
  handler : Handler E W
  scope : Nat
  state : W → S

namespace Observer

variable (x : Observer forward E W S)

/-- Time has passed, and the state is the same. -/
structure Later (now : Rat) (w : W) (now' : Rat) (w' : W) : Prop where
  passes : forward → now ≤ now'
  state : x.state w' = x.state w

/-- The routine does nothing to the state in a scope. -/
abbrev Silent (scope : Nat) (r : Routine E) : Prop := r.Silent x.handler x.state scope

/-- From a time and a world on, the routine keeps a promise wherever it waits, and another one where
it ends. The part of a race keeps a promise that implies the one of the race, which may go on
whenever that is kept. -/
def Obeys : Routine E → Promise forward S → Promise forward S → Rat → W → Prop
  | .done _, during, ends, now, w => during.holds now (x.state w) ∧ ends.holds now (x.state w)
  | .perform op k, during, ends, now, w =>
    Obeys (k (x.handler x.scope op w).1) during ends now (x.handler x.scope op w).2
  | .clock k, during, ends, now, w => Obeys (k now) during ends now w
  | .sleep _ k, during, ends, now, w =>
    during.holds now (x.state w) ∧
      ∀ wake now' w', x.Later now w now' w' → Obeys (k wake) during ends now' w'
  | .race part _ k, during, ends, now, w =>
    during.holds now (x.state w) ∧ ∃ mid : Promise forward S,
      (∀ now s, mid.holds now s → during.holds now s) ∧ mid.holds now (x.state w) ∧
        (∀ now' w', x.Later now w now' w' → Obeys part mid .nothing now' w') ∧
        ∀ finish now' w', mid.holds now' (x.state w') → Obeys (k finish) during ends now' w'
  | .acquire k, during, ends, now, w =>
    Obeys (k .resumed) during ends now w ∧ during.holds now (x.state w) ∧
      ∀ wake now' w', x.Later now w now' w' → Obeys (k wake) during ends now' w'
  | .release next, during, ends, now, w => Obeys next during ends now w

variable {x} {now now' now'' : Rat} {w w' w'' : W} {s : S}
  {p p' mid during ends ends' : Promise forward S}
  {r : Routine E}

namespace Later

theorem refl (x : Observer forward E W S) (now : Rat) (w : W) : x.Later now w now w :=
  ⟨fun _ => Rat.le_refl, rfl⟩

theorem holds (h : x.Later now w now' w') (kept : p.holds now (x.state w)) :
    p.holds now' (x.state w') :=
  h.state ▸ p.later h.passes kept

end Later

theorem Obeys.andThen {f : Outcome → Routine E} (h : x.Obeys r during ends now w)
    (rest : ∀ o now w, ends.holds now (x.state w) → x.Obeys (f o) during ends' now w) :
    x.Obeys (r.andThen f) during ends' now w := by
  induction r generalizing now w with
  | done o => exact rest o now w h.2
  | perform op k ih => exact ih _ h
  | clock k ih => exact ih _ h
  | sleep d k ih => exact ⟨h.1, fun wake now' w' later => ih wake (h.2 wake now' w' later)⟩
  | race part limit? k _ ih =>
    obtain ⟨kept, mid, implies, starts, obeys, goesOn⟩ := h
    exact ⟨kept, mid, implies, starts, obeys, fun finish now' w' kept' =>
      ih finish (goesOn finish now' w' kept')⟩
  | acquire k ih =>
    exact ⟨ih .resumed h.1, h.2.1, fun wake now' w' later => ih wake (h.2.2 wake now' w' later)⟩
  | release next ih => exact ih h

theorem Obeys.mono (h : x.Obeys r during ends now w)
    (weaker : ∀ now s, during.holds now s → p.holds now s)
    (weaker' : ∀ now s, ends.holds now s → ends'.holds now s) : x.Obeys r p ends' now w := by
  induction r generalizing now w with
  | done o => exact ⟨weaker _ _ h.1, weaker' _ _ h.2⟩
  | perform op k ih => exact ih _ h
  | clock k ih => exact ih _ h
  | sleep d k ih =>
    exact ⟨weaker _ _ h.1, fun wake now' w' later => ih wake (h.2 wake now' w' later)⟩
  | race part limit? k _ ih =>
    obtain ⟨kept, mid, implies, starts, obeys, goesOn⟩ := h
    exact ⟨weaker _ _ kept, mid, fun now s holds => weaker now s (implies now s holds), starts,
      obeys, fun finish now' w' kept' => ih finish (goesOn finish now' w' kept')⟩
  | acquire k ih =>
    exact ⟨ih .resumed h.1, weaker _ _ h.2.1, fun wake now' w' later =>
      ih wake (h.2.2 wake now' w' later)⟩
  | release next ih => exact ih h

/-- While a routine does nothing to the state, no more than time passes. -/
theorem Silent.obeys {start : Rat} (h : x.Silent x.scope r) (kept : during.holds start s)
    (ended : ∀ now' s', (Promise.still forward start s).holds now' s' → ends.holds now' s')
    (here : (Promise.still forward start s).holds now (x.state w)) : x.Obeys r during ends now w := by
  induction r generalizing during ends now w with
  | done o => exact ⟨Promise.holds_of_still kept here, ended _ _ here⟩
  | perform op k ih => exact ih _ (h.2 _) kept ended ((h.1 w).symm ▸ here)
  | clock k ih => exact ih _ (h _) kept ended here
  | sleep d k ih =>
    exact ⟨Promise.holds_of_still kept here, fun wake now' w' later =>
      ih wake (h wake) kept ended (later.holds here)⟩
  | race part limit? k ihp ih =>
    refine ⟨Promise.holds_of_still kept here, .still forward start s,
      fun now' s' => Promise.holds_of_still kept, here, fun now' w' later => ?_,
      fun finish now' w' here' => ih finish (h.2 finish) kept ended here'⟩
    exact ihp h.1 ⟨fun _ => le_refl start, rfl⟩ (fun _ _ _ => trivial) (later.holds here)
  | acquire k ih =>
    exact ⟨ih _ (h _) kept ended here, Promise.holds_of_still kept here, fun wake now' w' later =>
      ih wake (h wake) kept ended (later.holds here)⟩
  | release next ih => exact ih h kept ended here

/-! ## The tower of a run -/

section

variable (x)

/-- The task keeps a promise when it goes on, and waits for no part. -/
structure Runs (p : Promise forward S) (now : Rat) (s : S) (wait : Wait E) : Prop where
  goesOn : wait.Holds fun r =>
    ∀ now' w', (forward → now ≤ now') → x.state w' = s → x.Obeys r p .nothing now' w'
  single : wait.IsSingle

/-- The task waits for its part, and keeps a promise when it goes on, as long as the part has kept
its own. -/
structure Awaits (part : Nat) (mid p : Promise forward S) (wait : Wait E) : Prop where
  goesOn : wait.Holds fun r => ∀ now w, mid.holds now (x.state w) → x.Obeys r p .nothing now w
  races : (∃ k, wait = .race part k) ∨ ∃ forwarded k, wait = .drain part forwarded k

/-- A task is judged by its place in a tower, the last task first. The last one may go on, or has
ended. Each other one waits for the one that stands on it. Whoever is not in the tower does nothing
to the state, or is a task of the run that was abandoned. -/
inductive Judged (now : Rat) (s : S) (tower : List (Nat × Promise forward S)) (t scope : Nat)
    (wait : Wait E) : Prop
  | last {p rest} : tower = (t, p) :: rest → scope = x.scope → x.Runs p now s wait →
    Judged now s tower t scope wait
  | below {part mid p rest} : (part, mid) :: (t, p) :: rest <:+ tower → scope = x.scope →
    x.Awaits part mid p wait → Judged now s tower t scope wait
  | aside : t ∉ tower.map Prod.fst → wait.Holds (x.Silent scope) ∨ scope = x.scope →
    Judged now s tower t scope wait

/-- The tasks of a run stand in a tower on its first one. The last promise is kept, and each implies
the one below. -/
structure Stands (p : Promise forward S) (tower : List (Nat × Promise forward S)) (l : Loop E W) :
    Prop where
  kept : ∀ top ∈ tower.head?, top.2.holds l.now (x.state l.world)
  implies : tower.Pairwise fun upper lower => ∀ now s, upper.2.holds now s → lower.2.holds now s
  distinct : (tower.map Prod.fst).Nodup
  inside : ∀ t ∈ tower.map Prod.fst, t < l.tasks.length
  first : tower.getLast? = some (x.scope, p)

/-- The tasks of the run keep their promises. -/
def Upheld (p : Promise forward S) (l : Loop E W) : Prop :=
  ∃ tower, x.Stands p tower l ∧ l.Within (x.Judged l.now (x.state l.world) tower) fun _ => True

end

variable {tower rest : List (Nat × Promise forward S)} {base t scope : Nat} {wait : Wait E}
  {l l₁ l' : Loop E W} {s' : S}

theorem Runs.later (h : x.Runs p now s wait) (passes : forward → now ≤ now') :
    x.Runs p now' s wait where
  goesOn := Wait.Holds.mono h.goesOn fun _ obeys now'' w le same =>
    obeys now'' w (fun goes => le_trans (passes goes) (le goes)) same
  single := h.single

namespace Judged

theorem later (h : x.Judged now s tower t scope wait) (passes : forward → now ≤ now') :
    x.Judged now' s tower t scope wait := by
  cases h with
  | last place own runs => exact .last place own (runs.later passes)
  | below place own awaits => exact .below place own awaits
  | aside place aside => exact .aside place aside

/-- Nobody but the last task is judged by the state. -/
theorem others (h : x.Judged now s ((base, p) :: rest) t scope wait) (ne : t ≠ base) :
    x.Judged now' s' ((base, p) :: rest) t scope wait := by
  cases h with
  | last place _ _ => exact absurd (Prod.mk.inj (List.cons.inj place).1).1.symm ne
  | below place own awaits => exact .below place own awaits
  | aside place aside => exact .aside place aside

/-- A part stands on the last task. -/
theorem push {part : Nat} (h : x.Judged now s ((base, p) :: rest) t scope wait) (ne : t ≠ base)
    (new : t ≠ part) : x.Judged now' s' ((part, mid) :: (base, p) :: rest) t scope wait := by
  cases h with
  | last place _ _ => exact absurd (Prod.mk.inj (List.cons.inj place).1).1.symm ne
  | below place own awaits => exact .below (place.trans (List.suffix_cons _ _)) own awaits
  | aside place aside => exact .aside (fun mem => (List.mem_cons.1 mem).elim new place) aside

/-- Where a task goes on, those that stand on it are abandoned. -/
theorem cut (h : x.Judged now s tower t scope wait) (place : (base, p) :: rest <:+ tower)
    (distinct : (tower.map Prod.fst).Nodup) (ne : t ≠ base) :
    x.Judged now' s' ((base, p) :: rest) t scope wait := by
  -- Whoever stands higher than the task is not in what is left.
  have gone {q : Promise forward S} {lower : List (Nat × Promise forward S)}
      (place' : (t, q) :: lower <:+ tower)
      (left : (base, p) :: rest <:+ lower) : t ∉ ((base, p) :: rest).map Prod.fst := fun mem => by
    have once : (t :: lower.map Prod.fst).Nodup := distinct.sublist (place'.map Prod.fst).sublist
    exact (List.nodup_cons.1 once).1 ((left.map Prod.fst).subset mem)
  cases h with
  | last place' own runs =>
    subst place'
    rcases List.suffix_cons_iff.1 place with same | left
    · exact absurd (Prod.mk.inj (List.cons.inj same).1).1.symm ne
    · exact .aside (gone (List.suffix_refl _) left) (.inr own)
  | @below part mid q lower place' own awaits =>
    rcases List.suffix_or_suffix_of_suffix place' place with inside | outside
    · exact .below inside own awaits
    · rcases List.suffix_cons_iff.1 outside with same | outside
      · exact .below ⟨[], same.symm⟩ own awaits
      · rcases List.suffix_cons_iff.1 outside with same | left
        · exact absurd (Prod.mk.inj (List.cons.inj same).1).1.symm ne
        · exact .aside (gone ((List.suffix_cons _ _).trans place') left) (.inr own)
  | aside notMem aside => exact .aside (fun mem => notMem ((place.map Prod.fst).subset mem)) aside

theorem steady (x : Observer forward E W S) (now : Rat) (s : S)
    (tower : List (Nat × Promise forward S)) :
    Loop.Steady (x.Judged now s tower) := by
  intro t scope part forwarded k h
  cases h with
  | last place own runs => exact runs.single.elim
  | below place own awaits =>
    refine .below place own ⟨Wait.Holds.drain awaits.goesOn true, ?_⟩
    rcases awaits.races with ⟨k', same⟩ | ⟨forwarded', k', same⟩
    · cases same
    · cases same
      exact .inr ⟨true, k, rfl⟩
  | aside place aside =>
    exact .aside place (aside.imp_left fun silent => Wait.Holds.drain silent true)

/-- A task that waits for a part may go on to wait for its end. -/
theorem drains {part : Nat} {k : RaceEnd → Routine E}
    (h : x.Judged now s tower t scope (.race part k)) :
    x.Judged now s tower t scope (.drain part false k) := by
  cases h with
  | last _ _ runs => exact runs.single.elim
  | below place own awaits =>
    refine .below place own ⟨awaits.goesOn, .inr ⟨false, k, ?_⟩⟩
    rcases awaits.races with ⟨k', same⟩ | ⟨forwarded, k', same⟩
    · cases same
      rfl
    · cases same
  | aside notMem aside => exact .aside notMem aside

/-- Where a task of the tower waits for a part, that stands on it. -/
theorem part_mem {part : Nat} (h : x.Judged now s tower t scope wait) (mem : t ∈ tower.map Prod.fst)
    (races : (∃ k, wait = .race part k) ∨ ∃ forwarded k, wait = .drain part forwarded k) :
    part ∈ tower.map Prod.fst := by
  cases h with
  | last _ _ runs =>
    rcases races with ⟨k, rfl⟩ | ⟨forwarded, k, rfl⟩
    · exact runs.single.elim
    · exact runs.single.elim
  | @below part' mid q rest place _ awaits =>
    have stands : part' ∈ tower.map Prod.fst := (place.map Prod.fst).subset List.mem_cons_self
    rcases races with ⟨k, rfl⟩ | ⟨forwarded, k, rfl⟩ <;>
      rcases awaits.races with ⟨k', same⟩ | ⟨forwarded', k', same⟩ <;> cases same <;> exact stands
  | aside notMem _ => exact absurd mem notMem

end Judged

/-! ## Turns -/

variable (x) in
/-- Where a turn ends, the promise is kept, and what comes next obeys. -/
def Ends (p : Promise forward S) (now : Rat) (halt : Halt E) (w : W) : Prop :=
  p.holds now (x.state w) ∧ match halt with
    | .over _ => True
    | .sleep k => ∀ wake now' w', x.Later now w now' w' → x.Obeys (k wake) p .nothing now' w'
    | .race part k => ∃ mid : Promise forward S,
      (∀ now s, mid.holds now s → p.holds now s) ∧ mid.holds now (x.state w) ∧
        (∀ now' w', x.Later now w now' w' → x.Obeys part mid .nothing now' w') ∧
        ∀ finish now' w', mid.holds now' (x.state w') → x.Obeys (k finish) p .nothing now' w'
    | .lock k => ∀ wake now' w', x.Later now w now' w' → x.Obeys (k wake) p .nothing now' w'

theorem Obeys.halts (h : x.Obeys r p .nothing now w) :
    r.Halts x.handler x.scope (x.Ends p now) now w := by
  induction r generalizing w with
  | done o => exact ⟨h.1, trivial⟩
  | perform op k ih => exact ih _ h
  | clock k ih => exact ih _ h
  | sleep d k _ => exact h
  | race part limit? k _ _ => exact h
  | acquire k ih => exact ⟨ih _ h.1, h.2⟩
  | release next ih => exact ih h

/-- A task that was abandoned comes to be one of the run. -/
theorem halts_abandoned (r : Routine E) (t part : Nat) :
    r.Halts x.handler x.scope (fun halt _ =>
      halt.Judged (fun _ scope wait => wait.Holds (x.Silent scope) ∨ scope = x.scope) t x.scope
        part) now w := by
  induction r generalizing w with
  | done o => exact .inr rfl
  | perform op k ih => exact ih _
  | clock k ih => exact ih _
  | sleep d k _ => exact .inr rfl
  | race part limit? k _ _ => exact ⟨.inr rfl, .inr rfl⟩
  | acquire k ih => exact ⟨ih _, .inr rfl⟩
  | release next ih => exact ih

namespace Stands

theorem of_later (h : x.Stands p tower l) (later : x.Later l.now l.world l₁.now l₁.world)
    (grows : l.tasks.length ≤ l₁.tasks.length) : x.Stands p tower l₁ where
  kept top mem := later.holds (h.kept top mem)
  implies := h.implies
  distinct := h.distinct
  inside t mem := (h.inside t mem).trans_le grows
  first := h.first

/-- All promises are kept. -/
theorem holds (h : x.Stands p tower l) {t : Nat} {q : Promise forward S} (mem : (t, q) ∈ tower) :
    q.holds l.now (x.state l.world) := by
  cases tower with
  | nil => cases mem
  | cons top rest =>
    rcases List.mem_cons.1 mem with rfl | below
    · exact h.kept _ rfl
    · exact (List.pairwise_cons.1 h.implies).1 _ below _ _ (h.kept top rfl)

/-- What is left of the tower, where a task goes on. -/
theorem cut (h : x.Stands p tower l) {q : Promise forward S} (place : (t, q) :: rest <:+ tower) :
    x.Stands p ((t, q) :: rest) l where
  kept top mem := by
    obtain rfl := Option.some.inj mem
    exact h.holds (place.subset List.mem_cons_self)
  implies := h.implies.sublist place.sublist
  distinct := h.distinct.sublist (place.map Prod.fst).sublist
  inside j mem := h.inside j ((place.map Prod.fst).subset mem)
  first := by
    obtain ⟨above, rfl⟩ := place
    rw [← h.first, List.getLast?_append_cons]

/-- The last task of the tower runs until it waits again or has ended. -/
theorem turn {q : Promise forward S} (h : x.Stands p ((t, q) :: rest) l)
    (others : l.Within (Loop.Others t (x.Judged now s ((t, q) :: rest))) fun _ => True)
    (own : l.Within (Loop.InScope t x.scope) fun _ => True)
    (obeys : x.Obeys r q .nothing l.now l.world) :
    x.Upheld p (Loop.exec x.handler x.scope t r l) := by
  obtain ⟨now', halt, ⟨kept, ends⟩, length, judges⟩ := Loop.exec_halts own obeys.halts
  generalize Loop.exec x.handler x.scope t r l = l' at now' kept ends length judges ⊢
  rw [← now'] at kept ends
  have inside (j : Nat) (mem : j ∈ ((t, q) :: rest).map Prod.fst) : j < l'.tasks.length :=
    length ▸ Nat.lt_add_right _ (h.inside j mem)
  have fresh : l.tasks.length ∉ ((t, q) :: rest).map Prod.fst :=
    fun mem => Nat.lt_irrefl _ (h.inside _ mem)
  -- The tower stays as it is, where no part stands on the task.
  have stays (judged : halt.Judged (x.Judged l'.now (x.state l'.world) ((t, q) :: rest)) t x.scope
      l.tasks.length) : x.Upheld p l' := by
    refine ⟨_, ⟨fun top mem => ?_, h.implies, h.distinct, inside, h.first⟩,
      judges _ (Judged.steady x _ _ _) ⟨fun e ne => (others.task e ne).others ne, trivial⟩ judged⟩
    obtain rfl := Option.some.inj mem
    exact kept
  cases halt with
  | «over» o => exact stays (.last rfl rfl ⟨trivial, trivial⟩)
  | sleep k =>
    exact stays (.last rfl rfl ⟨fun wake now w le same => ends wake now w ⟨le, same⟩, trivial⟩)
  | lock k =>
    exact stays (.last rfl rfl ⟨fun wake now w le same => ends wake now w ⟨le, same⟩, trivial⟩)
  | race part k =>
    obtain ⟨mid, implies, starts, obeys, goesOn⟩ := ends
    refine ⟨(l.tasks.length, mid) :: (t, q) :: rest,
      ⟨fun top mem => ?_, ?_, ?_, fun j mem => ?_, ?_⟩, ?_⟩
    · obtain rfl := Option.some.inj mem
      exact starts
    · refine List.pairwise_cons.2 ⟨fun lower mem now s holds => ?_, h.implies⟩
      rcases List.mem_cons.1 mem with rfl | mem
      · exact implies now s holds
      · exact (List.pairwise_cons.1 h.implies).1 lower mem now s (implies now s holds)
    · exact List.nodup_cons.2 ⟨fresh, h.distinct⟩
    · rcases List.mem_cons.1 mem with rfl | old
      · exact length ▸ Nat.lt_succ_self _
      · exact inside j old
    · exact (List.getLast?_cons_cons ..).trans h.first
    · refine judges _ (Judged.steady x _ _ _) ⟨fun e ne => ?_, trivial⟩
        ⟨.below (List.suffix_refl _) rfl ⟨goesOn, .inl ⟨k, rfl⟩⟩,
          .last rfl rfl ⟨fun now w le same => obeys now w ⟨le, same⟩, trivial⟩⟩
      exact (others.task e ne).push ne (List.getElem?_eq_some_iff.1 e).1.ne

/-- Another task runs until it waits again or has ended. -/
theorem turn_aside (h : x.Stands p tower l)
    (others : l.Within (Loop.Others t (x.Judged l.now (x.state l.world) tower)) fun _ => True)
    (own : l.Within (Loop.InScope t scope) fun _ => True) (notMem : t ∉ tower.map Prod.fst)
    (halts : r.Halts x.handler scope (fun halt _ => halt.Judged
      (fun _ scope wait => wait.Holds (x.Silent scope) ∨ scope = x.scope) t scope l.tasks.length)
      l.now l.world)
    (same : x.state (Loop.exec x.handler scope t r l).world = x.state l.world) :
    x.Upheld p (Loop.exec x.handler scope t r l) := by
  obtain ⟨now', halt, judged, length, judges⟩ := Loop.exec_halts own halts
  generalize Loop.exec x.handler scope t r l = l' at same now' length judges ⊢
  have fresh : l.tasks.length ∉ tower.map Prod.fst := fun mem => Nat.lt_irrefl _ (h.inside _ mem)
  refine ⟨tower, h.of_later ⟨fun _ => now'.ge, same⟩ (length ▸ Nat.le_add_right _ _), ?_⟩
  rw [now', same]
  refine judges _ (Judged.steady x _ _ tower) others (judged.mono ?_)
  rintro j wait (rfl | rfl) aside
  · exact .aside notMem aside
  · exact .aside fresh aside

/-- All that a task of the tower waits for stands in the tower. -/
theorem line_subset (within : l.Within (x.Judged now s tower) fun _ => True) {bound : Nat}
    (mem : t ∈ tower.map Prod.fst) : ∀ j ∈ Loop.line l.tasks bound t, j ∈ tower.map Prod.fst := by
  induction bound generalizing t with
  | zero => exact fun j here => List.mem_singleton.1 here ▸ mem
  | succ bound ih =>
    intro j here
    unfold Loop.line at here
    split at here
    · rename_i part k waits
      obtain ⟨task, e, waits⟩ := Option.map_eq_some_iff.1 waits
      rcases List.mem_cons.1 here with rfl | here
      · exact mem
      · exact ih ((within.task e).part_mem mem (.inl ⟨k, waits⟩)) j here
    · rename_i part forwarded k waits
      obtain ⟨task, e, waits⟩ := Option.map_eq_some_iff.1 waits
      rcases List.mem_cons.1 here with rfl | here
      · exact mem
      · exact ih ((within.task e).part_mem mem (.inr ⟨forwarded, k, waits⟩)) j here
    · exact List.mem_singleton.1 here ▸ mem

/-- A task of the run that is not in the tower is abandoned. -/
theorem isAbandoned (h : x.Stands p tower l)
    (within : l.Within (x.Judged now s tower) fun _ => True)
    {task : Task E} (e : l.tasks[t]? = some task) (own : task.scope = x.scope)
    (notMem : t ∉ tower.map Prod.fst) : Loop.isAbandoned x.scope l.tasks t = true := by
  have first : x.scope ∈ tower.map Prod.fst :=
    List.mem_map.2 ⟨_, List.mem_of_getLast? h.first, rfl⟩
  have outside : t ∉ Loop.line l.tasks l.tasks.length x.scope :=
    fun here => notMem (line_subset within first t here)
  simp [Loop.isAbandoned, e, own, outside]

/-- A task that has been woken runs until it waits again or has ended. An abandoned one does nothing
to the state. -/
theorem goes {task : Task E} (h : x.Stands p tower l)
    (within : l.Within (x.Judged l.now (x.state l.world) tower) fun _ => True)
    (e : l.tasks[t]? = some task) (st : l.Stirred l₁)
    (idle : Loop.isAbandoned x.scope l.tasks t = true →
      x.state (Loop.exec x.handler task.scope t r l₁).world = x.state l₁.world)
    (last : ∀ q, (t, q) ∈ tower → x.Runs q l₁.now (x.state l₁.world) task.wait →
      x.Obeys r q .nothing l₁.now l₁.world)
    (below : ∀ part mid q, mid.holds l₁.now (x.state l₁.world) → x.Awaits part mid q task.wait →
      x.Obeys r q .nothing l₁.now l₁.world)
    (silent : task.wait.Holds (x.Silent task.scope) → x.Silent task.scope r) :
    x.Upheld p (Loop.exec x.handler task.scope t r l₁) := by
  have judged := within.task e
  have own := st.own (Loop.Within.inScope e)
  have abandoned := h.isAbandoned within e
  have stands : x.Stands p tower l₁ :=
    h.of_later ⟨fun _ => st.now.ge, congrArg x.state st.world⟩ st.length.ge
  have within₁ : l₁.Within (x.Judged l₁.now (x.state l₁.world) tower) fun _ => True := by
    rw [st.now, st.world]
    exact st.kept _ (Judged.steady x _ _ tower) within
  rw [← st.now, ← st.world] at judged
  cases judged with
  | last place own' runs =>
    subst place
    rw [own'] at own ⊢
    exact stands.turn (within₁.others t) own (last _ List.mem_cons_self runs)
  | below place own' awaits =>
    rw [own'] at own ⊢
    have left := (List.suffix_cons _ _).trans place
    have others : l₁.Within (Loop.Others t (x.Judged l₁.now (x.state l₁.world) _)) fun _ => True :=
      ⟨fun e₁ ne => (within₁.task e₁).cut left stands.distinct ne, trivial⟩
    have kept := stands.holds (place.subset List.mem_cons_self)
    exact (stands.cut left).turn others own (below _ _ _ kept awaits)
  | aside notMem aside =>
    rcases aside with silent' | own'
    · have halts := (silent silent').halts (Eq.refl (x.state l₁.world)) l₁.now t l₁.tasks.length
      obtain ⟨-, -, ⟨-, same⟩, -⟩ := Loop.exec_halts own halts
      refine stands.turn_aside (within₁.others t) own notMem (halts.mono fun halt w done => ?_) same
      exact done.1.mono fun _ _ _ silent => .inl silent
    · have same := idle (abandoned own' notMem)
      rw [own'] at own same ⊢
      exact stands.turn_aside (within₁.others t) own notMem (halts_abandoned r t _) same

end Stands

namespace Upheld

theorem stirred (h : x.Upheld p l) (st : l.Stirred l₁) : x.Upheld p l₁ := by
  obtain ⟨tower, stands, within⟩ := h
  refine ⟨tower, stands.of_later ⟨fun _ => st.now.ge, congrArg x.state st.world⟩ st.length.ge, ?_⟩
  rw [st.now, st.world]
  exact st.kept _ (Judged.steady x _ _ tower) within

/-- The clock goes on. -/
theorem tick (h : x.Upheld p l) (passes : forward → l.now ≤ now) :
    x.Upheld p { l with now := now } := by
  obtain ⟨tower, stands, within⟩ := h
  exact ⟨tower, stands.of_later ⟨passes, rfl⟩ (Nat.le_refl _),
    ⟨fun e => (within.task e).later passes, trivial⟩⟩

/-- Another routine starts that does nothing to the state. -/
theorem spawn (h : x.Upheld p l) (silent : x.Silent scope r) :
    x.Upheld p (l.spawn r scope none).1 := by
  obtain ⟨tower, stands, within⟩ := h
  have fresh : l.tasks.length ∉ tower.map Prod.fst := fun mem =>
    Nat.lt_irrefl _ (stands.inside _ mem)
  refine ⟨tower, stands.of_later (.refl x _ _) ?_, within.spawn (.aside fresh (.inl silent))⟩
  exact (Loop.length_spawn ..).symm ▸ Nat.le_succ _

/-- A job keeps it, unless an abandoned task does something to the state. -/
theorem job {job : Job} (h : x.Upheld p l)
    (idle : ∀ t, job = .wake t → Loop.isAbandoned x.scope l.tasks t = true →
      x.state (Loop.runJob x.handler job l).world = x.state l.world) :
    x.Upheld p (Loop.runJob x.handler job l) := by
  rcases Loop.runJob_cases x.handler job l with st | ⟨t, task, signal, l₁, rfl, e, st, -, -, ran⟩
  · exact h.stirred st
  obtain ⟨tower, stands, within⟩ := h
  have idle := idle t rfl
  rw [ran] at idle ⊢
  have resumed := Loop.resume_cases x.handler task t signal l₁
  generalize Loop.resume x.handler task t signal l₁ = l' at resumed idle ⊢
  cases resumed with
  | @goes r l₂ st' goes =>
    have st₂ := st.trans st'
    rw [← st₂.world] at idle
    refine stands.goes within e st₂ idle (fun q _ runs => ?_) (fun part mid q kept awaits => ?_)
      fun silent => silent.goesOn goes
    · exact Wait.Holds.goesOn runs.goesOn goes _ _ (fun _ => le_rfl) rfl
    · exact Wait.Holds.goesOn awaits.goesOn goes _ _ kept
  | unbegun starts _ =>
    rw [← st.world] at idle
    refine stands.goes (r := .done (.error .cancelled)) within e st idle (fun q mem _ => ?_)
      (fun part mid q _ awaits => ?_) fun _ => trivial
    · have kept := stands.holds mem
      rw [← st.now, ← st.world] at kept
      exact ⟨kept, trivial⟩
    · rcases awaits.races with ⟨k, waits⟩ | ⟨forwarded, k, waits⟩
      · cases starts.symm.trans waits
      · cases starts.symm.trans waits
  | @drains part k l₂ st' races _ _ =>
    have st₂ := st.trans st'
    have drains : x.Judged l.now (x.state l.world) tower t task.scope (.drain part false k) :=
      (races ▸ within.task e).drains
    have now : (l₂.wait t (.drain part false k)).now = l.now := st₂.now
    have world : (l₂.wait t (.drain part false k)).world = l.world := st₂.world
    have length : (l₂.wait t (.drain part false k)).tasks.length = l.tasks.length :=
      (Loop.length_updateTask _).trans st₂.length
    refine ⟨tower, stands.of_later ⟨fun _ => now.ge, congrArg x.state world⟩ length.ge, ?_⟩
    rw [now, world]
    have within₂ := st₂.kept _ (Judged.steady x _ _ tower) within
    refine (within₂.others t).wait fun task₂ e₂ => ?_
    rwa [(st₂.own (Loop.Within.inScope e)).task e₂ rfl]
  | «over» _ => exact stirred ⟨tower, stands, within⟩ st

/-- What happens next keeps it. -/
theorem move {routine : A → Routine E} {m : Move A} (h : x.Upheld p l)
    (starts : ∀ a scope, x.Silent scope (routine a))
    (passes : forward → l.now ≤ (l.move x.handler routine m).now)
    (idle : ∀ n t, m = .job n → l.ready[n]? = some (.wake t) →
      Loop.isAbandoned x.scope l.tasks t = true →
        x.state (l.move x.handler routine m).world = x.state l.world) :
    x.Upheld p (l.move x.handler routine m) := by
  cases m with
  | start a => exact h.spawn (starts a _)
  | job n =>
    have idle := fun t => idle n t rfl
    simp only [Loop.move] at idle ⊢
    split
    · rename_i job e
      simp only [e] at idle
      refine (h.stirred (.withReady l _)).job fun t same => idle t (congrArg some same)
    · exact h
  | tick now => exact h.tick passes
  | fire t => exact h.stirred (.resolve l t .resumed)
  | cancel t => exact h.stirred (.cancel l _ t)

/-- So does a whole history that is in order. -/
theorem after {routine : A → Routine E} {moves : List (Move A)} (h : x.Upheld p l)
    (starts : ∀ a scope, x.Silent scope (routine a))
    (inOrder : l.InOrder x.handler routine x.state x.scope moves)
    (passes : forward → l.Forward x.handler routine moves) :
    x.Upheld p (l.after x.handler routine moves) := by
  induction moves generalizing l with
  | nil => exact h
  | cons m moves ih =>
    exact ih (h.move starts (fun goes => (passes goes).1) inOrder.1) inOrder.2
      fun goes => (passes goes).2

/-- The promise of the run is kept. -/
theorem holds (h : x.Upheld p l) : p.holds l.now (x.state l.world) :=
  let ⟨_, stands, _⟩ := h
  stands.holds (List.mem_of_getLast? stands.first)

end Upheld

/-- A run starts beside others that do nothing to the state. -/
theorem upheld_spawn (kept : p.holds l.now (x.state l.world)) (own : x.scope = l.tasks.length)
    (others : l.Within (fun _ scope wait => wait.Holds (x.Silent scope)) fun _ => True)
    (obeys : ∀ now w, x.Later l.now l.world now w → x.Obeys r p .nothing now w) :
    x.Upheld p (l.spawn r x.scope none).1 := by
  have judged : l.Within (x.Judged l.now (x.state l.world) [(l.tasks.length, p)])
      fun _ => True := by
    refine ⟨fun {t task} e => .aside (fun mem => ?_) (.inl (others.task e)), trivial⟩
    exact (List.getElem?_eq_some_iff.1 e).1.ne (List.mem_singleton.1 mem)
  refine ⟨[(l.tasks.length, p)], ⟨fun top mem => ?_, List.pairwise_singleton _ _,
    List.pairwise_singleton _ _, fun t mem => ?_, ?_⟩,
    judged.spawn (.last rfl rfl ⟨fun now w le same => obeys now w ⟨le, same⟩, trivial⟩)⟩
  · obtain rfl := Option.some.inj mem
    exact kept
  · rw [List.mem_singleton.1 mem, Loop.length_spawn]
    exact Nat.lt_succ_self _
  · rw [own]
    rfl

end Observer

end GraphClient
