import GraphClient.Proofs.Logging.Levels

/-!
# Setting up again

A set-up after a `History` of calls that succeeded is compared with one on a log as it is at first.

* `LogManager.own_of_history`: what the history leaves of a component is the level that it was given
  last (`LogManager.lastGiven`). No call takes a level back.
* `LogManager.again_of_history`: the result, the level of the root, the handlers and their levels
  are the same. A component that the settings do not name keeps the level that the history gave it.
-/

namespace GraphClient

theorem Loggers.own_withRoot {name : String} (named : isRoot name = false) (root : Int)
    (l : Loggers) : ({ l with root := root } : Loggers).own name = l.own name := by
  simp only [own, named, Bool.false_eq_true, if_false]

namespace LogManager

/-! ## What a history leaves -/

/-- Calls of a new manager that all succeed. -/
inductive History (s₀ : LogSystem) : List Call → LogManager × LogSystem → Prop
  | start : History s₀ [] (initial, s₀)
  | call {calls : List Call} {st : LogManager × LogSystem} {c : Call} : History s₀ calls st →
    (c.run st).1 = .ok () → History s₀ (calls ++ [c]) (c.run st).2

/-- The level that a call gives to a component. -/
def Call.gives (name : String) : Call → Option LogLevel
  | .setUp settings => Pairs.get? name (Pairs.ofList settings.componentLevels)
  | .setLevel level (some component) => if name = component then some level else none
  | .setLevel _ none => none
  | .cleanUp => none

/-- The level that a component was given last. -/
def lastGiven (name : String) (calls : List Call) : Option LogLevel :=
  calls.reverse.findSome? (·.gives name)

theorem lastGiven_concat (name : String) (calls : List Call) (c : Call) :
    lastGiven name (calls ++ [c]) = (c.gives name).or (lastGiven name calls) := by
  rw [lastGiven, List.reverse_append, List.reverse_singleton, List.singleton_append,
    List.findSome?_cons]
  cases c.gives name <;> rfl

theorem History.settled {s₀ : LogSystem} {calls : List Call} {st : LogManager × LogSystem}
    (h : History s₀ calls st) : st.1.Settled := by
  induction h with
  | start => exact .inr rfl
  | call _ succeeds ih => exact ih.run succeeds

/-- After a set-up a component has the level that the settings give it, and if they give none, or
the set-up failed, that of before. -/
theorem own_setUp {name : String} (named : Loggers.isRoot name = false)
    (settings : LoggingSettings) (st : LogManager × LogSystem) :
    (run (setUp settings) st).2.2.loggers.own name =
      (if (run (setUp settings) st).1.isOk then
        Pairs.get? name (Pairs.ofList settings.componentLevels) else none).elim
          (st.2.loggers.own name) LogLevel.number := by
  rw [(setUp_follows settings st).loggers, own_leveled named, Loggers.own_withRoot named]
  split <;> rfl

/-- What a call does to the level of a component. -/
theorem own_run {name : String} (named : Loggers.isRoot name = false) {c : Call}
    {st : LogManager × LogSystem} (succeeds : (c.run st).1 = .ok ()) :
    (c.run st).2.2.loggers.own name =
      (c.gives name).elim (st.2.loggers.own name) LogLevel.number := by
  cases c with
  | setUp settings =>
    simp only [Call.run] at succeeds ⊢
    have ok : (run (setUp settings) st).1.isOk = true := by rw [succeeds]; rfl
    rw [own_setUp named, if_pos ok, Call.gives]
  | setLevel level component? =>
    simp only [Call.run, run_setLevel]
    cases component? with
    | none =>
      refine Loggers.own_setLevel_of_ne named (fun same => ?_) ..
      rw [same] at named
      cases named
    | some component =>
      simp only [Option.getD_some, Call.gives]
      split
      · rename_i same
        subst same
        exact Loggers.own_setLevel_self named ..
      · rename_i other
        exact Loggers.own_setLevel_of_ne named other ..
  | cleanUp =>
    simp only [Call.run, run_cleanUp, cleaned, foldl_detach]
    rfl

/-- A component has the level that it was given last. -/
theorem own_of_history {s₀ : LogSystem} (fresh : s₀.loggers.levels = []) {calls : List Call}
    {st : LogManager × LogSystem} (h : History s₀ calls st) {name : String}
    (named : Loggers.isRoot name = false) :
    st.2.loggers.own name = (lastGiven name calls).elim 0 LogLevel.number := by
  induction h with
  | start =>
    rw [Loggers.own, named, fresh]
    rfl
  | call _ succeeds ih =>
    rw [own_run named succeeds, lastGiven_concat, ih]
    cases Call.gives name _ <;> rfl

/-! ## Handlers -/

/-- The names of a manager's handlers, and their levels. -/
def handlerLevels (st : LogManager × LogSystem) : List (String × Option Int) :=
  st.1.handlers.map fun h => (h.1, (st.2.handlers[h.2]?).map (·.level))

/-- Numbered handlers are found where they were put. -/
theorem levels_numbered (before : List LogHandler) (new : List (String × LogHandler)) :
    (numbered before.length new).map (fun h =>
        (h.1, ((before ++ new.map Prod.snd)[h.2]?).map (·.level))) =
      new.map fun h => (h.1, some h.2.level) := by
  rw [numbered, List.map_map]
  conv_rhs => rw [← List.zipIdx_map_fst before.length new, List.map_map]
  refine List.map_congr_left fun numbered mem => ?_
  obtain ⟨h, n⟩ := numbered
  obtain ⟨low, high, found⟩ := List.mem_zipIdx mem
  have there : (before ++ new.map Prod.snd)[n]? = some h.2 := by
    rw [List.getElem?_append_right low, List.getElem?_map, List.getElem?_eq_getElem (by omega),
      ← found]
    rfl
  simp only [Function.comp_apply, there, Option.map_some]

/-- A set-up that begins without handlers knows those of its plan. -/
theorem handlerLevels_of_setUp {st : LogManager × LogSystem}
    (forgotten : (cleared st).1.handlers = []) (settings : LoggingSettings) :
    handlerLevels (run (setUp settings) st).2 =
      (plan settings st.2.showsColors st.2.files).handlers.map fun h => (h.1, some h.2.level) := by
  have follows := setUp_follows settings st
  have names := (plan_handlers settings st.2.showsColors st.2.files).1.nodup (by decide)
  rw [handlerLevels, follows.named, forgotten, follows.handlers]
  generalize (plan settings st.2.showsColors st.2.files).handlers = new at names
  rw [← map_fst_numbered (cleared st).2.handlers.length] at names
  rw [show Pairs.merge [] (numbered _ new) = _ from Pairs.ofList_eq_self names]
  exact levels_numbered (cleared st).2.handlers new

/-! ## Setting up again -/

/-- The levels of the root, of the other loggers and of the manager's handlers are the same. -/
structure SameLevels (st st' : LogManager × LogSystem) : Prop where
  root : st.2.loggers.root = st'.2.loggers.root
  handlers : handlerLevels st = handlerLevels st'
  own : ∀ name, Loggers.isRoot name = false → st.2.loggers.own name = st'.2.loggers.own name

/-- The root gets the same level from the same settings. -/
theorem root_leveled_congr (components : List (String × LogLevel)) {l l' : Loggers}
    (same : l.root = l'.root) : (leveled components l).root = (leveled components l').root := by
  induction components using List.reverseRecOn with
  | nil => exact same
  | append_singleton components component ih =>
    rw [leveled_concat, leveled_concat, Loggers.setLevel, Loggers.setLevel]
    split
    · rfl
    · exact ih

/-- No level is zero, so zero means that none is given. -/
theorem elim_number (given : Option LogLevel) (before : Int) :
    given.elim before LogLevel.number = if given.elim 0 LogLevel.number = 0 then before
      else given.elim 0 LogLevel.number := by
  cases given with
  | none => exact (if_pos rfl).symm
  | some level => exact (if_neg level.number_ne_zero).symm

section

variable {s₀ s₁ : LogSystem} {calls : List Call} {st : LogManager × LogSystem}
  (history : History s₀ calls st) (files : s₁.files = st.2.files)
  (colors : s₁.showsColors = st.2.showsColors) (settings : LoggingSettings)

include files colors in
theorem plan_again : plan settings s₁.showsColors s₁.files =
    plan settings st.2.showsColors st.2.files := by
  rw [files, colors]

include files colors in
/-- A set-up ends alike. -/
theorem ends_again : (run (setUp settings) st).1 = (run (setUp settings) (initial, s₁)).1 := by
  rw [(setUp_follows settings st).ends, (setUp_follows settings (initial, s₁)).ends,
    plan_again files colors]

include files colors in
theorem root_again : (run (setUp settings) st).2.2.loggers.root =
    (run (setUp settings) (initial, s₁)).2.2.loggers.root := by
  rw [(setUp_follows settings st).loggers, (setUp_follows settings (initial, s₁)).loggers,
    ends_again files colors]
  exact root_leveled_congr _ rfl

include history files colors in
theorem handlers_again : handlerLevels (run (setUp settings) st).2 =
    handlerLevels (run (setUp settings) (initial, s₁)).2 := by
  rw [handlerLevels_of_setUp history.settled.cleared, handlerLevels_of_setUp rfl,
    plan_again files colors]

include files colors in
/-- A component that the settings name gets its level, and any other one keeps that of before. -/
theorem own_again (fresh : s₁.loggers.levels = []) {name : String}
    (named : Loggers.isRoot name = false) :
    (run (setUp settings) st).2.2.loggers.own name =
      if (run (setUp settings) (initial, s₁)).2.2.loggers.own name = 0 then
        st.2.loggers.own name
      else (run (setUp settings) (initial, s₁)).2.2.loggers.own name := by
  have unset : s₁.loggers.own name = 0 := by rw [Loggers.own, named, fresh]; rfl
  rw [own_setUp named, own_setUp named, ends_again files colors, unset]
  exact elim_number _ _

end

/-- A set-up after a history of calls that succeeded, and one on a log as it is at first: they end
alike, and with the same handlers and the same level of the root. What the history gave to a
component stays unless the settings name it, so all levels are the same exactly if the settings name
all those components. -/
theorem again_of_history {s₀ s₁ : LogSystem} {calls : List Call} {st : LogManager × LogSystem}
    (fresh₀ : s₀.loggers.levels = []) (history : History s₀ calls st)
    (fresh₁ : s₁.loggers.levels = []) (files : s₁.files = st.2.files)
    (colors : s₁.showsColors = st.2.showsColors) (settings : LoggingSettings) :
    let again := run (setUp settings) st
    let alone := run (setUp settings) (initial, s₁)
    again.1 = alone.1 ∧ again.2.2.loggers.root = alone.2.2.loggers.root ∧
      handlerLevels again.2 = handlerLevels alone.2 ∧
      (∀ name, Loggers.isRoot name = false → again.2.2.loggers.own name =
        if alone.2.2.loggers.own name = 0 then (lastGiven name calls).elim 0 LogLevel.number
        else alone.2.2.loggers.own name) ∧
      (SameLevels again.2 alone.2 ↔ ∀ name, Loggers.isRoot name = false →
        lastGiven name calls ≠ none → alone.2.2.loggers.own name ≠ 0) := by
  intro again alone
  have each : ∀ name, Loggers.isRoot name = false → again.2.2.loggers.own name =
      if alone.2.2.loggers.own name = 0 then (lastGiven name calls).elim 0 LogLevel.number
      else alone.2.2.loggers.own name := fun name named => by
    rw [← own_of_history fresh₀ history named]
    exact own_again files colors settings fresh₁ named
  have root := root_again files colors settings
  have handlers := handlers_again history files colors settings
  refine ⟨ends_again files colors settings, root, handlers, each,
    fun same name named given unset => ?_,
    fun covered => ⟨root, handlers, fun name named => ?_⟩⟩
  · -- A level that was given would still be there.
    have stays := each name named
    rw [same.own name named, unset, if_pos rfl] at stays
    obtain ⟨level, last⟩ := Option.ne_none_iff_exists'.1 given
    rw [last, Option.elim_some] at stays
    exact level.number_ne_zero stays.symm
  · rw [each name named]
    split
    · rename_i unset
      have none : lastGiven name calls = none :=
        by_contra fun given => covered name named given unset
      rw [none, unset, Option.elim_none]
    · rfl

/-! A component that was given a level is named again, or not. -/

theorem run_setUp_jsonLines (components : List (String × LogLevel))
    (st : LogManager × LogSystem) : (run (setUp (jsonLines components)) st).1 = .ok () :=
  (setUp_follows _ st).ends

/-- One component was given a level. -/
def configured : LogManager × LogSystem :=
  (run (setUp (jsonLines [("a", .error)])) (initial, unused)).2

/-- A log as it is at first, beside the files of the other one. -/
def beside : LogSystem :=
  { unused with files := configured.2.files, showsColors := configured.2.showsColors }

theorem history_configured :
    History unused [.setUp (jsonLines [("a", .error)])] configured :=
  .call .start (run_setUp_jsonLines ..)

theorem again_of_history_named :
    History unused [.setUp (jsonLines [("a", .error)])] configured ∧
      SameLevels (run (setUp (jsonLines [("a", .warning)])) configured).2
        (run (setUp (jsonLines [("a", .warning)])) (initial, beside)).2 := by
  obtain ⟨-, -, -, -, same⟩ := again_of_history rfl history_configured
    (show beside.loggers.levels = [] from rfl) rfl rfl (jsonLines [("a", .warning)])
  refine ⟨history_configured, same.2 fun name named given => ?_⟩
  have here : name = "a" := by
    by_contra other
    refine given ?_
    rw [lastGiven, List.reverse_singleton, List.findSome?_singleton, Call.gives]
    exact Pairs.get?_ofList_eq_none fun pair mem => by
      cases List.mem_singleton.1 mem
      exact other
  subst here
  rw [own_setUp named, run_setUp_jsonLines]
  decide

/-- A set-up that names no components leaves the level of one that an earlier set-up named. -/
theorem own_again_unnamed :
    History unused [.setUp (jsonLines [("a", .error)])] configured ∧
      (run (setUp (jsonLines [])) configured).2.2.loggers.own "a" = 40 ∧
      (run (setUp (jsonLines [])) (initial, beside)).2.2.loggers.own "a" = 0 ∧
      ¬ SameLevels (run (setUp (jsonLines [])) configured).2
        (run (setUp (jsonLines [])) (initial, beside)).2 := by
  have again : (run (setUp (jsonLines [])) configured).2.2.loggers.own "a" = 40 := by
    rw [own_setUp (by decide), run_setUp_jsonLines, own_of_history rfl history_configured]
    · decide
    · decide
  have alone : (run (setUp (jsonLines [])) (initial, beside)).2.2.loggers.own "a" = 0 := by
    rw [own_setUp (by decide), run_setUp_jsonLines]
    decide
  refine ⟨history_configured, again, alone, fun same => ?_⟩
  rw [same.own "a" (by decide), alone] at again
  cases again

end LogManager

end GraphClient
