import Mathlib.Data.Nat.Cast.Order.Ring
import Mathlib.Tactic.NormNum
import GraphClient.Client.Basic
import GraphClient.Middleware.Script
import GraphClient.Proofs.Flow.Deadline
import GraphClient.Proofs.Middleware.Composition

/-!
# Time limits inside one another

A chain may hold any number of time limits and of middleware that sleep before they go on. Each
limit counts from the moment at which its middleware is entered.

* `Layer.timed`: such a chain is a timed routine.
* `behaviour_timeout`, `behaviour_sleeper`: the middleware that are layers.
* `run_within_limits`: the limit that passes first decides, wherever it stands in the chain; if
  none passes in time, the chain ends with what its last step ends with.
-/

namespace GraphClient

open Routine (AtOnce Guards Lasts Timed)

variable {M : Type}

/-- Middleware that takes time: a time limit for the rest of the chain, or a sleep before it. A
sleep that is cancelled may still do something. -/
inductive Layer (M : Type) where
  | limit (t : TimeLimit) (q : Rat) (passes : t.limit? = some q)
  | pause (d : Rat) (nonneg : 0 ≤ d) (onCancel : Flow M)

namespace Layer

/-- What a layer does with the rest of the chain. -/
def behaviour : Layer M → Flow M → Flow M
  | limit t _ _, next => Stock.timeout t next
  | pause d _ onCancel, next => .sleep d fun
    | .resumed => next
    | .cancelled => onCancel

/-- How long the layers sleep in all. -/
def slept : List (Layer M) → Rat
  | [] => 0
  | limit .. :: layers => slept layers
  | pause d _ _ :: layers => d + slept layers

/-- The time limits, and when each of them passes if the first layer is entered at the given
time. -/
def expiries (now : Rat) : List (Layer M) → List (Rat × TimeLimit)
  | [] => []
  | limit t q _ :: layers => (now + q, t) :: expiries now layers
  | pause d _ _ :: layers => expiries (now + d) layers

/-- When each limit passes, and what with, if the first layer is entered at the given time. -/
def limits (url : Value) (now : Rat) (layers : List (Layer M)) : List (Rat × Outcome) :=
  (expiries now layers).map fun e => (e.1, .error (e.2.expired url))

/-- A sleep that is cancelled ends at once. -/
def Stops (scope : Nat) (J : World M → Prop) : Layer M → Prop
  | limit .. => True
  | pause _ _ onCancel => AtOnce (E := effects M) World.handle scope J onCancel (.error .cancelled)

theorem expiries_add (start now : Rat) (layers : List (Layer M)) :
    expiries (start + now) layers = (expiries now layers).map fun e => (start + e.1, e.2) := by
  induction layers generalizing now with
  | nil => rfl
  | cons layer layers ih =>
    cases layer with
    | limit t q _ => simp only [expiries, ih, List.map_cons, add_assoc]
    | pause d _ _ => simp only [expiries, add_assoc, ih]

theorem limits_eq (url : Value) (now : Rat) (layers : List (Layer M)) :
    limits url now layers =
      (expiries 0 layers).map fun e => (now + e.1, .error (e.2.expired url)) := by
  have shifted := expiries_add now 0 layers
  rw [add_zero] at shifted
  rw [limits, shifted, List.map_map]
  rfl

theorem times_limits (url : Value) (now : Rat) (layers : List (Layer M)) :
    (limits url now layers).map Prod.fst = ((expiries 0 layers).map Prod.fst).map (now + ·) := by
  simp only [limits_eq, List.map_map, Function.comp_def]

/-- What the limits decide, in times that count from the start. -/
theorem decide_of_verdict {url : Value} {now T time : Rat} {layers : List (Layer M)}
    {o outcome : Outcome} (distinct : ((expiries 0 layers).map Prod.fst).Nodup)
    (verdict : Loop.Verdict (limits url now layers) (now + T) o time outcome) :
    (∀ e ∈ expiries 0 layers, T < e.1) ∧ time = now + T ∧ outcome = o ∨
      ∃ e t, (e, t) ∈ expiries 0 layers ∧ e < T ∧
        (∀ e' ∈ expiries 0 layers, e' ≠ (e, t) → e < e'.1) ∧
        time = now + e ∧ outcome = .error (t.expired url) := by
  rw [limits_eq] at verdict
  rcases verdict with ⟨first, time, rfl⟩ | ⟨mem, before, least⟩
  · refine .inl ⟨fun e mem => ?_, time, rfl⟩
    exact lt_of_add_lt_add_left (first _ (List.mem_map.2 ⟨e, mem, rfl⟩))
  · obtain ⟨⟨e, t⟩, inside, eq⟩ := List.mem_map.1 mem
    obtain ⟨time, rfl⟩ := Prod.mk.inj eq
    refine .inr ⟨e, t, inside, ?_, fun e' mem' ne => ?_, time.symm, rfl⟩
    · exact lt_of_add_lt_add_left (time ▸ before)
    · have le := least _ (List.mem_map.2 ⟨e', mem', rfl⟩)
      rw [← time] at le
      refine lt_of_le_of_ne (le_of_add_le_add_left le) fun equal => ne ?_
      exact List.inj_on_of_nodup_map distinct mem' inside equal.symm

section

variable {scope : Nat} {J : World M → Prop} {url : Value}

/-- A time limit passes on what the rest of the chain ends with, and has an error of its own. -/
theorem guards_conclude (fixed : ∀ w, J w → (w.requestOf scope).url = url) (t : TimeLimit) :
    Guards (E := effects M) World.handle scope J (Stock.conclude (M := M) t) (.error (t.expired url)) where
  settled o := .done o
  cancelled := .done _
  expired := by
    refine .perform (fun w hw => hw) fun w hw => ?_
    have same : ((World.handle scope .request w).1 : Request).url = url := fixed w hw
    show AtOnce (E := effects M) World.handle scope J (.fail (t.expired _)) _
    rw [same]
    exact .done _

/-- A chain of layers is timed, if its last step lasts a known time. -/
theorem timed {terminal : Flow M} {d : Rat} {o : Outcome}
    (fixed : ∀ w, J w → (w.requestOf scope).url = url)
    (lasts : Lasts (E := effects M) World.handle scope J terminal d o) (layers : List (Layer M))
    (stops : ∀ layer ∈ layers, layer.Stops scope J) (now : Rat) :
    Timed (E := effects M) World.handle scope J now (layers.foldr behaviour terminal)
      (limits url now layers) (now + (slept layers + d)) o := by
  induction layers generalizing now with
  | nil =>
    rw [slept, zero_add]
    exact lasts.timed now
  | cons layer layers ih =>
    have rest := ih fun layer mem => stops layer (List.mem_cons_of_mem _ mem)
    cases layer with
    | limit t q passes =>
      have positive : 0 < q := t.positive q passes
      have raced := Timed.race positive (rest now) (guards_conclude fixed t)
      rw [← passes] at raced
      exact raced
    | pause d' nonneg onCancel =>
      have stop : AtOnce (E := effects M) World.handle scope J onCancel (.error .cancelled) :=
        stops _ List.mem_cons_self
      rw [slept, add_assoc d', ← add_assoc now]
      exact .sleep nonneg (rest (now + d')) stop

end

end Layer

/-- Middleware that behaves like layers makes a chain of layers. -/
theorem dispatch_of_layers {K : Type} {behaviour : K → Flow M → Flow M} {layer : K → Layer M}
    {ms : List K} {terminal : Flow M} (same : ∀ m ∈ ms, behaviour m = (layer m).behaviour) :
    (DispatchChain.mk ms behaviour terminal).dispatch =
      (ms.map layer).foldr Layer.behaviour terminal :=
  (DispatchChain.dispatch_eq_foldr same).trans List.foldr_map.symm

/-! ## Layers among the middleware -/

/-- What a script does when its sleep is cancelled. -/
def Script.cancelled (name : String) : Flow M :=
  .perform (.trace (name ++ ":cancelled")) fun _ => .fail .cancelled

/-- A time limit is a layer. -/
theorem behaviour_timeout {t : TimeLimit} {q : Rat} (passes : t.limit? = some q) :
    Middleware.behaviour (.timeout t) = (Layer.limit t q passes).behaviour := rfl

/-- A script that sleeps and goes on is a layer. -/
theorem behaviour_sleeper (name : String) {d : Rat} (nonneg : 0 ≤ d) :
    Middleware.behaviour (.script name true [.sleep d, .next]) =
      (Layer.pause d nonneg (Script.cancelled name)).behaviour := by
  funext next
  have passedOn : next.onValue (fun v => .ret v) = next := by
    refine Eq.trans (congrArg next.andThen (funext fun outcome => ?_)) next.andThen_done
    cases outcome <;> rfl
  have resumed : Script.run name true next [.next] .null = next := passedOn
  show Routine.sleep d _ = Routine.sleep d _
  congr 1
  funext wake
  cases wake with
  | resumed => exact resumed
  | cancelled => rfl

/-- The endpoint answers after a delay, and the request has an address. -/
def Answers (scope : Nat) (d : Rat) (a : Answer) (url : Value) (w : World M) : Prop :=
  w.answers = [⟨some d, a⟩] ∧ (w.requestOf scope).url = url

theorem lasts_answer {scope : Nat} {d : Rat} {a : Answer} {url : Value} (nonneg : 0 ≤ d) :
    Lasts (E := effects M) World.handle scope (Answers scope d a url) Endpoint.answer d
      (Endpoint.plainOutcome (Endpoint.Answer.toExcept a)) := by
  refine .perform (fun w hw => hw) fun w hw => .perform ?_ fun w hw => ?_
  · rintro w ⟨answers, address⟩
    refine ⟨?_, address⟩
    show (World.nextAnswer w.answers).2 = _
    rw [answers]
    rfl
  · have answer : (World.nextAnswer w.answers).1 = ⟨some d, a⟩ := by
      rw [hw.1]
      rfl
    simp only [World.handle, answer]
    exact Routine.lasts_sleep nonneg (.done _) (.perform (fun w hw => hw) fun w hw => .done _)

/-- The layer that a middleware is, if it is one. -/
def Middleware.layer : Middleware → Layer Middleware
  | .timeout t =>
    match h : t.limit? with
    | some q => .limit t q h
    | none => .pause 0 (le_refl 0) (.fail .cancelled)
  | .script name true [.sleep d, .next] =>
    if h : 0 ≤ d then .pause d h (Script.cancelled name)
    else .pause 0 (le_refl 0) (.fail .cancelled)
  | _ => .pause 0 (le_refl 0) (.fail .cancelled)

/-- A limit of some seconds. -/
def TimeLimit.ofSeconds (n : Nat) (positive : 0 < n) : TimeLimit :=
  ⟨.int n, some n, fun _ e => Option.some.inj e ▸ Nat.cast_pos.2 positive⟩

/-- A limit of one second inside one of seven, entered after two seconds. -/
def nestedLimits : List Middleware :=
  [.timeout (.ofSeconds 7 (by decide)), .script "slow" true [.sleep 2, .next],
   .timeout (.ofSeconds 1 (by decide))]

/-- A client whose endpoint answers after three seconds. -/
def slowClient : ClientLoop Middleware :=
  let address : Value := .text "https://api.example.com/graphql"
  .initial (World.setRequest
    (Client.make address [] .direct .default [⟨some 3, .data (.text "late")⟩] .network) 0
    ⟨address, .text "{ a }", [], .null⟩)

theorem layers_nestedLimits : nestedLimits.map Middleware.layer =
    [.limit (.ofSeconds 7 (by decide)) (7 : Nat) rfl,
     .pause 2 zero_le_two (Script.cancelled "slow"),
     .limit (.ofSeconds 1 (by decide)) (1 : Nat) rfl] := by
  have two : (0 : Rat) ≤ 2 := zero_le_two
  simp only [nestedLimits, List.map_cons, List.map_nil, Middleware.layer, dif_pos two]
  rfl

/-! ## Which limit decides -/

/-- A chain of time limits and of middleware that sleep before they go on, in any order, over a
last step that ends with an outcome after some time. Let `T` be the time that all of them sleep,
and let each limit pass at the time slept before it is entered and its own time after. If `T` is
before all of these, the run ends at `T` with the outcome of the last step. Otherwise it ends when
the first limit passes, with a timeout error that carries that limit as it was given and the
address of the request. -/
theorem run_within_limits {K : Type} (behaviour : K → Flow M → Flow M) (layer : K → Layer M)
    (ms : List K) (terminal : Flow M) (d : Rat) (o : Outcome) (scope : Nat)
    (J : World M → Prop) (url : Value) (l : ClientLoop M)
    (same : ∀ m ∈ ms, behaviour m = (layer m).behaviour)
    (stops : ∀ m ∈ ms, (layer m).Stops scope J)
    (lasts : Lasts (E := effects M) World.handle scope J terminal d o)
    (fixed : ∀ w, J w → (w.requestOf scope).url = url) (start : J l.world)
    (idle : l.ready = [] ∧ l.timers = [])
    (distinct : ((Layer.slept (ms.map layer) + d) ::
      (Layer.expiries 0 (ms.map layer)).map Prod.fst).Nodup) :
    let T := Layer.slept (ms.map layer) + d
    let expiries := Layer.expiries 0 (ms.map layer)
    ∃ l' outcome, l.run World.handle (DispatchChain.mk ms behaviour terminal).dispatch scope =
        (l', some outcome) ∧
      ((∀ e ∈ expiries, T < e.1) ∧ l'.now = l.now + T ∧ outcome = o ∨
        ∃ e t, (e, t) ∈ expiries ∧ e < T ∧ (∀ e' ∈ expiries, e' ≠ (e, t) → e < e'.1) ∧
          l'.now = l.now + e ∧ ∃ error, outcome = .error (.query error) ∧
            error.cls = .timeout ∧ error.data = .timeout t.seconds ∧ error.url = url) := by
  intro T expiries
  have stops' : ∀ layer' ∈ ms.map layer, layer'.Stops scope J := by
    intro layer' mem
    obtain ⟨m, mem', rfl⟩ := List.mem_map.1 mem
    exact stops m mem'
  have apart := List.nodup_cons.1 distinct
  have timed := Layer.timed fixed lasts (ms.map layer) stops' l.now
  have distinct' : ((Layer.limits url l.now (ms.map layer)).map Prod.fst).Nodup := by
    rw [Layer.times_limits]
    exact apart.2.map fun _ _ => add_left_cancel
  have others : ∀ limit ∈ Layer.limits url l.now (ms.map layer), limit.1 ≠ l.now + T := by
    intro limit mem equal
    rw [Layer.limits_eq] at mem
    obtain ⟨e, inside, rfl⟩ := List.mem_map.1 mem
    exact apart.1 (List.mem_map.2 ⟨e, inside, add_left_cancel equal⟩)
  obtain ⟨l', outcome, ran, verdict⟩ :=
    Loop.run_of_timed timed idle.1 idle.2 start distinct' others
  refine ⟨l', outcome, (dispatch_of_layers same).symm ▸ ran,
    (Layer.decide_of_verdict apart.2 verdict).imp_right ?_⟩
  rintro ⟨e, t, mem, before, first, time, rfl⟩
  exact ⟨e, t, mem, before, first, time, _, rfl, rfl, rfl, rfl⟩

theorem run_within_limits_nestedLimits :
    ((Layer.slept (nestedLimits.map Middleware.layer) + 3) ::
      (Layer.expiries 0 (nestedLimits.map Middleware.layer)).map Prod.fst).Nodup ∧
    ∃ l' error, slowClient.run World.handle
        (DispatchChain.mk nestedLimits Middleware.behaviour Endpoint.answer).dispatch 0 =
        (l', some (.error (.query error))) ∧ l'.now = 3 ∧ error.cls = .timeout ∧
      error.data = .timeout (.int 1) ∧ error.url = .text "https://api.example.com/graphql" := by
  have distinct : ((Layer.slept (nestedLimits.map Middleware.layer) + 3) ::
      (Layer.expiries 0 (nestedLimits.map Middleware.layer)).map Prod.fst).Nodup := by
    rw [layers_nestedLimits]
    norm_num [Layer.slept, Layer.expiries]
  have same : ∀ m ∈ nestedLimits, Middleware.behaviour m = m.layer.behaviour := by
    intro m mem
    simp only [nestedLimits, List.mem_cons, List.not_mem_nil, or_false] at mem
    rcases mem with rfl | rfl | rfl
    · exact behaviour_timeout (q := (7 : Nat)) rfl
    · rw [behaviour_sleeper "slow" zero_le_two, Middleware.layer, dif_pos zero_le_two]
    · exact behaviour_timeout (q := (1 : Nat)) rfl
  have stops : ∀ m ∈ nestedLimits, m.layer.Stops 0
      (Answers 0 3 (.data (.text "late")) (.text "https://api.example.com/graphql")) := by
    intro m mem
    simp only [nestedLimits, List.mem_cons, List.not_mem_nil, or_false] at mem
    rcases mem with rfl | rfl | rfl
    · trivial
    · rw [Middleware.layer, dif_pos zero_le_two]
      exact .perform (fun w hw => hw) fun w hw => .done _
    · trivial
  obtain ⟨l', outcome, ran, verdict⟩ := run_within_limits Middleware.behaviour Middleware.layer
    nestedLimits Endpoint.answer 3 _ 0 _ _ slowClient same stops (lasts_answer zero_le_three)
    (fun w hw => hw.2) ⟨rfl, rfl⟩ ⟨rfl, rfl⟩ distinct
  simp only [layers_nestedLimits, Layer.slept, Layer.expiries, List.mem_cons, List.not_mem_nil,
    or_false] at verdict
  rcases verdict with ⟨first, -⟩ | ⟨e, t, mem, before, -, time, error, rfl, cls, data, url⟩
  · have late := first _ (.inr rfl)
    norm_num at late
  · rcases mem with outer | inner
    · obtain ⟨rfl, rfl⟩ := Prod.mk.inj outer
      norm_num at before
    · obtain ⟨rfl, rfl⟩ := Prod.mk.inj inner
      refine ⟨distinct, l', error, ran, time.trans ?_, cls, data, url⟩
      norm_num [slowClient, Loop.initial]

end GraphClient
