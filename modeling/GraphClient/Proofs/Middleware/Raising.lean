import GraphClient.Proofs.Flow.Cascade
import GraphClient.Proofs.Middleware.Deadlines

/-!
# What still runs when a time limit raises its error

A limit that passes cancels the rest of the chain and waits for its own part only. A limit further
inside that is cancelled does not wait.

* `over_when_raised`: when a limit raises its error, everything inside it has ended if no more than two
  limits were entered there. Otherwise the rest of the chain from the third of them on has not.
* `caught_before_cancelled`: with three limits inside, what catches the error goes on before the
  endpoint sees that it was cancelled.
-/

namespace GraphClient

open Routine (AtOnce Lasts Wakes)

variable {M : Type}

/-- A chain of time limits and of middleware that sleep before they go on, in any order, over a last
step that ends after some time. If the first limit passes before the end, and no sleep ends at the very
time at which a limit passes, the run comes to a state in which that limit is about to raise its error.
Each limit that was entered has a task for the rest of the chain. Of those tasks that are inside the
limit, the first three have ended, and no others. -/
theorem over_when_raised {K : Type} (behaviour : K → Flow M → Flow M) (layer : K → Layer M)
    (ms : List K) (terminal : Flow M) (d : Rat) (o : Outcome) (scope : Nat)
    (J : World M → Prop) (url : Value) (l : ClientLoop M)
    (same : ∀ m ∈ ms, behaviour m = (layer m).behaviour)
    (stops : ∀ m ∈ ms, (layer m).Stops scope J)
    (lasts : Lasts (E := effects M) World.handle scope J terminal d o)
    (fixed : ∀ w, J w → (w.requestOf scope).url = url) (start : J l.world)
    (idle : l.ready = [] ∧ l.timers = [])
    (distinct : ((Layer.expiries 0 (ms.map layer)).map Prod.fst).Nodup)
    (passes : ∃ e ∈ Layer.expiries 0 (ms.map layer), e.1 ≤ Layer.slept (ms.map layer) + d)
    (untied : ∀ e ∈ Layer.expiries 0 (ms.map layer), ¬Wakes (E := effects M) World.handle scope J l.now
      (DispatchChain.mk ms behaviour terminal).dispatch (l.now + e.1)) :
    let chain : Flow M := (DispatchChain.mk ms behaviour terminal).dispatch
    let expiries := Layer.expiries 0 (ms.map layer)
    ∃ i e t entered r, ∃ l' : ClientLoop M, expiries[i]? = some (e, t) ∧
      (∀ e' ∈ expiries, e ≤ e'.1) ∧ i < entered ∧ entered ≤ expiries.length ∧
      Loop.Through World.handle chain scope l l' ∧ l'.now = l.now + e ∧
      l'.tasks.length = l.tasks.length + entered + 1 ∧
      Loop.GoesOn World.handle scope (l.tasks.length + i) r l' ∧
      AtOnce (E := effects M) World.handle scope J r (.error (t.expired url)) ∧
      ∀ j, i < j → j ≤ entered → (l'.isOver (l.tasks.length + j) = true ↔ j ≤ i + 3) := by
  intro chain expiries
  have chain_eq : chain = (ms.map layer).foldr Layer.behaviour terminal := dispatch_of_layers same
  have stops' : ∀ layer' ∈ ms.map layer, layer'.Stops scope J := by
    intro layer' mem
    obtain ⟨m, mem', rfl⟩ := List.mem_map.1 mem
    exact stops m mem'
  have timed := Layer.timed fixed lasts (ms.map layer) stops' l.now
  rw [← chain_eq] at timed
  have distinct' : ((Layer.limits url l.now (ms.map layer)).map Prod.fst).Nodup := by
    rw [Layer.times_limits]
    exact distinct.map fun _ _ => add_left_cancel
  have passes' : ∃ limit ∈ Layer.limits url l.now (ms.map layer),
      limit.1 ≤ l.now + (Layer.slept (ms.map layer) + d) := by
    obtain ⟨e, mem, le⟩ := passes
    rw [Layer.limits_eq]
    exact ⟨_, List.mem_map.2 ⟨e, mem, rfl⟩, (add_le_add_iff_left l.now).2 le⟩
  have untied' : ∀ limit ∈ Layer.limits url l.now (ms.map layer),
      ¬Wakes (E := effects M) World.handle scope J l.now chain limit.1 := by
    intro limit mem
    rw [Layer.limits_eq] at mem
    obtain ⟨e, mem', rfl⟩ := List.mem_map.1 mem
    exact untied e mem'
  obtain ⟨i, entered, time, expired, r, l', found, least, inside, many, through, now, length, goesOn,
    ends, ended⟩ := Loop.Timed.raises timed idle.1 idle.2 start distinct' passes' untied'
  rw [Layer.limits_eq] at found least many
  obtain ⟨⟨e, t⟩, place, same'⟩ := Option.map_eq_some_iff.1 (List.getElem?_map.symm.trans found)
  obtain ⟨rfl, rfl⟩ := Prod.mk.inj same'
  refine ⟨i, e, t, entered, r, l', place, fun e' mem => ?_, inside, ?_, through, now, length, goesOn,
    ends, ended⟩
  · exact (add_le_add_iff_left l.now).1 (least _ (List.mem_map.2 ⟨e', mem, rfl⟩))
  · rwa [List.length_map] at many

/-- Limits of one, two and three seconds, each inside the one before. -/
def threeLimits : List Middleware :=
  [.timeout (.ofSeconds 1 Nat.one_pos), .timeout (.ofSeconds 2 Nat.two_pos),
   .timeout (.ofSeconds 3 (Nat.succ_pos 2))]

/-- A client whose endpoint answers after the given time. -/
def answeringAfter (d : Rat) : ClientLoop Middleware :=
  let address : Value := .text "https://api.example.com/graphql"
  .initial (World.setRequest
    (Client.make address [] .direct .default [⟨some d, .data (.text "late")⟩] .network) 0
    ⟨address, .text "{ a }", [], .null⟩)

theorem layers_threeLimits : threeLimits.map Middleware.layer =
    [.limit (.ofSeconds 1 Nat.one_pos) (1 : Nat) rfl, .limit (.ofSeconds 2 Nat.two_pos) (2 : Nat) rfl,
     .limit (.ofSeconds 3 (Nat.succ_pos 2)) (3 : Nat) rfl] := rfl

theorem expiries_threeLimits : Layer.expiries 0 (threeLimits.map Middleware.layer) =
    [(1, .ofSeconds 1 Nat.one_pos), (2, .ofSeconds 2 Nat.two_pos),
     (3, .ofSeconds 3 (Nat.succ_pos 2))] := by
  rw [layers_threeLimits]
  norm_num [Layer.expiries]

theorem layer_of_threeLimits {m : Middleware} (mem : m ∈ threeLimits) :
    m.behaviour = m.layer.behaviour ∧ ∀ scope J, m.layer.Stops scope J := by
  simp only [threeLimits, List.mem_cons, List.not_mem_nil, or_false] at mem
  rcases mem with rfl | rfl | rfl <;> exact ⟨rfl, fun _ _ => trivial⟩

/-- The endpoint wakes once, with its answer. -/
theorem wakes_answer {scope : Nat} {d now time : Rat} {a : Answer} {url : Value}
    (wakes : Wakes (E := effects M) World.handle scope (Answers scope d a url) now Endpoint.answer
      time) : time = now + d := by
  cases wakes with
  | perform _ received =>
    cases received with
    | @perform _ _ _ _ w hw slept =>
      have answer : (World.nextAnswer w.answers).1 = ⟨some d, a⟩ := by
        rw [hw.1]
        rfl
      simp only [World.handle, answer] at slept
      cases slept with
      | ends => rfl
      | later ended => cases ended

/-- With two limits inside, everything has ended when the outermost one raises its error. -/
theorem over_when_raised_threeLimits :
    ((Layer.expiries 0 (threeLimits.map Middleware.layer)).map Prod.fst).Nodup ∧
    (∃ e ∈ Layer.expiries 0 (threeLimits.map Middleware.layer),
      e.1 ≤ Layer.slept (threeLimits.map Middleware.layer) + 9) ∧
    ∃ l' : ClientLoop Middleware, Loop.Through World.handle
        (DispatchChain.mk threeLimits Middleware.behaviour Endpoint.answer).dispatch 0
        (answeringAfter 9) l' ∧ l'.now = 1 ∧
      ∀ j, 0 < j → j < l'.tasks.length → l'.isOver j = true := by
  have distinct : ((Layer.expiries 0 (threeLimits.map Middleware.layer)).map Prod.fst).Nodup := by
    rw [expiries_threeLimits]
    norm_num
  have passes : ∃ e ∈ Layer.expiries 0 (threeLimits.map Middleware.layer),
      e.1 ≤ Layer.slept (threeLimits.map Middleware.layer) + 9 := by
    rw [expiries_threeLimits, layers_threeLimits]
    refine ⟨_, List.mem_cons_self, ?_⟩
    norm_num [Layer.slept]
  have untied : ∀ e ∈ Layer.expiries 0 (threeLimits.map Middleware.layer),
      ¬Wakes (E := effects Middleware) World.handle 0
        (Answers 0 9 (.data (.text "late")) (.text "https://api.example.com/graphql")) 0
        (DispatchChain.mk threeLimits Middleware.behaviour Endpoint.answer).dispatch (0 + e.1) := by
    intro e mem wakes
    rw [DispatchChain.dispatch, DispatchChain.call_eq_foldr] at wakes
    cases wakes with | race wakes
    cases wakes with | race wakes
    cases wakes with | race wakes
    have time := wakes_answer wakes
    rw [expiries_threeLimits] at mem
    simp only [List.mem_cons, List.not_mem_nil, or_false] at mem
    rcases mem with rfl | rfl | rfl <;> norm_num at time
  obtain ⟨i, e, t, entered, r, l', place, least, inside, many, through, now, length, -, -, ended⟩ :=
    over_when_raised Middleware.behaviour Middleware.layer threeLimits Endpoint.answer 9 _ 0 _ _
      (answeringAfter 9) (fun _ mem => (layer_of_threeLimits mem).1)
      (fun _ mem => (layer_of_threeLimits mem).2 0 _) (lasts_answer (by norm_num)) (fun w hw => hw.2)
      ⟨rfl, rfl⟩ ⟨rfl, rfl⟩ distinct passes untied
  rw [expiries_threeLimits] at place least many
  -- The outermost limit is the first to pass.
  have first : i = 0 ∧ e = 1 := by
    have le : e ≤ 1 := least _ List.mem_cons_self
    rcases i with _ | _ | _ | i
    · exact ⟨rfl, (Prod.mk.inj (Option.some.inj place)).1.symm⟩
    · rw [← (Prod.mk.inj (Option.some.inj place)).1] at le
      norm_num at le
    · rw [← (Prod.mk.inj (Option.some.inj place)).1] at le
      norm_num at le
    · cases place
  obtain ⟨rfl, rfl⟩ := first
  have idle : (answeringAfter 9).tasks.length = 0 := rfl
  rw [idle, Nat.zero_add] at length
  refine ⟨distinct, passes, l', through, now.trans (zero_add 1), fun j deep low => ?_⟩
  have many : entered ≤ 3 := many
  have gone := (ended j deep (by omega)).2 (by omega)
  rwa [idle, Nat.zero_add] at gone

/-- What catches every error, and goes on after a second, around four limits. -/
def catchingFourLimits : List Middleware :=
  .script "up" true [.catch, .sleep 1, .log "later"] :: threeLimits ++
    [.timeout (.ofSeconds 4 (Nat.succ_pos 3))]

/-- With three limits inside, what stands before the outermost one goes on with its error before the
endpoint sees that it was cancelled. -/
theorem caught_before_cancelled :
    ∃ l' outcome, (answeringAfter 9).run World.handle
        (DispatchChain.mk catchingFourLimits Middleware.behaviour Endpoint.answer).dispatch 0 =
        (l', some outcome) ∧
      l'.world.trace =
        ["transport", "up:caught gql.TimeoutError", "transport:cancelled", "up:later"] := by
  have composed : (DispatchChain.mk catchingFourLimits Middleware.behaviour Endpoint.answer).dispatch =
      catchingFourLimits.foldr Middleware.behaviour Endpoint.answer := DispatchChain.call_eq_foldr _ 0
  have traced : (Loop.runWithin World.handle (·.isOver 0) 30 (Loop.exec World.handle 0 0
      (catchingFourLimits.foldr Middleware.behaviour Endpoint.answer)
      { answeringAfter 9 with tasks := [⟨.start (catchingFourLimits.foldr Middleware.behaviour
        Endpoint.answer), none, false, 0, none⟩] })).map (·.world.trace) =
      some ["transport", "up:caught gql.TimeoutError", "transport:cancelled", "up:later"] := by
    decide +kernel
  obtain ⟨l', ends, trace⟩ := Option.map_eq_some_iff.1 traced
  obtain ⟨outcome, ran⟩ := Loop.run_of_runWithin (l := answeringAfter 9) ends
  exact ⟨l', outcome, composed ▸ ran, trace⟩

end GraphClient
