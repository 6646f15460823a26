import GraphClient.Proofs.Client.Solo
import GraphClient.Proofs.Flow.Deadline

/-!
# A run alone in its loop

* `World.answerAt`: the answers of an endpoint that answers a single run.
* `Routine.leads_alone`, `Routine.run_alone`: a routine that keeps to its own run ends when it is run
  alone, with the outcome that it has by itself and with its share in the world. The client stays as
  it was.
-/

namespace GraphClient

variable {M : Type}

namespace World

/-- The answers of an endpoint, by the number of answers that were given before. -/
def answerAt (answers : List Exchange) : Nat → Exchange
  | 0 => (nextAnswer answers).1
  | n + 1 => answerAt (nextAnswer answers).2 n

/-- An endpoint gives its answers in order. -/
theorem supplies_answerAt (received later : List Exchange) :
    Supplies (answerAt (received ++ later)) received := by
  induction received with
  | nil => exact fun _ _ found => nomatch found
  | cons first rest ih =>
    intro i ex found
    cases i with
    | zero =>
      obtain rfl := Option.some.inj found
      rw [List.cons_append]
      cases rest ++ later <;> rfl
    | succ i =>
      have more : rest[i]? = some ex := found
      cases rest with
      | nil => cases more
      | cons second rest => exact ih i ex more

end World

/-- The world shows the share of a run that is alone in it, after some calls of others. -/
structure Shows (base : List Call) (answers : Nat → Exchange) (w : World M) (s : Share) : Prop where
  request : w.requestOf 0 = s.request
  calls : w.calls = base ++ s.calls
  upcoming : ∀ i, answers (s.taken + i) = World.answerAt w.answers i

variable {client w : World M} {base : List Call} {answers : Nat → Exchange} {s : Share}

/-- An operation in the world is the one on the share. -/
theorem Shows.handle (h : Shows base answers w s) (same : w.fixed = client.fixed) {op : Effect M}
    (own : op.IsOwn) :
    (op ≠ .pool → (Share.handle client answers op s).1 = (w.handle 0 op).1) ∧
      Shows base answers (w.handle 0 op).2 (Share.handle client answers op s).2 := by
  have found (reads : op.ReadsClient) : (client.handle 0 op).1 = (w.handle 0 op).1 :=
    (World.handle_readsClient same 0 0 reads).symm
  cases op with
  | register _ => exact own.elim
  | updateHeaders _ => exact own.elim
  | pool => exact ⟨fun notPool => absurd rfl notPool, h⟩
  | defaults | registry | transport | settings | sessionSource | closeDelay =>
    exact ⟨fun _ => found trivial, h⟩
  | request => exact ⟨fun _ => h.request.symm, h⟩
  | edit f =>
    refine ⟨fun _ => rfl, ?_, h.calls, h.upcoming⟩
    exact (w.requestOf_setRequest_self 0 _).trans (congrArg f h.request)
  | record call =>
    refine ⟨fun _ => rfl, h.request, ?_, h.upcoming⟩
    exact (congrArg (· ++ [call]) h.calls).trans (List.append_assoc ..)
  | receive =>
    refine ⟨fun _ => h.upcoming 0, h.request, h.calls, fun i => ?_⟩
    rw [show (Share.handle client answers (.receive (M := M)) s).2.taken + i = s.taken + (i + 1) from
      Nat.add_right_comm s.taken 1 i]
    exact h.upcoming (i + 1)
  | _ => exact ⟨fun _ => rfl, h.request, h.calls, h.upcoming⟩

/-- A loop with a single task. -/
def lone (now : Rat) (w : World M) (wait : Wait (effects M)) (signal? : Option Wake) (held : Bool)
    (ready : List Job) (timers : List Timer) : ClientLoop M :=
  ⟨now, w, [⟨wait, signal?, false, 0, none⟩], ready, timers, ⟨held, []⟩⟩

/-- The only task wakes from its sleep. -/
theorem leads_lone (now d : Rat) (w : World M) (wait : Wait (effects M)) (signal? : Option Wake)
    (held : Bool) (k : Wake → Flow M) :
    ∃ now', Loop.Leads World.handle 0
      (Loop.exec World.handle 0 0 (.sleep d k) (lone now w wait signal? held [] []))
      (Loop.exec World.handle 0 0 (k .resumed) (lone now' w (.sleep k) none held [] [])) := by
  have wakes (now : Rat) : Loop.Leads World.handle 0
      (lone now w (.sleep k) (some .resumed) held [.wake 0] [])
      (Loop.exec World.handle 0 0 (k .resumed) (lone now w (.sleep k) none held [] [])) :=
    .job rfl rfl (.refl _)
  by_cases none' : d ≤ 0
  · refine ⟨now, ?_⟩
    have atOnce : Loop.exec World.handle 0 0 (.sleep d k) (lone now w wait signal? held [] []) =
        lone now w (.sleep k) (some .resumed) held [.wake 0] [] := by
      rw [Loop.exec]
      exact if_pos none'
    exact atOnce ▸ wakes now
  · refine ⟨now + d, ?_⟩
    have asleep : Loop.exec World.handle 0 0 (.sleep d k) (lone now w wait signal? held [] []) =
        lone now w (.sleep k) none held [] [⟨now + d, 0⟩] := by
      rw [Loop.exec]
      exact if_neg none'
    have next : (lone now w (.sleep k) none held [] [⟨now + d, 0⟩]).next? World.handle =
        some (lone (now + d) w (.sleep k) (some .resumed) held [.wake 0] []) := by
      rw [Loop.next?_of_timers rfl rfl]
      simp only [lone, List.filter_cons, decide_true, if_true, List.filter_nil, List.foldl_cons,
        List.foldl_nil]
      rfl
    rw [asleep]
    exact .step rfl next (wakes (now + d))

namespace Routine

/-- Run alone, the routine ends as it does by itself. -/
theorem leads_alone {held : Bool} {r : Flow M} (own : Own client held r) (now : Rat)
    (wait : Wait (effects M)) (signal? : Option Wake) (shows' : Shows base answers w s)
    (same : w.fixed = client.fixed) :
    ∃ now' w', Loop.Leads World.handle 0
        (Loop.exec World.handle 0 0 r (lone now w wait signal? held [] []))
        (lone now' w' (.over (solo client answers r s).1) none false [] []) ∧
      Shows base answers w' (solo client answers r s).2 ∧ w'.fixed = client.fixed := by
  induction own generalizing now w wait signal? s with
  | done o => exact ⟨now, w, .refl _, shows', same⟩
  | @perform held op k own notPool _ ih =>
    obtain ⟨reply, after⟩ := shows'.handle same own
    have rest := ih (w.handle 0 op).1 (fun reads => World.handle_readsClient same 0 0 reads) now wait
      signal? after ((w.fixed_handle 0 own).trans same)
    rw [solo, reply notPool]
    exact rest
  | @pool held k _ alike ih =>
    have rest := ih w.pool now wait signal? shows' same
    rw [alike w.pool client.pool answers] at rest
    exact rest
  | clock _ alike ih =>
    have rest := ih now now wait signal? shows' same
    rw [alike now 0 answers] at rest
    exact rest
  | sleep _ _ ih _ =>
    obtain ⟨now', wakes⟩ := leads_lone now _ w wait signal? _ _
    obtain ⟨now'', w', leads, after⟩ := ih now' _ none shows' same
    exact ⟨now'', w', wakes.trans leads, after⟩
  | acquire _ _ ih _ => exact ih now wait signal? shows' same
  | release _ ih => exact ih now wait signal? shows' same

/-- So it does in the loop that runs it, also where a routine goes on as it does. -/
theorem run_as_alone_of_exec {r r' : Flow M} (own : Own client false r') {w₀ : World M}
    (goesOn : Loop.exec World.handle 0 0 r (lone 0 w₀ (.start r) none false [] []) =
      Loop.exec World.handle 0 0 r' (lone 0 w (.start r) none false [] []))
    (shows' : Shows base answers w s) (same : w.fixed = client.fixed) :
    ∃ l', (Loop.initial w₀).run World.handle r 0 = (l', some (solo client answers r' s).1) ∧
      Shows base answers l'.world (solo client answers r' s).2 ∧ l'.world.fixed = client.fixed := by
  obtain ⟨now, w', leads, after⟩ := leads_alone own 0 (.start r) none shows' same
  rw [← goesOn] at leads
  let idle : ClientLoop M := .initial w₀
  refine ⟨lone now w' (.over (solo client answers r' s).1) none false [] [], ?_, after⟩
  have ends : Loop.runUntil World.handle (·.isOver idle.tasks.length)
      (Loop.exec World.handle 0 idle.tasks.length r { idle with
        tasks := idle.tasks ++ [⟨.start r, none, false, 0, none⟩] }) =
      some (lone now w' (.over (solo client answers r' s).1) none false [] []) :=
    Loop.runUntil_of_leads leads rfl
  show idle.run World.handle r 0 = _
  simp only [Loop.run]
  rw [ends]
  rfl

theorem run_alone {r : Flow M} (own : Own client false r) (shows' : Shows base answers w s)
    (same : w.fixed = client.fixed) :
    ∃ l', (Loop.initial w).run World.handle r 0 = (l', some (solo client answers r s).1) ∧
      Shows base answers l'.world (solo client answers r s).2 ∧ l'.world.fixed = client.fixed :=
  run_as_alone_of_exec own rfl shows' same

end Routine

end GraphClient
