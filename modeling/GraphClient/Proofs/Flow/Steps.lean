import Mathlib.Logic.Relation
import GraphClient.Proofs.Flow.Cut

/-!
# Steps of the loop

* `Loop.Leads`: steps lead from one state of the loop to another, and a task is not over before.
* `runUntil_of_leads`: the loop, run until the task is over, does these steps.
* `run_eq_some_iff`: a run ends with an outcome exactly if steps lead to that end.
* `runWithin`, `runUntil_of_runWithin`: so it is with a bounded number of steps.
* `Cut.skip`: the jobs of the tasks above a cut get done, and change nothing that is below.
-/

namespace GraphClient.Loop

variable {E : Effects} {W : Type}

/-- Steps of the loop lead from one state to another. In all of them but the last one the task is
not over. -/
def Leads (handler : Handler E W) (t : Nat) : Loop E W → Loop E W → Prop :=
  Relation.ReflTransGen fun l l' => l.isOver t = false ∧ l.next? handler = some l'

variable {handler : Handler E W} {t : Nat} {l l' l'' : Loop E W}

theorem Leads.refl (l : Loop E W) : Leads handler t l l := Relation.ReflTransGen.refl

theorem Leads.trans (h : Leads handler t l l') (h' : Leads handler t l' l'') :
    Leads handler t l l'' := Relation.ReflTransGen.trans h h'

theorem Leads.step (running : l.isOver t = false) (next : l.next? handler = some l')
    (h : Leads handler t l' l'') : Leads handler t l l'' := Relation.ReflTransGen.head ⟨running, next⟩ h

/-- A job is a step. -/
theorem Leads.job {job : Job} {rest : List Job} (running : l.isOver t = false)
    (ready : l.ready = job :: rest)
    (h : Leads handler t (runJob handler job { l with ready := rest }) l'') :
    Leads handler t l l'' := h.step running (next?_of_job ready)

/-- Where steps lead to a state in which nothing is left to do before the task is over, it is never over
on the way. -/
theorem Leads.running (h : Leads handler t l l') (h' : Leads handler t l l'')
    (idle : l'.next? handler = none) (running : l'.isOver t = false) : l''.isOver t = false := by
  rcases Relation.ReflTransGen.total_of_right_unique
    (fun _ _ _ step step' => Option.some.inj (step.2.symm.trans step'.2)) h h' with more | before
  · rcases more.cases_head with rfl | ⟨_, step, -⟩
    · exact running
    · cases idle.symm.trans step.2
  · rcases before.cases_head with rfl | ⟨_, step, -⟩
    · exact running
    · exact step.1

theorem runUntil_eq (stop : Loop E W → Bool) (l : Loop E W) :
    runUntil handler stop l =
      if stop l then some l
      else match l.next? handler with
        | some l => runUntil handler stop l
        | none => some l :=
  runUntil._go.eq_1 handler stop l

theorem runUntil_of_leads (h : Leads handler t l l') (finished : l'.isOver t = true) :
    runUntil handler (·.isOver t) l = some l' := by
  induction h using Relation.ReflTransGen.head_induction_on with
  | refl =>
    rw [runUntil_eq]
    exact if_pos finished
  | head step _ ih =>
    obtain ⟨running, next⟩ := step
    rw [runUntil_eq, next, if_neg (by rw [running]; exact Bool.false_ne_true)]
    exact ih

/-- Run until the task is over, the loop does steps until it is, or until nothing is left to do. -/
theorem leads_of_runUntil (h : runUntil handler (·.isOver t) l = some l') :
    Leads handler t l l' ∧ (l'.isOver t = true ∨ l'.next? handler = none) := by
  refine runUntil._go.partial_correctness handler (·.isOver t)
    (fun l l' => Leads handler t l l' ∧ (l'.isOver t = true ∨ l'.next? handler = none))
    (fun go ih l l' h => ?_) l l' h
  split at h
  · rename_i ended
    obtain rfl := Option.some.inj h
    exact ⟨.refl l, .inl ended⟩
  · rename_i running
    split at h
    · rename_i l₁ next
      obtain ⟨leads, stops⟩ := ih l₁ l' h
      exact ⟨leads.step (eq_false_of_ne_true running) next, stops⟩
    · rename_i idle
      obtain rfl := Option.some.inj h
      exact ⟨.refl l, .inr idle⟩

/-- The loop with a routine that has been started in it, as `run` starts it. -/
def started (handler : Handler E W) (r : Routine E) (scope : Nat) (l : Loop E W) : Loop E W :=
  exec handler scope l.tasks.length r
    { l with tasks := l.tasks ++ [⟨.start r, none, false, scope, none⟩] }

/-- A run ends with an outcome exactly if steps lead from its start to the end of its task. -/
theorem run_eq_some_iff {r : Routine E} {scope : Nat} {o : Outcome} :
    l.run handler r scope = (l', some o) ↔
      Leads handler l.tasks.length (l.started handler r scope) l' ∧
        l'.outcome? l.tasks.length = some o := by
  have ran : l.run handler r scope =
      match runUntil handler (·.isOver l.tasks.length) (l.started handler r scope) with
      | some l' => (l', l'.outcome? l.tasks.length)
      | none => (l.started handler r scope, none) := rfl
  constructor
  · intro h
    rw [ran] at h
    split at h
    · rename_i l₁ ends
      obtain ⟨rfl, ended⟩ := Prod.mk.inj h
      exact ⟨(leads_of_runUntil ends).1, ended⟩
    · cases (Prod.mk.inj h).2
  · rintro ⟨leads, ended⟩
    rw [ran, runUntil_of_leads leads (by rw [isOver, ended]; rfl)]
    exact congrArg (Prod.mk l') ended

/-- Steps until a condition holds, if they are no more than a number. -/
def runWithin (handler : Handler E W) (stop : Loop E W → Bool) : Nat → Loop E W → Option (Loop E W)
  | 0, _ => none
  | n + 1, l => if stop l then some l else (l.next? handler).bind (runWithin handler stop n)

theorem runUntil_of_runWithin {stop : Loop E W → Bool} {n : Nat}
    (h : runWithin handler stop n l = some l') :
    runUntil handler stop l = some l' ∧ stop l' = true := by
  induction n generalizing l with
  | zero => cases h
  | succ n ih =>
    rw [runWithin] at h
    rw [runUntil_eq]
    split at h
    · rename_i stops
      obtain rfl := Option.some.inj h
      exact ⟨if_pos stops, stops⟩
    · rename_i runs
      obtain ⟨l₁, next, h⟩ := Option.bind_eq_some_iff.1 h
      rw [if_neg runs, next]
      exact ih h

/-- Whether no state is bad until a condition holds or nothing is left to do, within a number of
steps. -/
def avoids (handler : Handler E W) (stop bad : Loop E W → Bool) : Nat → Loop E W → Bool
  | 0, _ => false
  | n + 1, l =>
    !bad l && (stop l ||
      match l.next? handler with
      | some l => avoids handler stop bad n l
      | none => true)

theorem Leads.avoids {bad : Loop E W → Bool} {n : Nat} (h : Leads handler t l l')
    (good : avoids handler (·.isOver t) bad n l = true) : bad l' = false := by
  induction h using Relation.ReflTransGen.head_induction_on generalizing n with
  | refl =>
    cases n with
    | zero => cases good
    | succ n => exact (Bool.not_eq_true' _).mp (Bool.and_eq_true_iff.1 good).1
  | head step _ ih =>
    cases n with
    | zero => cases good
    | succ n =>
      obtain ⟨running, next⟩ := step
      have later := (Bool.and_eq_true_iff.1 good).2
      simp only [running, Bool.false_or, next] at later
      exact ih later

theorem run_eq_of_runWithin {r : Routine E} {scope n : Nat}
    (h : runWithin handler (·.isOver l.tasks.length) n (exec handler scope l.tasks.length r
      { l with tasks := l.tasks ++ [⟨.start r, none, false, scope, none⟩] }) = some l') :
    l.run handler r scope = (l', l'.outcome? l.tasks.length) := by
  simp only [run]
  rw [(runUntil_of_runWithin h).1]

/-- A routine that has ended within some steps has been run to its end. -/
theorem run_of_runWithin {r : Routine E} {scope n : Nat}
    (h : runWithin handler (·.isOver l.tasks.length) n (exec handler scope l.tasks.length r
      { l with tasks := l.tasks ++ [⟨.start r, none, false, scope, none⟩] }) = some l') :
    ∃ outcome, l.run handler r scope = (l', some outcome) := by
  obtain ⟨outcome, ended⟩ := Option.isSome_iff_exists.1 (runUntil_of_runWithin h).2
  exact ⟨outcome, (run_eq_of_runWithin h).trans (congrArg (Prod.mk l') ended)⟩

/-- Before a job for a task below the cut is done, those for the tasks above it are. -/
theorem Cut.skip {scope : Nat} {J : W → Prop} {c : Nat} {jobs main : List Job} (ht : t ≤ c)
    (h : l.Cut handler scope J c) (deaf : l.Deaf c) (running : l.isOver t = false)
    (ready : l.ready = jobs ++ main) (above : ∀ job ∈ jobs, job.Above c) :
    ∃ l', Leads handler t l l' ∧ Keeps handler scope J c { l with ready := main } l' := by
  induction jobs generalizing l main with
  | nil =>
    have same : Cut handler scope J c { l with ready := main } :=
      ⟨h.wide, h.above, h.world⟩
    have unchanged : l.ready = main ++ [] := ready.trans (List.append_nil main).symm
    exact ⟨l, .refl l, same.keeps rfl rfl rfl unchanged nofun⟩
  | cons job jobs ih =>
    have popped : Cut handler scope J c { l with ready := jobs ++ main } :=
      ⟨h.wide, h.above, h.world⟩
    have done := popped.runJob (above job List.mem_cons_self) deaf
    obtain ⟨more, ready', above'⟩ := done.queue
    obtain ⟨l', leads, kept⟩ := ih done.cut (done.deaf deaf)
      ((isOver_congr (done.below t ht)).trans running)
      (ready'.trans (List.append_assoc jobs main more))
      fun job mem => above job (List.mem_cons_of_mem _ mem)
    obtain ⟨more', ready'', above''⟩ := kept.queue
    refine ⟨l', leads.job running ready, kept.now.trans done.now, fun t' le => ?_,
      ⟨more ++ more', ?_, fun job mem => ?_⟩, kept.cut⟩
    · exact (kept.below t' le).trans (done.below t' le)
    · exact ready''.trans (List.append_assoc main more more')
    · rcases List.mem_append.1 mem with old | new
      · exact above' job old
      · exact above'' job new

end GraphClient.Loop
