import Mathlib.Algebra.Order.Ring.Rat
import GraphClient.Proofs.Flow.Operations

/-!
# Routines whose times are known

What a routine does may depend on the world. `J` is what is known of the world all along, and the
operations of the routines here keep it.

* `AtOnce`: a routine ends with a known outcome, without waiting.
* `Lasts`: a routine ends with a known outcome after sleeping for a known time.
* `Timed`: from a known time on, a routine sleeps and races parts of itself against time limits,
  each inside the one before. The times of the limits, the time of the end and the outcome are
  known.
* `Wakes`: the times at which a routine wakes from a sleep.
* `Unlocked`: a routine never uses the lock. All of the above are.
-/

namespace GraphClient.Routine

variable {E : Effects} {W : Type} (handler : Handler E W) (scope : Nat) (J : W → Prop)

/-- The routine ends with the outcome after operations only. -/
inductive AtOnce : Routine E → Outcome → Prop
  | done (o) : AtOnce (done o) o
  | perform {op k o} : (∀ w, J w → J (handler scope op w).2) →
      (∀ w, J w → AtOnce (k (handler scope op w).1) o) → AtOnce (perform op k) o

/-- The routine ends with the outcome after sleeping for the given time in all; it ends as soon as
it is cancelled. -/
inductive Lasts : Routine E → Rat → Outcome → Prop
  | done (o) : Lasts (done o) 0 o
  | perform {op k d o} : (∀ w, J w → J (handler scope op w).2) →
      (∀ w, J w → Lasts (k (handler scope op w).1) d o) → Lasts (perform op k) d o
  | sleep {d' k d o} : 0 ≤ d' → Lasts (k .resumed) d o →
      AtOnce handler scope J (k .cancelled) (.error .cancelled) → Lasts (sleep d' k) (d' + d) o

/-- How a race goes on that passes on what its part ends with, and ends with an outcome of its own
when the limit passes. -/
structure Guards (k : RaceEnd → Routine E) (expired : Outcome) : Prop where
  settled : ∀ o, AtOnce handler scope J (k (.settled o)) o
  cancelled : AtOnce handler scope J (k .cancelled) (.error .cancelled)
  expired : AtOnce handler scope J (k .expired) expired

/-- The routine, started at a time, races parts of itself against limits that pass at the given
times with the given outcomes, and without them would end at a time with an outcome. -/
inductive Timed : Rat → Routine E → List (Rat × Outcome) → Rat → Outcome → Prop
  | done (now o) : Timed now (done o) [] now o
  | perform {now op k limits T o} : (∀ w, J w → J (handler scope op w).2) →
      (∀ w, J w → Timed now (k (handler scope op w).1) limits T o) →
      Timed now (perform op k) limits T o
  | sleep {now d k limits T o} : 0 ≤ d → Timed (now + d) (k .resumed) limits T o →
      AtOnce handler scope J (k .cancelled) (.error .cancelled) →
      Timed now (sleep d k) limits T o
  | race {now part q k limits T o expired} : 0 < q → Timed now part limits T o →
      Guards handler scope J k expired →
      Timed now (race part (some q) k) ((now + q, expired) :: limits) T o

/-- The routine, started at a time, wakes from a sleep at the given time if nothing stops it. -/
inductive Wakes : Rat → Routine E → Rat → Prop
  | ends {now d k} : Wakes now (sleep d k) (now + d)
  | later {now d k time} : Wakes (now + d) (k .resumed) time → Wakes now (sleep d k) time
  | perform {now op k time w} : J w → Wakes now (k (handler scope op w).1) time →
      Wakes now (perform op k) time
  | race {now part limit? k time} : Wakes now part time → Wakes now (race part limit? k) time

/-- The routine never uses the lock. -/
inductive Unlocked : Routine E → Prop
  | done (o) : Unlocked (done o)
  | perform {op k} : (∀ w, J w → J (handler scope op w).2) →
      (∀ w, J w → Unlocked (k (handler scope op w).1)) → Unlocked (perform op k)
  | sleep {d k} : (∀ wake, Unlocked (k wake)) → Unlocked (sleep d k)
  | race {part limit? k} : Unlocked part → (∀ finish, Unlocked (k finish)) →
      Unlocked (race part limit? k)

variable {handler scope J}

theorem AtOnce.unlocked {r : Routine E} {o : Outcome} (h : AtOnce handler scope J r o) :
    Unlocked handler scope J r := by
  induction h with
  | done o => exact .done o
  | perform keeps _ ih => exact .perform keeps ih

theorem Guards.unlocked {k : RaceEnd → Routine E} {expired : Outcome}
    (h : Guards handler scope J k expired) (finish : RaceEnd) :
    Unlocked handler scope J (k finish) := by
  cases finish with
  | settled o => exact (h.settled o).unlocked
  | expired => exact h.expired.unlocked
  | cancelled => exact h.cancelled.unlocked

namespace Timed

variable {now T : Rat} {r : Routine E} {limits : List (Rat × Outcome)} {o : Outcome}

theorem unlocked (h : Timed handler scope J now r limits T o) : Unlocked handler scope J r := by
  induction h with
  | done _ o => exact .done o
  | perform keeps _ ih => exact .perform keeps ih
  | sleep _ _ cancelled ih =>
    refine .sleep fun wake => ?_
    cases wake with
    | resumed => exact ih
    | cancelled => exact cancelled.unlocked
  | race _ _ guards ih => exact .race ih guards.unlocked

/-- A routine does not end before it started. -/
theorem le {w : W} (hw : J w) (h : Timed handler scope J now r limits T o) : now ≤ T := by
  induction h generalizing w with
  | done => exact le_refl _
  | perform keeps _ ih => exact ih w hw hw
  | sleep nonneg _ _ ih => exact (le_add_of_nonneg_right nonneg).trans (ih hw)
  | race _ _ _ ih => exact ih hw

/-- Each limit passes later than the routine started. -/
theorem lt {w : W} (hw : J w) (h : Timed handler scope J now r limits T o) :
    ∀ limit ∈ limits, now < limit.1 := by
  induction h generalizing w with
  | done => exact fun limit mem => absurd mem List.not_mem_nil
  | perform keeps _ ih => exact ih w hw hw
  | sleep nonneg _ _ ih =>
    exact fun limit mem => (le_add_of_nonneg_right nonneg).trans_lt (ih hw limit mem)
  | race positive _ _ ih =>
    intro limit mem
    rcases List.mem_cons.1 mem with rfl | inner
    · exact lt_add_of_pos_right _ positive
    · exact ih hw limit inner

end Timed

/-- A single sleep lasts its time. -/
theorem lasts_sleep {d : Rat} {k : Wake → Routine E} {o : Outcome} (nonneg : 0 ≤ d)
    (resumed : Lasts handler scope J (k .resumed) 0 o)
    (cancelled : AtOnce handler scope J (k .cancelled) (.error .cancelled)) :
    Lasts handler scope J (sleep d k) d o := by
  have slept := Lasts.sleep nonneg resumed cancelled
  rwa [add_zero] at slept

/-- A routine that lasts a known time is timed, whenever it starts. -/
theorem Lasts.timed {r : Routine E} {d : Rat} {o : Outcome} (h : Lasts handler scope J r d o)
    (now : Rat) : Timed handler scope J now r [] (now + d) o := by
  induction h generalizing now with
  | done o =>
    rw [add_zero]
    exact .done now o
  | perform keeps _ ih => exact .perform keeps fun w hw => ih w hw now
  | sleep nonneg _ cancelled ih =>
    rw [← add_assoc]
    exact .sleep nonneg (ih _) cancelled

end GraphClient.Routine
