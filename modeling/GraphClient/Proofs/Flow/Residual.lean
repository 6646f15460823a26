import GraphClient.Proofs.Flow.Invariant

/-!
# What is left of a routine

`Routine.Residual r r'`: some of the answers that `r` waits for lead to `r'`. The parts of its
races count as well. Tasks that run what is left of a routine go on doing so
(`Loop.admits_residual`).
-/

namespace GraphClient

variable {E : Effects} {W : Type}

namespace Routine

/-- What is left of a routine after some of its steps, or of a part of it. -/
inductive Residual (r : Routine E) : Routine E → Prop
  | whole : Residual r r
  | perform {op k} (reply) : Residual r (perform op k) → Residual r (k reply)
  | clock {k} (now) : Residual r (clock k) → Residual r (k now)
  | sleep {d k} (wake) : Residual r (sleep d k) → Residual r (k wake)
  | part {part limit? k} : Residual r (race part limit? k) → Residual r part
  | race {part limit? k} (finish) : Residual r (race part limit? k) → Residual r (k finish)
  | acquire {k} (wake) : Residual r (acquire k) → Residual r (k wake)
  | release {next} : Residual r (release next) → Residual r next

/-- A routine performs an operation somewhere on its way. -/
def Performs (r : Routine E) (op : E.Op) : Prop := ∃ k, Residual r (.perform op k)

end Routine

theorem Wait.holds_true (w : Wait E) : w.Holds fun _ => True := by
  cases w <;> simp only [Wait.Holds, implies_true]

namespace Loop

variable {handler : Handler E W} {Q : Nat → Nat → Wait E → Prop} {J : W → Prop} {scope : Nat}

/-- The tasks of a scope that the predicate does not judge may run anything, if no operation in
the scope ends what is said of the world. -/
theorem admits_anything (tasks : ∀ t w, Q t scope w)
    (world : ∀ op w, J w → J (handler scope op w).2) :
    Admits handler Q J scope fun _ => True where
  stays t w _ := tasks t w
  goes _ w _ := w.holds_true
  perform op _ w _ hw := ⟨trivial, world op w hw⟩
  clock _ _ _ := trivial
  sleep _ _ _ _ := trivial
  part _ _ _ _ := trivial
  race _ _ _ _ _ := trivial
  acquire _ _ _ := trivial
  release _ _ := trivial

/-- The tasks of a scope go on with what is left of a routine, if none of its operations ends
what is said of the world. -/
theorem admits_residual {r : Routine E} (tasks : ∀ t w, Q t scope w ↔ w.Holds r.Residual)
    (world : ∀ op w, r.Performs op → J w → J (handler scope op w).2) :
    Admits handler Q J scope r.Residual where
  stays t w holds := (tasks t w).2 holds
  goes t w q := (tasks t w).1 q
  perform op _ w hr hw := ⟨hr.perform _, world op w ⟨_, hr⟩ hw⟩
  clock _ now hr := hr.clock now
  sleep _ _ wake hr := hr.sleep wake
  part _ _ _ hr := hr.part
  race _ _ _ finish hr := hr.race finish
  acquire _ wake hr := hr.acquire wake
  release _ hr := hr.release

end Loop

end GraphClient
