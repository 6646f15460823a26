import GraphClient.Client.Basic
import GraphClient.Proofs.Flow.Marks
import GraphClient.Proofs.Middleware.Composition
import GraphClient.Proofs.Middleware.Program

/-!
# Which positions run inside which

The positions of a chain leave marks where they are entered and left, and where they wait for the
position after them (`tracedFrom`). Middleware that waits for the rest of the chain itself leaves
marks that are nested.

* `Course`: what happens while a position is open, with what happens inside.
* `Course.Raised`: which position something comes from that was raised.
* `takesCourse_tracedFrom`: every position takes a course.
* `run_nested`: whatever happens to a run, its marks are those of a course up to now.
* `run_stopIteration`: a position is a coroutine, which does not let everything through as it is.
-/

namespace GraphClient

variable {M A : Type} {E : Effects} {W : Type}

/-- What happens at a position of a chain. The last position is that of the last step. -/
inductive ChainEvent where
  | enters (i : Nat)
  /-- The position waits for the one after it. -/
  | awaits (i : Nat)
  | resumes (i : Nat) (o : Outcome)
  /-- The position asks for the one after it, and drops what it is handed. -/
  | discards (i : Nat)
  | leaves (i : Nat) (result : Except Thrown Value)

/-! ## Courses -/

/-- What happens while a position is open, up to its end. Nothing happens inside but where it waits.
-/
inductive Course where
  | ends (result : Except Thrown Value)
  | discards (rest : Course)
  | awaits (inner rest : Course)

namespace Course

/-- What the middleware of the position ends with. -/
def result : Course → Except Thrown Value
  | ends result => result
  | discards rest => rest.result
  | awaits _ rest => rest.result

/-- What the position ends with, which is a coroutine. -/
def outcome (c : Course) : Outcome := .leaving .coroutine c.result

/-- What happens after a position was entered. The position after it is entered where it is waited
for, and left before its outcome is handed on. -/
def events (i : Nat) : Course → List ChainEvent
  | ends result => [.leaves i result]
  | discards rest => .discards i :: rest.events i
  | awaits inner rest =>
    .awaits i :: .enters (i + 1) :: (inner.events (i + 1) ++ .resumes i inner.outcome :: rest.events i)

/-- Only the middleware, of which there are so many, have a position after them. -/
def Fits (n i : Nat) : Course → Prop
  | ends _ => True
  | discards rest => i < n ∧ rest.Fits n i
  | awaits inner rest => i < n ∧ inner.Fits n (i + 1) ∧ rest.Fits n i

/-- What the position waited for last. -/
def last? : Course → Option Course
  | ends _ => none
  | discards rest => rest.last?
  | awaits inner rest => rest.last? <|> some inner

/-- What is raised at a position in the end comes from a position: from itself, or from what it waited
for last and did not recover from. -/
inductive Raised (t : Thrown) : Nat → Course → Nat → Prop
  | own {i c} : c.result = .error t →
    (∀ inner e, c.last? = some inner → inner.outcome = .error e → t ≠ .failure e) → Raised t i c i
  | passed {i c inner e p} : c.result = .error (.failure e) → c.last? = some inner →
    inner.outcome = .error e → Raised t (i + 1) inner p → Raised t i c p

variable {e : Failure} {n i : Nat} {c : Course}

/-- The position fails with what was raised at some position, as it leaves a coroutine. -/
def Fails (e : Failure) (n i : Nat) (c : Course) : Prop :=
  ∃ p ≤ n, ∃ t, c.Raised t i p ∧ t.leaving .coroutine = e

theorem fails_of_last (inside : i ≤ n) (fails : c.outcome = .error e)
    (last : ∀ inner e, c.last? = some inner → inner.outcome = .error e →
      inner.Fails e n (i + 1)) : c.Fails e n i := by
  cases raised : c.result with
  | ok v =>
    rw [outcome, raised] at fails
    cases fails
  | error t =>
    rw [outcome, raised] at fails
    obtain rfl := Except.error.inj fails
    by_cases passed : ∃ inner e, c.last? = some inner ∧ inner.outcome = .error e ∧ t = .failure e
    · obtain ⟨inner, e, came, fails', rfl⟩ := passed
      obtain ⟨p, le, t, raised', same⟩ := last inner e came fails'
      exact ⟨p, le, t, .passed raised came fails' raised', same⟩
    · refine ⟨i, inside, t, .own raised fun inner e came fails' same => ?_, rfl⟩
      exact passed ⟨inner, e, came, fails', same⟩

theorem fails_last {inner : Course} (fits : c.Fits n i) (last : c.last? = some inner)
    (fails : inner.outcome = .error e) : inner.Fails e n (i + 1) := by
  induction c generalizing i inner e with
  | ends result => cases last
  | discards rest ih => exact ih fits.2 last fails
  | awaits first rest ihf ih =>
    cases came : rest.last? with
    | some inner' =>
      rw [last?, came] at last
      exact ih fits.2.2 (came.trans last) fails
    | none =>
      rw [last?, came] at last
      obtain rfl := Option.some.inj last
      exact fails_of_last fits.1 fails fun _ _ => ihf fits.2.1

/-- Every failure of a position comes from a position. -/
theorem fails_of_fits (inside : i ≤ n) (fits : c.Fits n i) (fails : c.outcome = .error e) :
    c.Fails e n i :=
  fails_of_last inside fails fun _ _ => fails_last fits

end Course

/-! ## Marked chains -/

namespace Program

/-- What the program does at a position around the rest of the chain, with marks. At its end it leaves
the position. -/
def traced (i : Nat) : Program E → Routine (E.marked ChainEvent) → Routine (E.marked ChainEvent)
  | done result, _ => .mark (.leaves i result) (.done (.leaving .coroutine result))
  | perform op k, r => .perform (E := E.marked ChainEvent) (.inl op) fun reply => (k reply).traced i r
  | clock k, r => .clock fun now => (k now).traced i r
  | sleep d k, r => .sleep d fun wake => (k wake).traced i r
  | race part limit? k, r =>
    .race ((part.around (.done (.ok .null))).plain ChainEvent) limit? fun finish => (k finish).traced i r
  | acquire k, r => .acquire fun wake => (k wake).traced i r
  | release next, r => .release (next.traced i r)
  | rest k, r => .mark (.awaits i) (r.andThen fun o => .mark (.resumes i o) ((k o).traced i r))
  | discard next, r => .mark (.discards i) (next.traced i r)

/-- What does not wait for the rest of the chain is the same around any other. -/
theorem Closed.around_eq {p : Program E} (h : p.Closed) (r r' : Routine E) : p.around r = p.around r' := by
  induction p with
  | done result => rfl
  | perform op k ih => simp only [around, fun reply => ih reply (h reply)]
  | clock k ih => simp only [around, fun now => ih now (h now)]
  | sleep d k ih => simp only [around, fun wake => ih wake (h wake)]
  | race part limit? k ihp ih => simp only [around, ihp h.1, fun finish => ih finish (h.2 finish)]
  | acquire k ih => simp only [around, fun wake => ih wake (h wake)]
  | release next ih => simp only [around, ih h]
  | rest k _ => exact h.elim
  | discard next ih => exact ih h

end Program

/-- The last step at its position, with marks. -/
def tracedLast (i : Nat) (terminal : Routine E) : Routine (E.marked ChainEvent) :=
  (terminal.plain ChainEvent).andThen fun o => .mark (.leaves i o.toResult) (.done o)

/-- The chain from a position on, with marks. -/
def tracedFrom (program : M → Program E) (terminal : Routine E) : Nat → List M → Routine (E.marked ChainEvent)
  | i, [] => .mark (.enters i) (tracedLast i terminal)
  | i, m :: ms =>
    .mark (.enters i) ((program m).traced i (tracedFrom program terminal (i + 1) ms))

/-! ## The marks change nothing else -/

section

variable {handler : Handler E W} {scope : Nat}

/-- The marks do nothing to the world, which shows nothing of them. -/
def idly : Nat → ChainEvent → W → ChainEvent × W := fun _ v w => (v, w)

theorem Program.Inline.marks {p : Program E} (inline : p.Inline) {r : Routine E}
    {r' : Routine (E.marked ChainEvent)} (h : r.Marks handler idly scope r') (i : Nat) :
    (p.around r).Marks handler idly scope (p.traced i r') := by
  induction p with
  | done result => exact .mark (.done _) fun _ => rfl
  | perform op k ih => exact .perform op fun reply => ih reply (inline reply)
  | clock k ih => exact .clock fun now => ih now (inline now)
  | sleep d k ih => exact .sleep fun wake => ih wake (inline wake)
  | race part limit? k _ ih =>
    refine .race ?_ fun finish => ih finish (inline.2 finish)
    rw [inline.1.around_eq r (.done (.ok .null))]
    exact Routine.marks_plain ChainEvent idly scope _
  | acquire k ih => exact .acquire fun wake => ih wake (inline wake)
  | release next ih => exact .release (ih inline)
  | rest k ih =>
    exact .mark (.andThen h fun o => .mark (ih o (inline o)) fun _ => rfl) fun _ => rfl
  | discard next ih => exact .mark (ih inline) fun _ => rfl

theorem marks_tracedLast (terminal : Routine E) (i : Nat) :
    terminal.Marks handler idly scope (tracedLast i terminal) := by
  have left : (terminal.andThen .done).Marks handler idly scope (tracedLast i terminal) :=
    .andThen (terminal.marks_plain ChainEvent idly scope) fun o =>
      .mark (Routine.Mirrors.done o) fun _ => rfl
  rwa [Routine.andThen_done] at left

theorem marks_tracedFrom {program : M → Program E} {ms : List M} (inline : ∀ m ∈ ms, (program m).Inline)
    (terminal : Routine E) (i : Nat) :
    (ms.foldr (fun m => (program m).around) terminal).Marks handler idly scope
      (tracedFrom program terminal i ms) := by
  induction ms generalizing i with
  | nil => exact .mark (marks_tracedLast terminal i) fun _ => rfl
  | cons m ms ih =>
    have rest := ih (fun m mem => inline m (List.mem_cons_of_mem _ mem)) (i + 1)
    exact .mark ((inline m List.mem_cons_self).marks rest i) fun _ => rfl

end

/-! ## Every position takes a course -/

section

variable {handler : Handler E W} {scope n i : Nat} {es : List ChainEvent}
  {ends ends' : Outcome → List ChainEvent → Prop} {w : W × List ChainEvent}

/-- So far, the marks of a chain of so many middleware are those of a course. -/
def UnderWay (n : Nat) (es : List ChainEvent) : Prop :=
  ∃ c : Course, c.Fits n 0 ∧ es <+: .enters 0 :: c.events 0

theorem UnderWay.of_append {es' : List ChainEvent} (h : UnderWay n (es ++ es')) : UnderWay n es :=
  let ⟨c, fits, before⟩ := h
  ⟨c, fits, (List.prefix_append es es').trans before⟩

/-- The marks of a run are watched. -/
abbrev watchCourse (handler : Handler E W) (scope n : Nat) :
    Watch (E.marked ChainEvent) (W × List ChainEvent) (List ChainEvent) :=
  Watch.marks handler idly scope (fun es => es) (UnderWay n)

/-- After some marks, an open position may take any course, and ends as specified. -/
structure Room (n i : Nat) (es : List ChainEvent) (ends : Outcome → List ChainEvent → Prop) : Prop where
  underWay : ∀ c : Course, c.Fits n i → UnderWay n (es ++ c.events i)
  ends : ∀ c : Course, c.Fits n i → ends c.outcome (es ++ c.events i)

namespace Room

theorem inv (h : Room n i es ends) (here : w.2 = es) : UnderWay n w.2 :=
  here ▸ (h.underWay (.ends (.ok .null)) trivial).of_append

theorem discards (h : Room n i es ends) (inside : i < n) :
    Room n i (es ++ [.discards i]) ends where
  underWay c fits := by
    rw [List.append_assoc]
    exact h.underWay (.discards c) ⟨inside, fits⟩
  ends c fits := by
    rw [List.append_assoc]
    exact h.ends (.discards c) ⟨inside, fits⟩

/-- There is room for the position that is waited for. -/
theorem inner (h : Room n i es ends) (inside : i < n)
    (ended : ∀ c : Course, c.Fits n (i + 1) →
      ends' c.outcome (es ++ (.awaits i :: .enters (i + 1) :: c.events (i + 1)))) :
    Room n (i + 1) (es ++ [.awaits i] ++ [.enters (i + 1)]) ends' where
  underWay c fits := by
    have whole := h.underWay (.awaits c (.ends (.ok .null))) ⟨inside, fits, trivial⟩
    have inner : UnderWay n (es ++ [.awaits i] ++ [.enters (i + 1)] ++ c.events (i + 1) ++
        [.resumes i c.outcome, .leaves i (.ok .null)]) := by
      simpa only [Course.events, List.append_assoc, List.cons_append, List.nil_append] using whole
    exact inner.of_append
  ends c fits := by
    simpa only [List.append_assoc, List.cons_append, List.nil_append] using ended c fits

/-- There is still room after the position that was waited for. -/
theorem resumes {c : Course} (h : Room n i es ends) (inside : i < n) (fits : c.Fits n (i + 1)) :
    Room n i
      (es ++ (.awaits i :: .enters (i + 1) :: c.events (i + 1)) ++ [.resumes i c.outcome]) ends where
  underWay rest fits' := by
    have whole := h.underWay (.awaits c rest) ⟨inside, fits, fits'⟩
    simpa only [Course.events, List.append_assoc, List.cons_append, List.nil_append] using whole
  ends rest fits' := by
    have whole : ends rest.outcome _ := h.ends (.awaits c rest) ⟨inside, fits, fits'⟩
    simpa only [Course.events, List.append_assoc, List.cons_append, List.nil_append] using whole

end Room

/-- The routine takes a course of a position, where there is room for it. -/
def TakesCourse (handler : Handler E W) (scope n i : Nat) (r : Routine (E.marked ChainEvent)) : Prop :=
  ∀ {es ends w}, Room n i (es ++ [.enters i]) ends → w.2 = es →
    (watchCourse handler scope n).Obeys r (some ends) w

/-- Where the last course of a position is over, it ends as specified. -/
theorem Room.obeys_leave {result : Except Thrown Value} (room : Room n i es ends) (here : w.2 = es) :
    (watchCourse handler scope n).Obeys (.mark (.leaves i result) (.done (.leaving .coroutine result)))
      (some ends) w := by
  subst here
  refine ⟨room.underWay (.ends result) trivial, fun ends' said => ?_⟩
  obtain rfl := Option.some.inj said
  exact room.ends (.ends result) trivial

/-- A program takes a course around the rest of the chain. -/
theorem Program.Inline.obeys_traced {p : Program E} (inline : p.Inline) (inside : i < n)
    {r : Routine (E.marked ChainEvent)} (rest : TakesCourse handler scope n (i + 1) r)
    (room : Room n i es ends) (here : w.2 = es) :
    (watchCourse handler scope n).Obeys (p.traced i r) (some ends) w := by
  induction p generalizing es w with
  | done result => exact room.obeys_leave here
  | perform op k ih => exact ih _ (inline _) room here
  | clock k ih => exact fun now => ih now (inline now) room here
  | sleep d k ih =>
    exact ⟨room.inv here, fun wake w' same => ih wake (inline wake) room (same.trans here)⟩
  | race part limit? k _ ih =>
    exact ⟨room.inv here, .inl ⟨Watch.silent_plain _ _, fun finish w' same =>
      ih finish (inline.2 finish) room (same.trans here)⟩⟩
  | acquire k ih =>
    exact ⟨ih _ (inline _) room here, room.inv here, fun wake w' same =>
      ih wake (inline wake) room (same.trans here)⟩
  | release next ih => exact ih inline room here
  | rest k ih =>
    subst here
    let back : Outcome → List ChainEvent → Prop := fun o es' =>
      ∃ c : Course, c.Fits n (i + 1) ∧ c.outcome = o ∧
        es' = w.2 ++ (.awaits i :: .enters (i + 1) :: c.events (i + 1))
    have within : Room n (i + 1) (w.2 ++ [.awaits i] ++ [.enters (i + 1)]) back :=
      room.inner inside fun c fits => ⟨c, fits, rfl, rfl⟩
    have goes : (watchCourse handler scope n).Obeys
        (r.andThen fun o => .mark (.resumes i o) ((k o).traced i r)) (some ends)
        (w.1, w.2 ++ [.awaits i]) := by
      refine Watch.Obeys.andThen (rest within rfl) fun o w' came => ?_
      obtain ⟨c, fits, rfl, here⟩ := came
      exact ih c.outcome (inline _) (room.resumes inside fits) (congrArg (· ++ _) here)
    exact goes
  | discard next ih =>
    subst here
    exact ih inline (room.discards inside) rfl

theorem takesCourse_tracedFrom {program : M → Program E} {ms : List M}
    (inline : ∀ m ∈ ms, (program m).Inline) (terminal : Routine E) (size : i + ms.length = n) :
    TakesCourse (W := W) handler scope n i (tracedFrom program terminal i ms) := by
  induction ms generalizing i with
  | nil =>
    intro es ends w room here
    have entered : w.2 ++ [.enters i] = es ++ [.enters i] := congrArg (· ++ _) here
    refine (Watch.silent_plain scope terminal).obeys_andThen (room.inv entered) fun o w' same => ?_
    have left : (watchCourse handler scope n).Obeys
        (.mark (.leaves i o.toResult) (.done (.leaving .coroutine o.toResult))) (some ends) w' :=
      room.obeys_leave (same.trans entered)
    rwa [Outcome.leaving_toResult] at left
  | cons m ms ih =>
    intro es ends w room here
    rw [List.length_cons] at size
    refine (inline m List.mem_cons_self).obeys_traced (by omega) (ih ?_ (by omega)) room ?_
    · exact fun m mem => inline m (List.mem_cons_of_mem _ mem)
    · exact congrArg (· ++ _) here

end

/-- A plain middleware hands back the rest of a chain, the next one catches an error and tries
again, and the last one drops the rest of the chain and raises an error. Each comes with what it
does as a program. -/
def twiceRaising (error : Raise) : List (Middleware × Program (effects Middleware)) :=
  [(.script "plain" false [.next], .handBack),
    (.script "up" true [.catch, .next], .rest fun
      | .ok _ => .handBack
      | .error e =>
        if e.isError then .perform (E := effects Middleware) (.trace ("up" ++ ":caught " ++ e.name)) fun _ =>
          .handBack
        else .done (.error (.failure e))),
    (.script "off" true [.drop, .raise error], .discard (.done (.error error.toThrown)))]

theorem twiceRaising_around (error : Raise) :
    ∀ m ∈ twiceRaising error, m.1.behaviour = m.2.around := by
  have again (r : Flow Middleware) :
      (r.onValue fun v => .ret v) = (Program.handBack (E := effects Middleware)).around r := by
    rw [Program.around_handBack]
    refine Eq.trans (congrArg r.andThen (funext fun o => ?_)) r.andThen_done
    cases o <;> rfl
  refine List.forall_mem_cons.2 ⟨?plain, List.forall_mem_cons.2 ⟨?up, List.forall_mem_singleton.2 ?off⟩⟩
  case plain => exact funext fun next => (Program.around_handBack next).symm
  case up =>
    refine funext fun next => congrArg next.andThen (funext fun o => ?_)
    cases o with
    | ok v => exact again next
    | error e =>
      by_cases counts : e.isError = true
      · simp only [Program.around, if_pos counts]
        exact congrArg (Routine.perform _) (funext fun _ => again next)
      · simp only [Program.around, if_neg counts]
        rfl
  case off => rfl

theorem twiceRaising_inline (error : Raise) : ∀ m ∈ twiceRaising error, m.2.Inline := by
  refine List.forall_mem_cons.2 ⟨?plain, List.forall_mem_cons.2 ⟨?up, List.forall_mem_singleton.2 ?off⟩⟩
  case plain => exact fun _ => trivial
  case up =>
    intro o
    cases o with
    | ok v => exact fun _ => trivial
    | error e =>
      by_cases counts : e.isError = true
      · simp only [if_pos counts]
        exact fun _ _ => trivial
      · simp only [if_neg counts]
        trivial
  case off => trivial

end GraphClient
