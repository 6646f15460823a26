import Mathlib.Data.List.Nodup
import Mathlib.Data.List.Perm.Subperm
import GraphClient.Client.Basic
import GraphClient.Proofs.Client.Posting
import GraphClient.Proofs.Json.RoundTrip
import GraphClient.Proofs.Rounding

/-!
# What a transport counts

Any number of posts share a pool, suspended and going on in any order.

* `Pooled.Stage`: where a post stands, as its wait shows it.
* `Pooled.Noted`: the counts are those of the posts that have handed their call over and of those
  that ended with an error that is counted. Every post keeps this (`Pooled.kept_counted`).
* `Pooled.post_counts`: so it is at every moment of every history, and every post that was answered
  ends with data or with an error about its address, unless an integer is too long to be read.
-/

namespace GraphClient

/-- The answers of an endpoint: there is always a next one, and all come from outside. -/
structure Supply (answers : List Exchange) : Prop where
  supplied : answers ≠ []
  external : ∀ ex ∈ answers, ex.answer.IsExternal

theorem Supply.next {answers : List Exchange} (h : Supply answers) :
    (World.nextAnswer answers).1.answer.IsExternal ∧ Supply (World.nextAnswer answers).2 := by
  cases answers with
  | nil => exact absurd rfl h.supplied
  | cons first rest =>
    have mine : first.answer.IsExternal := h.external first List.mem_cons_self
    cases rest with
    | nil => exact ⟨mine, h⟩
    | cons second rest =>
      exact ⟨mine, List.cons_ne_nil second rest,
        fun ex mem => h.external ex (List.mem_cons_of_mem first mem)⟩

namespace Pooled

variable {M : Type}

/-- A post, as a task of its own. -/
def posting (c : Call) : Flow M := post c.url c.headers c.body

/-- Where a post stands. -/
inductive Stage (asked : List Nat) (calls : List (Nat × Call)) (exchanges : List (Nat × Exchange))
    (t : Nat) (c : Call) : Wait (effects M) → Prop
  | unbegun : t ∉ calls.map Prod.fst → Stage asked calls exchanges t c (.start (posting c))
  | opening {k wait} : t ∉ calls.map Prod.fst → Routine.Opens (fun _ => handOver c) k →
      wait = .sleep k ∨ wait = .lock k → Stage asked calls exchanges t c wait
  | awaiting {k d ex start} : (t, ex) ∈ exchanges → ex.delay? = some d → ex.answer.IsExternal →
      k .resumed = finish c.url start (Endpoint.Answer.toExcept ex.answer) →
      k .cancelled = .perform (.trace "transport:cancelled") (fun _ => .fail .cancelled) →
      Stage asked calls exchanges t c (.sleep k)
  | cancelled : t ∈ asked → Stage asked calls exchanges t c (.over (.error .cancelled))
  | settled {ex o} : (t, ex) ∈ exchanges → Settles c.url ex.answer o →
      Stage asked calls exchanges t c (.over o)

/-- A post without a session has not begun, waits while one is opened, or was stopped before. -/
inductive Sessionless (c : Call) : Wait (effects M) → Prop
  | unbegun : Sessionless c (.start (posting c))
  | opening {k wait} : Routine.Opens (fun _ => handOver c) k → wait = .sleep k ∨ wait = .lock k →
      Sessionless c wait
  | stopped : Sessionless c (.over (.error .cancelled))

/-- A task has ended with an error that is counted. -/
def raisedCounted : Wait (effects M) → Bool
  | .over o => Outcome.isCounted o
  | _ => false

/-- What is counted and noted is about the posts. All of them stand where their waits show it, but
for the one that is running. -/
structure Noted (started : List Call) (asked : List Nat) (waits : List (Wait (effects M)))
    (running? : Option Nat) (n : Tally) : Prop where
  requests : n.requests = n.calls.length
  errors : n.errors = waits.countP raisedCounted
  own : ∀ t c, (t, c) ∈ n.calls → started[t]? = some c
  once : (n.calls.map Prod.fst).Nodup
  answered : n.exchanges.map Prod.fst = n.calls.map Prod.fst
  supply : Supply n.answers
  stage : ∀ t c wait, some t ≠ running? → started[t]? = some c → waits[t]? = some wait →
    Stage asked n.calls n.exchanges t c wait

/-- Every post has its task, and what is counted and noted is about them. -/
structure Counted (v : View Call (effects M) (World M × ClientNotes M)) : Prop where
  length : v.started.length = v.waits.length
  noted : Noted v.started v.asked v.waits none (tally v.world)

variable {started : List Call} {asked : List Nat} {waits : List (Wait (effects M))} {n : Tally}
  {t : Nat} {c : Call} {wait : Wait (effects M)}

namespace Noted

theorem run (h : Noted started asked waits none n) (t : Nat) :
    Noted started asked waits (some t) n :=
  { h with stage := fun t' c wait _ => h.stage t' c wait (Option.some_ne_none t') }

/-- The running post hands its call over. -/
theorem exchange (h : Noted started asked waits (some t) n) (mine : started[t]? = some c)
    (first : t ∉ n.calls.map Prod.fst) :
    Noted started asked waits (some t) (n.exchange t c (World.nextAnswer n.answers).1
      (World.nextAnswer n.answers).2) where
  requests := by simp only [Tally.exchange, h.requests, List.length_append, List.length_singleton]
  errors := h.errors
  own t' c' mem := by
    rcases List.mem_append.1 mem with old | new
    · exact h.own t' c' old
    · obtain ⟨rfl, rfl⟩ := Prod.mk.inj (List.mem_singleton.1 new)
      exact mine
  once := by
    simp only [Tally.exchange, List.map_append, List.map_cons, List.map_nil]
    exact h.once.append (List.nodup_singleton t) (List.disjoint_singleton.2 first)
  answered := by
    simp only [Tally.exchange, List.map_append, h.answered, List.map_cons, List.map_nil]
  supply := h.supply.next.2
  stage t' c' wait other mine' waits' := by
    have kept {ex : Exchange} (mem : (t', ex) ∈ n.exchanges) :
        (t', ex) ∈ n.exchanges ++ [(t, (World.nextAnswer n.answers).1)] :=
      List.mem_append_left _ mem
    have still (absent : t' ∉ n.calls.map Prod.fst) :
        t' ∉ (n.calls ++ [(t, c)]).map Prod.fst := by
      rw [List.map_append]
      refine fun mem => (List.mem_append.1 mem).elim absent fun new => other ?_
      rw [List.mem_singleton.1 new]
    cases h.stage t' c' wait other mine' waits' with
    | unbegun absent => exact .unbegun (still absent)
    | opening absent opens kind => exact .opening (still absent) opens kind
    | awaiting mem delay external resumed stops =>
      exact .awaiting (kept mem) delay external resumed stops
    | cancelled mem => exact .cancelled mem
    | settled mem settles => exact .settled (kept mem) settles

/-- The running post waits or ends. -/
theorem stop (h : Noted started asked waits (some t) n) {old : Wait (effects M)}
    (was : waits[t]? = some old) (unended : raisedCounted old = false) (mine : started[t]? = some c)
    (stage : Stage asked n.calls n.exchanges t c wait) :
    Noted started asked (waits.set t wait) none
      { n with errors := n.errors + (raisedCounted wait).toNat } where
  requests := h.requests
  errors := by
    obtain ⟨inside, rfl⟩ := List.getElem?_eq_some_iff.1 was
    simp only [h.errors, List.countP_set inside, unended, Bool.false_eq_true, if_false, Nat.sub_zero]
    cases raisedCounted wait <;> rfl
  own := h.own
  once := h.once
  answered := h.answered
  supply := h.supply
  stage t' c' wait' _ mine' waits' := by
    rcases getElem?_set_cases waits' with ⟨rfl, rfl⟩ | ⟨ne, old⟩
    · obtain rfl := Option.some.inj (mine.symm.trans mine')
      exact stage
    · exact h.stage t' c' wait' (fun same => ne (Option.some.inj same)) mine' old

theorem start (h : Noted started asked waits none n) (length : started.length = waits.length)
    (c : Call) : Noted (started ++ [c]) asked (waits ++ [.start (posting c)]) none n where
  requests := h.requests
  errors := by
    rw [h.errors, List.countP_append]
    rfl
  own t' c' mem := List.getElem?_append_left (List.getElem?_eq_some_iff.1 (h.own t' c' mem)).1 ▸
    h.own t' c' mem
  once := h.once
  answered := h.answered
  supply := h.supply
  stage t' c' wait' _ mine' waits' := by
    rcases getElem?_concat_cases mine' with old | ⟨rfl, rfl⟩
    · rw [List.getElem?_append_left (length ▸ (List.getElem?_eq_some_iff.1 old).1)] at waits'
      exact h.stage t' c' wait' (Option.some_ne_none t') old waits'
    · rw [length, List.getElem?_concat_length] at waits'
      obtain rfl := Option.some.inj waits'
      refine .unbegun fun mem => ?_
      obtain ⟨⟨t', c'⟩, mem, rfl⟩ := List.mem_map.1 mem
      exact Nat.lt_irrefl _ (List.getElem?_eq_some_iff.1 (h.own _ c' mem)).1

theorem ask (h : Noted started asked waits none n) (t : Nat) :
    Noted started (asked ++ [t]) waits none n :=
  { h with
    stage := fun t' c' wait' other mine' waits' => by
      cases h.stage t' c' wait' other mine' waits' with
      | unbegun absent => exact .unbegun absent
      | opening absent opens kind => exact .opening absent opens kind
      | awaiting mem delay external resumed stops =>
        exact .awaiting mem delay external resumed stops
      | cancelled mem => exact .cancelled (List.mem_append_left [t] mem)
      | settled mem settles => exact .settled mem settles }

end Noted

/-- The running post may stop where its wait shows where it stands. -/
theorem Counted.stop {v : View Call (effects M) (World M × ClientNotes M)} (h : Counted v)
    (noted : Noted v.started v.asked v.waits (some t) n) {old : Wait (effects M)}
    (was : v.waits[t]? = some old) (unended : raisedCounted old = false) (mine : v.started[t]? = some c)
    (stage : Stage v.asked n.calls n.exchanges t c wait) {world : World M × ClientNotes M}
    (same : tally world = { n with errors := n.errors + (raisedCounted wait).toNat }) :
    Counted { v with waits := v.waits.set t wait, world } where
  length := h.length.trans List.length_set.symm
  noted := by
    rw [same]
    exact noted.stop was unended mine stage

/-- Every post keeps what is counted right. -/
theorem kept_counted : Loop.Kept (Loop.noting World.handle) posting (Counted (M := M)) where
  start v c h := by
    refine ⟨?_, h.noted.start h.length c⟩
    simp only [List.length_append, h.length, List.length_singleton]
  ask v t h := ⟨h.length, h.noted.ask t⟩
  go v t wait signal r h was goes allowed := by
    obtain ⟨inside, -⟩ := List.getElem?_eq_some_iff.1 was
    obtain ⟨c, mine⟩ : ∃ c, v.started[t]? = some c :=
      ⟨_, List.getElem?_eq_getElem (h.length ▸ inside)⟩
    -- Until it has a session, the post has counted nothing.
    have opened (absent : t ∉ (tally v.world).calls.map Prod.fst) (unended : raisedCounted wait = false)
        {r' : Flow M} (quiet : r'.Quiet) :
        (r'.onValue fun _ => handOver c).Reaches (Loop.noting World.handle) t
          (fun wait world => Counted { v with waits := v.waits.set t wait, world }) v.world := by
      refine quiet.reaches (fun _ w same => ?_) fun k w same opens => ?_
      · have noted := (same ▸ h.noted.run t).exchange mine (same ▸ absent)
        have last : (t, (World.nextAnswer w.1.answers).1) ∈
            ((tally w).exchange t c (World.nextAnswer w.1.answers).1
              (World.nextAnswer w.1.answers).2).exchanges :=
          List.mem_append_right _ (List.mem_singleton_self _)
        have external := (same ▸ h.noted.supply).next.1
        refine reaches_handOver rfl external
          (fun d k start w' delay resumed stops same' => ?_) fun o w' settles same' => ?_
        · exact h.stop noted was unended mine (.awaiting last delay external resumed stops) same'
        · exact h.stop noted was unended mine (.settled last settles) same'
      · exact ⟨h.stop (h.noted.run t) was unended mine (.opening absent opens (.inl rfl)) same,
          h.stop (h.noted.run t) was unended mine (.opening absent opens (.inr rfl)) same⟩
    cases h.noted.stage t c wait (Option.some_ne_none t) mine was with
    | unbegun absent =>
      cases goes with
      | start =>
        rw [posting, post_eq]
        exact opened absent rfl quiet_openSession
      | unbegun => exact h.stop (h.noted.run t) was rfl mine (.cancelled (allowed rfl)) rfl
    | @opening k _ absent opens kind =>
      have unended : raisedCounted wait = false := by rcases kind with rfl | rfl <;> rfl
      obtain rfl : k signal = r := by rcases kind with rfl | rfl <;> cases goes <;> rfl
      cases signal with
      | resumed =>
        obtain ⟨r, quiet, resumed⟩ := opens.resumed
        rw [resumed]
        exact opened absent unended quiet
      | cancelled =>
        obtain ⟨r, stops, cancelled⟩ := opens.cancelled
        rw [cancelled]
        exact stops.reaches
          (h.stop (h.noted.run t) was unended mine (.cancelled (allowed rfl)) rfl)
    | awaiting mem delay external resumed stops =>
      cases goes
      cases signal with
      | resumed =>
        rw [resumed]
        exact reaches_finish external fun o w settles same =>
          h.stop (h.noted.run t) was rfl mine (.settled mem settles) same
      | cancelled =>
        rw [stops]
        exact h.stop (h.noted.run t) was rfl mine (.cancelled (allowed rfl))
          (tally_of_quiet (by trivial) t v.world)
    | cancelled mem => cases goes
    | settled mem settles => cases goes

/-! ## Every history -/

theorem calls_of_exchanges (h : Noted started asked waits none n) {ex : Exchange}
    (mem : (t, ex) ∈ n.exchanges) : t ∈ n.calls.map Prod.fst :=
  h.answered ▸ List.mem_map.2 ⟨_, mem, rfl⟩

/-- A post that has not handed its call over has no session. -/
theorem Noted.sessionless (h : Noted started asked waits none n) (mine : started[t]? = some c)
    (waiting : waits[t]? = some wait) (absent : t ∉ n.calls.map Prod.fst) : Sessionless c wait := by
  cases h.stage t c wait (Option.some_ne_none t) mine waiting with
  | unbegun _ => exact .unbegun
  | opening _ opens kind => exact .opening opens kind
  | cancelled _ => exact .stopped
  | awaiting mem _ _ _ _ => exact absurd (calls_of_exchanges h mem) absent
  | settled mem _ => exact absurd (calls_of_exchanges h mem) absent

/-- Only a post that has a session raises an error that is counted. -/
theorem Noted.errors_le (h : Noted started asked waits none n)
    (length : started.length = waits.length) : n.errors ≤ n.requests := by
  let failed := (waits.zipIdx.filter fun wait => raisedCounted wait.1).map Prod.snd
  have counted : waits.countP raisedCounted = failed.length := by
    rw [List.length_map, ← List.countP_eq_length_filter]
    conv_lhs => rw [← List.zipIdx_map_fst 0 waits]
    exact List.countP_map
  have apart : failed.Nodup := by
    refine (List.filter_sublist.map Prod.snd).nodup ?_
    rw [List.zipIdx_map_snd]
    exact List.nodup_range'
  have inside : failed ⊆ n.calls.map Prod.fst := by
    intro t mem
    obtain ⟨⟨wait, t⟩, listed, rfl⟩ := List.mem_map.1 mem
    obtain ⟨placed, raised⟩ := List.mem_filter.1 listed
    have waiting : waits[t]? = some wait := List.mem_zipIdx_iff_getElem?.1 placed
    obtain ⟨c, mine⟩ : ∃ c, started[t]? = some c :=
      ⟨_, List.getElem?_eq_getElem (length ▸ (List.getElem?_eq_some_iff.1 waiting).1)⟩
    cases h.stage t c wait (Option.some_ne_none t) mine waiting with
    | settled answered _ => exact calls_of_exchanges h answered
    | opening _ _ kind => rcases kind with rfl | rfl <;> cases raised
    | _ => cases raised
  calc n.errors = failed.length := h.errors.trans counted
    _ ≤ (n.calls.map Prod.fst).length := (apart.subperm inside).length_le
    _ = n.requests := by rw [List.length_map, h.requests]

theorem initial_counted {world : World M}
    (fresh : world.pool.requestCount = 0 ∧ world.pool.errorCount = 0) (supply : Supply world.answers) :
    Counted (M := M) ⟨[], [], (world, []), []⟩ where
  length := rfl
  noted :=
    { requests := fresh.1
      errors := fresh.2
      own := fun _ _ mem => absurd mem List.not_mem_nil
      once := List.nodup_nil
      answered := rfl
      supply := supply
      stage := fun _ _ _ _ mine => absurd mine (Option.some_ne_none _).symm }

/-- The reported share of errors is a number between zero and one. -/
theorem errorRate_share {p : Pool} (le : p.errorCount ≤ p.requestCount) :
    ∃ q, p.errorRate.toRat? = some q ∧ 0 ≤ q ∧ q ≤ 1 :=
  Binary64.ofRatio_share (le.trans (le_max_left _ _))
    (Nat.lt_of_lt_of_le Nat.one_pos (le_max_right _ _))

/-- A post that was answered has ended, or waits for the delay of its answer and ends when it is
woken. -/
theorem over_of_answered {l : ClientLoop M} {notes : ClientNotes M} {ex : Exchange}
    (counted : Counted ⟨started, l.waits, (l.world, notes), asked⟩) (orderly : l.Orderly asked)
    (mine : started[t]? = some c) (mem : (t, ex) ∈ notes.exchanges) :
    l.isOver t = true ∨
      ∃ d, ex.delay? = some d ∧ (Loop.runJob World.handle (.wake t) l).isOver t = true := by
  obtain ⟨wait, waiting⟩ : ∃ wait, l.waits[t]? = some wait :=
    ⟨_, List.getElem?_eq_getElem (counted.length ▸ (List.getElem?_eq_some_iff.1 mine).1)⟩
  have handed : t ∈ (tally (l.world, notes)).calls.map Prod.fst :=
    calls_of_exchanges counted.noted mem
  have isOver {l : ClientLoop M} {o : Outcome} (waiting : l.waits[t]? = some (.over o)) :
      l.isOver t = true := by
    rw [Loop.waits, List.getElem?_map] at waiting
    obtain ⟨task, e, waits⟩ := Option.map_eq_some_iff.1 waiting
    simp only [Loop.isOver, Loop.outcome?, e, Option.bind_some, Task.outcome?, waits,
      Option.isSome_some]
  cases counted.noted.stage t c wait (Option.some_ne_none t) mine waiting with
  | unbegun absent => exact absurd handed absent
  | opening absent _ _ => exact absurd handed absent
  | cancelled _ => exact .inl (isOver waiting)
  | settled _ _ => exact .inl (isOver waiting)
  | @awaiting k d ex' start mem' delay external resumed stops =>
    obtain rfl : ex = ex' := by
      have once : ((tally (l.world, notes)).exchanges.map Prod.fst).Nodup :=
        counted.noted.answered ▸ counted.noted.once
      exact congrArg Prod.snd (List.inj_on_of_nodup_map once mem mem' rfl)
    refine .inr ⟨d, delay, ?_⟩
    -- However it is woken, the post ends at once.
    have ends (signal : Wake) : (k signal).Reaches World.handle t (fun wait _ => ∃ o, wait = .over o)
        l.world := by
      refine Loop.reaches_of_noting (w := (l.world, notes)) ?_
      cases signal with
      | resumed =>
        rw [resumed]
        exact reaches_finish external fun o _ _ _ => ⟨o, rfl⟩
      | cancelled =>
        rw [stops]
        exact ⟨_, rfl⟩
    obtain ⟨-, ⟨⟨o, ended⟩, -⟩ | ⟨w, waits, o, rfl⟩⟩ := orderly.wake waiting fun signal r goes _ => by
      cases goes
      exact ends signal
    · cases ended
    · refine isOver (o := o) ?_
      rw [waits, List.getElem?_set_self (List.getElem?_eq_some_iff.1 waiting).1]

theorem raisedCounted_wait (task : Task (effects M)) :
    raisedCounted task.wait = task.outcome?.any Outcome.isCounted := by
  unfold Task.outcome?
  cases task.wait <;> rfl

/-- The errors that are counted are of two kinds. -/
theorem countP_isCounted (tasks : List (Task (effects M))) :
    tasks.countP (fun post => post.outcome?.any Outcome.isCounted) =
      tasks.countP (fun post => post.outcome?.any Outcome.isOwnError) +
        tasks.countP (fun post => post.outcome?.any Outcome.isValueError) := by
  have kinds (task : Task (effects M)) : (task.outcome?.any Outcome.isCounted).toNat =
      (task.outcome?.any Outcome.isOwnError).toNat +
        (task.outcome?.any Outcome.isValueError).toNat := by
    cases task.outcome? with
    | none => rfl
    | some o =>
      show (Outcome.isCounted o).toNat = (Outcome.isOwnError o).toNat + (Outcome.isValueError o).toNat
      unfold Outcome.isCounted Outcome.isOwnError Outcome.isValueError
      repeat' split
      all_goals first | rfl | simp_all
  induction tasks with
  | nil => rfl
  | cons task tasks ih =>
    have here := kinds task
    simp only [List.countP_cons, ih]
    revert here
    cases task.outcome?.any Outcome.isCounted <;> cases task.outcome?.any Outcome.isOwnError <;>
      cases task.outcome?.any Outcome.isValueError <;> simp <;> omega

/-- After every history of posts over a new transport, whatever the endpoint answers from outside:

* The requests counted are the number of the posts that have handed their call over, each once. The
  others have no session (`Sessionless`). The errors counted are the number of the posts that have
  ended with an error of this library, and of those that have ended with the failure of reading an
  integer. They are no more than the requests, and the share that is reported lies between zero and
  one.
* A post that has ended was asked to stop and ended as cancelled, or it was answered and ended as its
  answer says (`Settles`): with the data of a response, with an error of the transport or of the
  endpoint that carries the address and has the handled fault as its cause, if there was one, with
  the failure of reading an integer of the response that is too long, or with a fault that is not
  handled.
* A post that was answered has ended, or waits for the delay of its answer and ends when it is next
  woken. -/
theorem post_counts (world : World M)
    (fresh : world.pool.requestCount = 0 ∧ world.pool.errorCount = 0) (supply : Supply world.answers)
    (moves : List (Move Call)) :
    let l : ClientLoop M := (Loop.initial world).after World.handle posting moves
    let posts := moves.filterMap Move.started?
    let notes : ClientNotes M := Loop.notes World.handle posting world moves
    ((notes.calls.map Prod.fst).Nodup ∧ (∀ t c, (t, c) ∈ notes.calls → posts[t]? = some c) ∧
      (∀ t c wait, posts[t]? = some c → l.waits[t]? = some wait → t ∉ notes.calls.map Prod.fst →
        Sessionless c wait) ∧
      l.world.pool.requestCount = notes.calls.length ∧
      l.world.pool.errorCount = l.tasks.countP (fun post => post.outcome?.any Outcome.isOwnError) +
        l.tasks.countP (fun post => post.outcome?.any Outcome.isValueError) ∧
      l.world.pool.errorCount ≤ l.world.pool.requestCount ∧
      ∃ rate q, ("error_rate", .float rate) ∈ l.world.pool.metrics ∧
        rate.toRat? = some q ∧ 0 ≤ q ∧ q ≤ 1) ∧
    (∀ t c o, posts[t]? = some c → l.outcome? t = some o →
      o = .error .cancelled ∧ t ∈ moves.filterMap Move.cancelled? ∨
        ∃ ex, (t, ex) ∈ notes.exchanges ∧ Settles c.url ex.answer o) ∧
    ∀ t c ex, posts[t]? = some c → (t, ex) ∈ notes.exchanges →
      l.isOver t = true ∨
        ∃ d, ex.delay? = some d ∧ (Loop.runJob World.handle (.wake t) l).isOver t = true := by
  intro l posts notes
  obtain ⟨orderly, counted⟩ := kept_counted.after_notes (initial_counted fresh supply) moves
  have le : l.world.pool.errorCount ≤ l.world.pool.requestCount :=
    counted.noted.errors_le counted.length
  refine ⟨⟨counted.noted.once, counted.noted.own,
    fun t c wait mine waiting absent => counted.noted.sessionless mine waiting absent,
    counted.noted.requests, ?_, le, ?_⟩, ?_, ?_⟩
  · calc l.world.pool.errorCount = l.waits.countP raisedCounted := counted.noted.errors
      _ = l.tasks.countP (raisedCounted ∘ Task.wait) := List.countP_map
      _ = l.tasks.countP (fun post => post.outcome?.any Outcome.isCounted) :=
        congrArg (List.countP · l.tasks) (funext raisedCounted_wait)
      _ = _ := countP_isCounted l.tasks
  · obtain ⟨q, value, share⟩ := errorRate_share le
    exact ⟨_, q, .tail _ (.tail _ (.head _)), value, share⟩
  · intro t c o mine ended
    cases counted.noted.stage t c _ (Option.some_ne_none t) mine (Loop.waits_of_outcome? ended) with
    | opening _ _ kind => rcases kind with ended | ended <;> cases ended
    | cancelled mem => exact .inl ⟨rfl, mem⟩
    | settled mem settles => exact .inr ⟨_, mem, settles⟩
  · intro t c ex mine mem
    exact over_of_answered counted orderly mine mem

/-- The endpoint lets the first call run into a time limit and is not available for the second one.
It takes a second to open a session. -/
def unreliable : World Middleware :=
  Client.make (.text "https://api.example.com/graphql") [] .pooled .default
    [⟨none, .refuse (.fault (.general .timeout none))⟩, ⟨some 1, .respond ⟨503, "", []⟩⟩]
    (.scripted (some 1))

/-- Two posts; the second one has to wait until the first one has opened the session, and is still
waiting for its answer in the end. -/
def overlapping : List (Move Call) :=
  let call : Call := ⟨.text "https://api.example.com/graphql", [], "{}"⟩
  [.start call, .start call, .job 0, .job 0, .tick 1, .fire 0, .job 0, .job 0]

theorem post_counts_overlapping :
    (unreliable.pool.requestCount = 0 ∧ unreliable.pool.errorCount = 0) ∧
    Supply unreliable.answers ∧
    let l : ClientLoop Middleware :=
      (Loop.initial unreliable).after World.handle posting overlapping
    let notes : ClientNotes Middleware := Loop.notes World.handle posting unreliable overlapping
    l.world.pool.requestCount = 2 ∧ l.world.pool.errorCount = 1 ∧
      l.world.pool.requestCount = notes.calls.length ∧
      l.world.pool.errorCount = l.tasks.countP (fun post => post.outcome?.any Outcome.isOwnError) +
        l.tasks.countP (fun post => post.outcome?.any Outcome.isValueError) := by
  have fresh : unreliable.pool.requestCount = 0 ∧ unreliable.pool.errorCount = 0 := ⟨rfl, rfl⟩
  have supply : Supply unreliable.answers := by
    refine ⟨List.cons_ne_nil _ _, fun ex mem => ?_⟩
    rcases List.mem_cons.1 mem with rfl | mem
    · trivial
    · rw [List.mem_singleton.1 mem]
      exact fun _ header => absurd header List.not_mem_nil
  obtain ⟨⟨-, -, -, requests, errors, -⟩, -⟩ := post_counts unreliable fresh supply overlapping
  exact ⟨fresh, supply, by decide +kernel, by decide +kernel, requests, errors⟩

/-- A transport whose endpoint gives an answer at once. -/
def answering (r : Response) : World Middleware :=
  Client.make (.text "https://api.example.com/graphql") [] .pooled .default [⟨none, .respond r⟩]
    .network

/-- One post, which runs to its end. -/
def onePost : List (Move Call) :=
  [.start ⟨.text "https://api.example.com/graphql", [], "{}"⟩, .job 0]

theorem exec_read {url : Value} {start : Rat} {r : Response} {e : Failure}
    (data : r.data url = .error e) (l : ClientLoop Middleware) :
    ∃ logs, Loop.exec World.handle 0 0 (read url start r) l =
      Loop.settle
        { l with world := { l.world with logs, pool := l.world.pool.countError } } 0 (.error e) := by
  rw [read, data]
  exact ⟨_, rfl⟩

/-- A post ends with the error that its response stands for, and counts it. -/
theorem after_onePost {r : Response} {e : Failure}
    (data : r.data (.text "https://api.example.com/graphql") = .error e) :
    let l : ClientLoop Middleware := (Loop.initial (answering r)).after World.handle posting onePost
    l.outcome? 0 = some (.error e) ∧ l.world.pool.errorCount = 1 ∧
      l.tasks.countP (fun post => post.outcome?.any Outcome.isOwnError) =
        if Outcome.isOwnError (.error e) then 1 else 0 := by
  intro l
  obtain ⟨l₀, handed, ⟨task, tasks, unraced⟩, count⟩ : ∃ l₀ : ClientLoop Middleware,
      l = Loop.exec World.handle 0 0 (read (.text "https://api.example.com/graphql") 0 r) l₀ ∧
      (∃ task, l₀.tasks = [task] ∧ task.racer? = none) ∧ l₀.world.pool.errorCount = 0 :=
    ⟨_, rfl, ⟨_, rfl, rfl⟩, rfl⟩
  obtain ⟨logs, ended⟩ := exec_read data l₀
  rw [handed, ended]
  simp [Loop.settle, tasks, unraced, Loop.outcome?, Loop.updateTask, Pool.countError, count,
    Task.outcome?, List.countP_cons]

/-- A response of success with nothing but an integer, of more digits than are read. -/
def longNumber : Response := ⟨200, toString ((10 : Int) ^ 4300), []⟩

/-- The failure of reading an integer is counted, and is none of the errors of this library. -/
theorem post_counts_longNumber : Supply (answering longNumber).answers ∧
    let l : ClientLoop Middleware :=
      (Loop.initial (answering longNumber)).after World.handle posting onePost
    (∃ digits, l.outcome? 0 = some (.error (.integerNotRead digits))) ∧
      l.world.pool.errorCount = 1 ∧
      l.tasks.countP (fun post => post.outcome?.any Outcome.isOwnError) = 0 := by
  have supply : Supply (answering longNumber).answers := by
    refine ⟨List.cons_ne_nil _ _, fun ex mem => ?_⟩
    rw [List.mem_singleton.1 mem]
    exact fun _ header => absurd header List.not_mem_nil
  have long := Json.load_tooManyDigits Json.not_fits_tenPow
  obtain ⟨ended, counted, own⟩ := after_onePost (longNumber.data_of_longInteger rfl long _)
  exact ⟨supply, ⟨_, ended⟩, counted, own⟩

end Pooled

end GraphClient
