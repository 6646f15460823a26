import Mathlib.Data.List.Count
import Mathlib.Order.Nat
import GraphClient.Proofs.Logging.Setup

/-!
# Whose handlers are on the log

A `Ledger` is a manager with its log, the handlers that it ever installed, and those among them that
it displaced: a set-up that begins with handlers of a failed one puts others under their names.

* `LogManager.Call.Effect` says what any call does to the handlers (`LogManager.Call.effect`).
* `Ledger.Sound`: of the handlers ever installed exactly the known and the displaced ones are
  attached, once each; all others are detached and closed. Every call keeps this, and so does
  whatever others do (`Ledger.Sound.after`, `Ledger.Sound.apart`).
* `Ledger.attached_of_reaches`: so it is after every history. The manager knows all of its handlers
  that are attached exactly if none was displaced.
-/

namespace GraphClient

/-! ## Closed handlers -/

namespace LogSystem

/-- Whether the handler at a place is closed. -/
def closed? (s : LogSystem) (n : Nat) : Option Bool := (s.handlers[n]?).map (·.isClosed)

/-- What a call does to handlers: those that are gone are closed and detached, new ones are
attached behind the others, and none is touched that is not named. -/
structure Exchange (touched gone : List Nat) (count : Nat) (s s' : LogSystem) : Prop where
  length : s'.handlers.length = s.handlers.length + count
  attached : s'.attached = s.attached.diff gone ++ List.range' s.handlers.length count
  untouched : ∀ n < s.handlers.length, n ∉ touched → s'.handlers[n]? = s.handlers[n]?
  closed : ∀ n < s.handlers.length, s'.closed? n = if n ∈ gone then some true else s.closed? n
  opened : ∀ n, s.handlers.length ≤ n → n < s.handlers.length + count → s'.closed? n = some false

end LogSystem

namespace LogSystem.Exchange

variable {touched gone : List Nat} {count : Nat} {s s' s'' : LogSystem}

/-- Nothing is exchanged where handlers keep all that is asked for here. -/
theorem ofSame (attached : s'.attached = s.attached)
    (length : s'.handlers.length = s.handlers.length)
    (untouched : ∀ n < s.handlers.length, n ∉ touched → s'.handlers[n]? = s.handlers[n]?)
    (closed : ∀ n < s.handlers.length, s'.closed? n = s.closed? n) :
    Exchange touched [] 0 s s' where
  length := length
  attached := by rw [attached, List.diff_nil, List.range'_zero, List.append_nil]
  untouched := untouched
  closed n there := by rw [closed n there, if_neg List.not_mem_nil]
  opened n low high := absurd high (Nat.not_lt.2 low)

/-- Open handlers are attached after an exchange without new ones. -/
theorem added (h : Exchange touched gone 0 s s') {new : List LogHandler}
    (handlers : s''.handlers = s'.handlers ++ new)
    (attached : s''.attached = s'.attached ++ List.range' s'.handlers.length new.length)
    (unclosed : ∀ h ∈ new, h.isClosed = false) : Exchange touched gone new.length s s'' where
  length := by rw [handlers, List.length_append, h.length, Nat.add_zero]
  attached := by
    rw [attached, h.attached, h.length, List.range'_zero, List.append_nil, Nat.add_zero]
  untouched n there other := by
    rw [handlers, List.getElem?_append_left (by rw [h.length]; exact there),
      h.untouched n there other]
  closed n there := by
    rw [← h.closed n there, closed?, closed?, handlers,
      List.getElem?_append_left (by rw [h.length]; exact there)]
  opened n low high := by
    have there : n - s'.handlers.length < new.length := by
      rw [h.length]
      omega
    rw [closed?, handlers, List.getElem?_append_right (by rw [h.length]; exact low),
      List.getElem?_eq_getElem there, Option.map_some, unclosed _ (List.getElem_mem there)]

/-- How often a handler that was there is attached afterwards. -/
theorem count_of_lt (h : Exchange touched gone count s s') {n : Nat}
    (there : n < s.handlers.length) : s'.attached.count n = s.attached.count n - gone.count n := by
  have old : (List.range' s.handlers.length count).count n = 0 :=
    List.count_eq_zero.2 fun mem => absurd (List.mem_range'_1.1 mem).1 (Nat.not_le.2 there)
  rw [h.attached, List.count_append, old, List.count_diff, Nat.add_zero]

/-- A new handler is attached once. -/
theorem count_of_new (h : Exchange touched gone count s s')
    (attached_lt : ∀ n ∈ s.attached, n < s.handlers.length) {n : Nat}
    (low : s.handlers.length ≤ n) (high : n < s.handlers.length + count) :
    s'.attached.count n = 1 := by
  have fresh : (s.attached.diff gone).count n = 0 := List.count_eq_zero.2 fun mem =>
    absurd (attached_lt n (List.diff_subset _ _ mem)) (Nat.not_lt.2 low)
  have once : (List.range' s.handlers.length count).count n = 1 :=
    List.count_eq_one_of_mem List.nodup_range' (List.mem_range'_1.2 ⟨low, high⟩)
  rw [h.attached, List.count_append, fresh, once]

theorem attached_lt (h : Exchange touched gone count s s')
    (attached_lt : ∀ n ∈ s.attached, n < s.handlers.length) :
    ∀ n ∈ s'.attached, n < s'.handlers.length := by
  intro n mem
  rw [h.attached, List.mem_append] at mem
  rw [h.length]
  rcases mem with mem | mem
  · exact Nat.lt_add_right count (attached_lt n (List.diff_subset _ _ mem))
  · exact (List.mem_range'_1.1 mem).2

end LogSystem.Exchange

/-! ## Changing handlers at some places -/

section Modify

variable (f : LogHandler → LogHandler) (ns : List Nat) (hs : List LogHandler)

theorem length_foldl_modify : (ns.foldl (fun hs n => hs.modify n f) hs).length = hs.length := by
  induction ns generalizing hs with
  | nil => rfl
  | cons n ns ih => rw [List.foldl_cons, ih, List.length_modify]

theorem getElem?_foldl_modify_of_notMem {n : Nat} (other : n ∉ ns) :
    (ns.foldl (fun hs n => hs.modify n f) hs)[n]? = hs[n]? := by
  induction ns generalizing hs with
  | nil => rfl
  | cons m ns ih =>
    rw [List.mem_cons, not_or] at other
    rw [List.foldl_cons, ih _ other.2, List.getElem?_modify]
    simp only [if_neg (Ne.symm other.1), Option.map_eq_map, Option.map_id_fun', id_eq]

/-- A field that the change keeps is the same at every place. -/
theorem map_getElem?_foldl_modify {α : Type} (g : LogHandler → α) (same : ∀ h, g (f h) = g h)
    (n : Nat) : ((ns.foldl (fun hs n => hs.modify n f) hs)[n]?).map g = (hs[n]?).map g := by
  induction ns generalizing hs with
  | nil => rfl
  | cons m ns ih =>
    rw [List.foldl_cons, ih, List.getElem?_modify]
    cases hs[n]? with
    | none => rfl
    | some h =>
      simp only [Option.map_eq_map, Option.map_some]
      split
      · rw [same]
      · rfl

/-- A field that the change sets is set at every place named. -/
theorem map_getElem?_foldl_modify_of_mem {α : Type} (g : LogHandler → α) {x : α}
    (sets : ∀ h, g (f h) = x) {n : Nat} (mem : n ∈ ns) (there : n < hs.length) :
    ((ns.foldl (fun hs n => hs.modify n f) hs)[n]?).map g = some x := by
  induction ns generalizing hs with
  | nil => cases mem
  | cons m ns ih =>
    rw [List.foldl_cons]
    by_cases later : n ∈ ns
    · exact ih _ later (by rwa [List.length_modify])
    · have here : m = n := ((List.mem_cons.1 mem).resolve_right later).symm
      rw [getElem?_foldl_modify_of_notMem f ns _ later, List.getElem?_modify,
        List.getElem?_eq_getElem there]
      simp only [if_pos here, Option.map_eq_map, Option.map_some, sets]

end Modify

namespace LogManager

/-! ## What a call does to the handlers -/

/-- The handlers that a call loses sight of: a set-up that begins with handlers but not configured
puts others under their names. -/
def Call.displaced (before after : LogManager) : Call → List Nat
  | .setUp _ => if before.isConfigured then [] else before.places.filter (· ∉ after.places)
  | _ => []

/-- What a call does to the handlers of its manager, and what the manager knows afterwards. -/
structure Call.Effect (c : Call) (st st' : LogManager × LogSystem) (gone : List Nat) (count : Nat) :
    Prop extends LogSystem.Exchange st.1.places gone count st.2 st'.2 where
  mine : ∀ n ∈ gone, n ∈ st.1.places
  known : ∀ n ∈ st'.1.places, (n ∈ st.1.places ∧ n ∉ gone) ∨
    (st.2.handlers.length ≤ n ∧ n < st.2.handlers.length + count)
  fresh : ∀ n, st.2.handlers.length ≤ n → n < st.2.handlers.length + count → n ∈ st'.1.places
  displaced : ∀ n, n ∈ c.displaced st.1 st'.1 ↔ n ∈ st.1.places ∧ n ∉ gone ∧ n ∉ st'.1.places

/-- Taking handlers away closes and detaches them. -/
theorem exchange_cleaned (st : LogManager × LogSystem) :
    LogSystem.Exchange st.1.places st.1.places 0 st.2 (cleaned st).2 := by
  rw [cleaned, foldl_detach]
  refine ⟨length_foldl_modify .., ?_, fun n _ other => getElem?_foldl_modify_of_notMem _ _ _ other,
    fun n there => ?_, fun n low high => absurd high (by omega)⟩
  · rw [List.range'_zero, List.append_nil, List.diff_eq_foldl]
  · simp only [LogSystem.closed?]
    split
    · rename_i mem
      exact map_getElem?_foldl_modify_of_mem (fun h => { h with isClosed := true }) _ _
        (·.isClosed) (fun _ => rfl) mem there
    · rename_i other
      rw [getElem?_foldl_modify_of_notMem _ _ _ other]

/-- What is left when a set-up begins. -/
theorem exchange_cleared (st : LogManager × LogSystem) :
    LogSystem.Exchange st.1.places (if st.1.isConfigured then st.1.places else []) 0 st.2
      (cleared st).2 := by
  unfold cleared
  split
  · exact exchange_cleaned st
  · exact .ofSame rfl rfl (fun _ _ _ => rfl) fun _ _ => rfl

/-- What a set-up knows afterwards: what it installed, and what it did not replace. -/
theorem places_setUp (settings : LoggingSettings) (st : LogManager × LogSystem) :
    (∀ n ∈ (run (setUp settings) st).2.1.places, n ∈ (cleared st).1.places ∨
      n ∈ List.range' (cleared st).2.handlers.length
        (plan settings st.2.showsColors st.2.files).handlers.length) ∧
    ∀ n ∈ List.range' (cleared st).2.handlers.length
        (plan settings st.2.showsColors st.2.files).handlers.length,
      n ∈ (run (setUp settings) st).2.1.places := by
  have follows := setUp_follows settings st
  have names := (plan_handlers settings st.2.showsColors st.2.files).1
  rw [places, follows.named, ← map_snd_numbered]
  refine ⟨fun n mem => Pairs.mem_values_merge mem, fun n mem => ?_⟩
  exact Pairs.mem_values_merge_of_mem (by rw [map_fst_numbered]; exact names.nodup (by decide)) mem

namespace Call

theorem effect_cleanUp (st : LogManager × LogSystem) :
    ∃ gone count, Effect .cleanUp st (Call.cleanUp.run st).2 gone count := by
  simp only [Call.run, run_cleanUp]
  exact ⟨st.1.places, 0, exchange_cleaned st, fun _ mem => mem,
    fun n mem => absurd mem List.not_mem_nil,
    fun n low high => absurd high (Nat.not_lt.2 low),
    fun n => ⟨fun mem => absurd mem List.not_mem_nil, fun all => absurd all.1 all.2.1⟩⟩

theorem effect_setLevel (level : LogLevel) (component? : Option String)
    (st : LogManager × LogSystem) :
    ∃ gone count, Effect (.setLevel level component?) st
      ((Call.setLevel level component?).run st).2 gone count := by
  simp only [Call.run, run_setLevel]
  refine ⟨[], 0, .ofSame rfl (length_foldl_modify ..) (fun n _ other => ?_) fun n _ => ?_,
    fun n mem => absurd mem List.not_mem_nil, fun n mem => .inl ⟨mem, List.not_mem_nil⟩,
    fun n low high => absurd high (Nat.not_lt.2 low),
    fun n => ⟨fun mem => absurd mem List.not_mem_nil, fun all => absurd all.1 all.2.2⟩⟩
  · refine getElem?_foldl_modify_of_notMem _ _ _ ?_
    split
    · exact other
    · exact List.not_mem_nil
  · exact map_getElem?_foldl_modify (fun h => { h with level := level.number }) _ _ (·.isClosed)
      (fun _ => rfl) n

theorem effect_setUp (settings : LoggingSettings) (st : LogManager × LogSystem) :
    ∃ gone count, Effect (.setUp settings) st ((Call.setUp settings).run st).2 gone count := by
  have follows := setUp_follows settings st
  have unclosed := (plan_handlers settings st.2.showsColors st.2.files).2
  have before := exchange_cleared st
  have length := before.length
  obtain ⟨known, fresh⟩ := places_setUp settings st
  rw [Nat.add_zero] at length
  rw [length] at known fresh
  have kept : (cleared st).1.places = if st.1.isConfigured then [] else st.1.places := by
    unfold cleared
    split <;> rfl
  rw [kept] at known
  -- Where nothing was cleared away, handlers of before stay attached though others get their names.
  refine ⟨_, _, before.added follows.handlers ?_ ?_, ?_, ?_, ?_, ?_⟩
  · rw [List.length_map]
    exact follows.attached
  · intro h mem
    obtain ⟨pair, there, rfl⟩ := List.mem_map.1 mem
    exact (unclosed pair there).2
  · intro n mem
    split at mem
    · exact mem
    · cases mem
  · intro n mem
    rw [List.length_map, ← List.mem_range'_1]
    refine (known n mem).imp_left fun mem => ?_
    split at mem
    · cases mem
    · rename_i unconfigured
      rw [if_neg unconfigured]
      exact ⟨mem, List.not_mem_nil⟩
  · intro n low high
    rw [List.length_map] at high
    exact fresh n (List.mem_range'_1.2 ⟨low, high⟩)
  · intro n
    simp only [displaced]
    split
    · exact ⟨fun mem => absurd mem List.not_mem_nil, fun all => absurd all.1 all.2.1⟩
    · rw [List.mem_filter, decide_eq_true_iff]
      exact and_congr_right fun _ => (and_iff_right List.not_mem_nil).symm

/-- Every call takes away all of its manager's handlers or none, and attaches those that the manager
knows from then on. -/
theorem effect (c : Call) (st : LogManager × LogSystem) :
    ∃ gone count, c.Effect st (c.run st).2 gone count :=
  match c with
  | .setUp settings => effect_setUp settings st
  | .setLevel level component? => effect_setLevel level component? st
  | .cleanUp => effect_cleanUp st

end Call

end LogManager

/-! ## Ledgers -/

/-- A manager and its log, with the places of the handlers that it ever installed, and of those
among them that it displaced. -/
structure Ledger where
  manager : LogManager
  system : LogSystem
  installed : List Nat
  displaced : List Nat

namespace Ledger

/-- A manager that has done nothing yet, on a log. -/
def start (s : LogSystem) : Ledger := ⟨.initial, s, [], []⟩

/-- A call, however it ends: whatever handlers are new are the manager's. -/
def after (l : Ledger) (c : LogManager.Call) : Ledger :=
  let st := (c.run (l.manager, l.system)).2
  { manager := st.1
    system := st.2
    installed := l.installed ++ List.range' l.system.handlers.length
      (st.2.handlers.length - l.system.handlers.length)
    displaced := l.displaced ++ c.displaced l.manager st.1 }

/-- Of the handlers ever installed exactly the known and the displaced ones are attached. -/
structure Sound (l : Ledger) : Prop where
  attached_lt : ∀ n ∈ l.system.attached, n < l.system.handlers.length
  installed_lt : ∀ n ∈ l.installed, n < l.system.handlers.length
  known : ∀ n ∈ l.manager.places, n ∈ l.installed
  displaced : ∀ n ∈ l.displaced, n ∈ l.installed ∧ n ∉ l.manager.places
  live : ∀ n ∈ l.installed, n ∈ l.manager.places ∨ n ∈ l.displaced →
    l.system.attached.count n = 1 ∧ l.system.closed? n = some false
  dead : ∀ n ∈ l.installed, n ∉ l.manager.places → n ∉ l.displaced →
    l.system.attached.count n = 0 ∧ l.system.closed? n = some true

theorem sound_start {s : LogSystem} (attached_lt : ∀ n ∈ s.attached, n < s.handlers.length) :
    (start s).Sound :=
  ⟨attached_lt, nofun, nofun, nofun, nofun, nofun⟩

section Step

variable {l : Ledger} {c : LogManager.Call} {gone : List Nat} {count : Nat}
  (effect : c.Effect (l.manager, l.system) (c.run (l.manager, l.system)).2 gone count)

include effect

theorem mem_installed_after (n : Nat) : n ∈ (l.after c).installed ↔ n ∈ l.installed ∨
    (l.system.handlers.length ≤ n ∧ n < l.system.handlers.length + count) := by
  rw [after, List.mem_append, effect.length, Nat.add_sub_cancel_left, List.mem_range'_1]

theorem mem_displaced_after (n : Nat) : n ∈ (l.after c).displaced ↔ n ∈ l.displaced ∨
    (n ∈ l.manager.places ∧ n ∉ gone ∧ n ∉ (l.after c).manager.places) := by
  rw [after, List.mem_append, effect.displaced]

/-- What was known or displaced stays so, unless it is gone. -/
theorem Sound.live_after (h : l.Sound) {n : Nat} (mine : n ∈ l.installed) :
    n ∈ (l.after c).manager.places ∨ n ∈ (l.after c).displaced ↔
      (n ∈ l.manager.places ∨ n ∈ l.displaced) ∧ n ∉ gone := by
  rw [mem_displaced_after effect]
  constructor
  · rintro (known | displaced | ⟨known, there, -⟩)
    · rcases effect.known n known with ⟨known, there⟩ | ⟨low, -⟩
      · exact ⟨.inl known, there⟩
      · exact absurd (h.installed_lt n mine) (Nat.not_lt.2 low)
    · exact ⟨.inr displaced, fun away => (h.displaced n displaced).2 (effect.mine n away)⟩
    · exact ⟨.inl known, there⟩
  · rintro ⟨known | displaced, there⟩
    · by_cases still : n ∈ (l.after c).manager.places
      · exact .inl still
      · exact .inr (.inr ⟨known, there, still⟩)
    · exact .inr (.inl displaced)

/-- A handler of before that is not gone is as it was. -/
theorem Sound.stays (h : l.Sound) {n : Nat} (mine : n ∈ l.installed) (there : n ∉ gone) :
    (l.after c).system.attached.count n = l.system.attached.count n ∧
      (l.after c).system.closed? n = l.system.closed? n := by
  have inside := h.installed_lt n mine
  refine ⟨(effect.count_of_lt inside).trans ?_, (effect.closed n inside).trans (if_neg there)⟩
  rw [List.count_eq_zero.2 there, Nat.sub_zero]

/-- Only known handlers go, and those were attached once. -/
theorem Sound.goes (h : l.Sound) {n : Nat} (away : n ∈ gone) :
    (l.after c).system.attached.count n = 0 ∧ (l.after c).system.closed? n = some true := by
  have known := effect.mine n away
  have mine := h.known n known
  have inside := h.installed_lt n mine
  have once : l.system.attached.count n = 1 := (h.live n mine (.inl known)).1
  have some := List.count_pos_iff.2 away
  refine ⟨(effect.count_of_lt inside).trans ?_, (effect.closed n inside).trans (if_pos away)⟩
  dsimp only
  omega

/-- A new handler is attached once. -/
theorem Sound.comes (h : l.Sound) {n : Nat} (low : l.system.handlers.length ≤ n)
    (high : n < l.system.handlers.length + count) :
    (l.after c).system.attached.count n = 1 ∧ (l.after c).system.closed? n = some false :=
  ⟨effect.count_of_new h.attached_lt low high, effect.opened n low high⟩

theorem Sound.installed_lt_after (h : l.Sound) :
    ∀ n ∈ (l.after c).installed, n < (l.after c).system.handlers.length := by
  intro n mem
  have length : (l.after c).system.handlers.length = l.system.handlers.length + count :=
    effect.length
  rw [length]
  rcases (mem_installed_after effect n).1 mem with old | ⟨-, high⟩
  · exact Nat.lt_add_right count (h.installed_lt n old)
  · exact high

/-- What was displaced is not known again. -/
theorem Sound.unknown_after (h : l.Sound) {n : Nat} (displaced : n ∈ (l.after c).displaced) :
    n ∈ l.installed ∧ n ∉ (l.after c).manager.places := by
  rcases (mem_displaced_after effect n).1 displaced with displaced | ⟨known, -, unknown⟩
  · have old := (h.displaced n displaced).1
    refine ⟨old, fun known => ?_⟩
    rcases effect.known n known with ⟨known, -⟩ | ⟨low, -⟩
    · exact (h.displaced n displaced).2 known
    · exact absurd (h.installed_lt n old) (Nat.not_lt.2 low)
  · exact ⟨h.known n known, unknown⟩

end Step

/-- Every call keeps the ledger sound. -/
theorem Sound.after {l : Ledger} (h : l.Sound) (c : LogManager.Call) : (l.after c).Sound := by
  obtain ⟨gone, count, effect⟩ := c.effect (l.manager, l.system)
  refine ⟨effect.attached_lt h.attached_lt, h.installed_lt_after effect, fun n mem => ?_,
    fun n mem => ?_, fun n mem live => ?_, fun n mem unknown undisplaced => ?_⟩
  · rw [mem_installed_after effect]
    exact (effect.known n mem).imp_left fun known => h.known n known.1
  · rw [mem_installed_after effect]
    exact (h.unknown_after effect mem).imp_left .inl
  · rcases (mem_installed_after effect n).1 mem with old | ⟨low, high⟩
    · obtain ⟨live, there⟩ := (h.live_after effect old).1 live
      obtain ⟨same, same'⟩ := h.stays effect old there
      rw [same, same']
      exact h.live n old live
    · exact h.comes effect low high
  · rcases (mem_installed_after effect n).1 mem with old | ⟨low, high⟩
    · have off := (h.live_after effect old).not.1 (not_or.2 ⟨unknown, undisplaced⟩)
      by_cases away : n ∈ gone
      · exact h.goes effect away
      · have before := not_or.1 fun live => off ⟨live, away⟩
        obtain ⟨same, same'⟩ := h.stays effect old away
        rw [same, same']
        exact h.dead n old before.1 before.2
    · exact absurd (effect.fresh n low high) unknown

/-- What a set-up adds to a ledger is in its plan. -/
theorem after_setUp (l : Ledger) (settings : LoggingSettings) {new : List (String × LogHandler)}
    (planned : (LogManager.plan settings l.system.showsColors l.system.files).handlers = new) :
    (l.after (.setUp settings)).installed =
        l.installed ++ List.range' l.system.handlers.length new.length ∧
      (l.after (.setUp settings)).system.attached =
        (LogManager.cleared (l.manager, l.system)).2.attached ++
          List.range' l.system.handlers.length new.length ∧
      (l.after (.setUp settings)).manager.handlers =
        Pairs.merge (LogManager.cleared (l.manager, l.system)).1.handlers
          (LogManager.numbered l.system.handlers.length new) := by
  subst planned
  have follows := LogManager.setUp_follows settings (l.manager, l.system)
  have same := (LogManager.exchange_cleared (l.manager, l.system)).length
  dsimp only at same
  refine ⟨?_, ?_, ?_⟩
  · rw [after, LogManager.Call.run, follows.handlers, List.length_append, List.length_map, same,
      Nat.add_zero, Nat.add_sub_cancel_left]
  · rw [after, LogManager.Call.run, follows.attached, same, Nat.add_zero]
  · rw [after, LogManager.Call.run, follows.named, same, Nat.add_zero]

/-! ## What others do, and what is left to them -/

end Ledger

/-- Others make and attach handlers, and change what they like: but the handlers at the given places
stay attached as often as they are, and closed or open. -/
structure LogSystem.Apart (mine : List Nat) (s s' : LogSystem) : Prop where
  length : s.handlers.length ≤ s'.handlers.length
  attached_lt : ∀ n ∈ s'.attached, n < s'.handlers.length
  count : ∀ n ∈ mine, s'.attached.count n = s.attached.count n
  closed : ∀ n ∈ mine, s'.closed? n = s.closed? n

namespace Ledger

theorem Sound.apart {l : Ledger} (h : l.Sound) {s : LogSystem}
    (apart : l.system.Apart l.installed s) : ({ l with system := s } : Ledger).Sound where
  attached_lt := apart.attached_lt
  installed_lt n mem := (h.installed_lt n mem).trans_le apart.length
  known := h.known
  displaced := h.displaced
  live n mem live := by rw [apart.count n mem, apart.closed n mem]; exact h.live n mem live
  dead n mem unknown undisplaced := by
    rw [apart.count n mem, apart.closed n mem]
    exact h.dead n mem unknown undisplaced

/-- What a call leaves to others, and when it displaces nothing. -/
structure Leaves (l : Ledger) (c : LogManager.Call) : Prop where
  others : ∀ n < l.system.handlers.length, n ∉ l.installed →
    (l.after c).system.handlers[n]? = l.system.handlers[n]?
  attached : (l.after c).system.attached.filter (· ∉ (l.after c).installed) =
    l.system.attached.filter (· ∉ l.installed)
  displaced : l.manager.Settled → (l.after c).displaced = l.displaced
  settled : l.manager.Settled → (c.run (l.manager, l.system)).1 = .ok () →
    (l.after c).manager.Settled

theorem filter_diff {p : Nat → Bool} {gone : List Nat} (none : ∀ n ∈ gone, p n = false)
    (ns : List Nat) : (ns.diff gone).filter p = ns.filter p := by
  induction gone generalizing ns with
  | nil => rw [List.diff_nil]
  | cons n gone ih =>
    have unlisted : n ∉ ns.filter p := fun mem =>
      Bool.false_ne_true ((none n List.mem_cons_self).symm.trans (List.mem_filter.1 mem).2)
    rw [List.diff_cons, ih fun m mem => none m (List.mem_cons_of_mem _ mem), ← List.erase_filter,
      List.erase_of_not_mem unlisted]

theorem displaced_after {l : Ledger} (h : l.manager.Settled) (c : LogManager.Call) :
    (l.after c).displaced = l.displaced := by
  have none : c.displaced l.manager (l.after c).manager = [] := by
    cases c with
    | setUp settings =>
      rcases h with configured | unknown
      · exact if_pos configured
      · simp only [LogManager.Call.displaced, LogManager.places, unknown, List.map_nil,
          List.filter_nil, ite_self]
    | setLevel level component? => rfl
    | cleanUp => rfl
  exact (congrArg (l.displaced ++ ·) none).trans (List.append_nil _)

theorem Sound.leaves {l : Ledger} (h : l.Sound) (c : LogManager.Call) : l.Leaves c := by
  obtain ⟨gone, count, effect⟩ := c.effect (l.manager, l.system)
  refine ⟨fun n there other => effect.untouched n there fun mem => other (h.known n mem), ?_,
    fun settled => displaced_after settled c, fun settled => settled.run⟩
  have new : ((List.range' l.system.handlers.length count).filter
      (· ∉ (l.after c).installed)) = [] := by
    refine List.filter_eq_nil_iff.2 fun n mem => ?_
    rw [decide_eq_true_iff, not_not, mem_installed_after effect]
    exact .inr (List.mem_range'_1.1 mem)
  have mine : ∀ n ∈ gone, decide (n ∉ (l.after c).installed) = false := fun n mem => by
    rw [decide_eq_false_iff_not, not_not, mem_installed_after effect]
    exact .inl (h.known n (effect.mine n mem))
  have attached : (l.after c).system.attached =
      l.system.attached.diff gone ++ List.range' l.system.handlers.length count := effect.attached
  rw [attached, List.filter_append, new, List.append_nil, filter_diff mine]
  -- What was attached before is not new.
  refine List.filter_congr fun n mem => ?_
  rw [decide_eq_decide, mem_installed_after effect]
  have old := h.attached_lt n mem
  exact not_congr (or_iff_left fun new => absurd new.1 (Nat.not_le.2 old))

/-! ## Every history -/

/-- The ledgers that calls and others come to from a log. -/
inductive Reaches (s₀ : LogSystem) : Ledger → Prop
  | start : (∀ n ∈ s₀.attached, n < s₀.handlers.length) → Reaches s₀ (start s₀)
  | call {l : Ledger} (c : LogManager.Call) : Reaches s₀ l → Reaches s₀ (l.after c)
  | others {l : Ledger} {s : LogSystem} : Reaches s₀ l → l.system.Apart l.installed s →
    Reaches s₀ { l with system := s }

theorem Reaches.sound {s₀ : LogSystem} {l : Ledger} (reaches : Reaches s₀ l) : l.Sound := by
  induction reaches with
  | start attached_lt => exact sound_start attached_lt
  | call c _ ih => exact ih.after c
  | others _ apart ih => exact ih.apart apart

/-- A handler that was ever installed is attached once or not at all, and if not it is closed. -/
theorem Sound.attached_iff {l : Ledger} (h : l.Sound) {n : Nat} (mine : n ∈ l.installed) :
    l.system.attached.count n ≤ 1 ∧
      (n ∈ l.system.attached ↔ n ∈ l.manager.places ∨ n ∈ l.displaced) ∧
      (l.system.closed? n = some true ↔ n ∉ l.system.attached) := by
  by_cases live : n ∈ l.manager.places ∨ n ∈ l.displaced
  · obtain ⟨once, unclosed⟩ := h.live n mine live
    have there : n ∈ l.system.attached := List.count_pos_iff.1 (by omega)
    exact ⟨once.le, iff_of_true there live,
      iff_of_false (by rw [unclosed]; decide) (not_not.2 there)⟩
  · obtain ⟨none, closed⟩ := h.dead n mine (not_or.1 live).1 (not_or.1 live).2
    have off : n ∉ l.system.attached := List.count_eq_zero.1 none
    exact ⟨none.trans_le (Nat.zero_le 1), iff_of_false off live, iff_of_true closed off⟩

theorem places_after_cleanUp (l : Ledger) : (l.after .cleanUp).manager.places = [] := by
  rw [after, LogManager.Call.run, LogManager.run_cleanUp]
  rfl

/-- After every history of calls, failed ones among them, and of what others do: each handler that
the manager ever installed is attached once or not at all, and those that are not are closed. The
known ones and the displaced ones are attached, so all that are attached are known exactly if none
was displaced; cleaning up leaves no known one. A call leaves the handlers of others as they are, and
displaces none unless a set-up failed that was not cleaned up. -/
theorem attached_of_reaches {s₀ : LogSystem} {l : Ledger} (reaches : Reaches s₀ l) :
    (∀ n ∈ l.installed, l.system.attached.count n ≤ 1 ∧
      (n ∈ l.system.attached ↔ n ∈ l.manager.places ∨ n ∈ l.displaced) ∧
      (l.system.closed? n = some true ↔ n ∉ l.system.attached)) ∧
    (∀ n ∈ l.manager.places, n ∈ l.installed) ∧
    ((∀ n ∈ l.installed, n ∈ l.system.attached → n ∈ l.manager.places) ↔ l.displaced = []) ∧
    (l.after .cleanUp).manager.places = [] ∧
    ∀ c, l.Leaves c := by
  have sound := reaches.sound
  refine ⟨fun n => sound.attached_iff, sound.known, ⟨fun all => ?_, fun none n mine there => ?_⟩,
    l.places_after_cleanUp, sound.leaves⟩
  · refine List.eq_nil_iff_forall_not_mem.2 fun n displaced => ?_
    obtain ⟨mine, unknown⟩ := sound.displaced n displaced
    exact unknown (all n mine ((sound.attached_iff mine).2.1.2 (.inr displaced)))
  · refine ((sound.attached_iff mine).2.1.1 there).resolve_right ?_
    rw [none]
    exact List.not_mem_nil

/-! A set-up that fails after it installed the handler of the console, on a log of others. -/

/-- Settings for the console, and for a file where a directory is. -/
def blocked : LoggingSettings :=
  { LogManager.jsonLines [] with enableFile := true, filePath? := some "." }

/-- A log to which others attached a handler. -/
def shared : LogSystem := LogManager.unused.attach ⟨30, .structured, .console, false⟩

/-- A set-up failed. -/
def failed : Ledger := (start shared).after (.setUp blocked)

/-- It is cleaned up before the next one. -/
def recovered : Ledger := (failed.after .cleanUp).after (.setUp (LogManager.jsonLines []))

/-- The next one follows at once. -/
def repeated : Ledger := failed.after (.setUp (LogManager.jsonLines []))

theorem attached_of_reaches_recovered :
    Reaches shared recovered ∧ recovered.installed = [1, 2] ∧
      recovered.system.attached = [0, 2] ∧
      (∀ n ∈ recovered.installed, n ∈ recovered.system.attached → n ∈ recovered.manager.places) ∧
      ∀ c, recovered.Leaves c := by
  have reaches : Reaches shared recovered := .call _ (.call _ (.call _ (.start (by decide))))
  obtain ⟨installed, attached, -⟩ := after_setUp (failed.after .cleanUp) _
    (congrArg LogManager.Plan.handlers (LogManager.plan_jsonLines [] _ _))
  have none : recovered.displaced = [] :=
    (displaced_after (.inr (by decide +kernel)) _).trans (by decide +kernel)
  obtain ⟨-, -, known, -, leaves⟩ := attached_of_reaches reaches
  exact ⟨reaches, installed.trans (by decide +kernel), attached.trans (by decide +kernel),
    known.2 none, leaves⟩

/-- Two handlers of the manager are attached, and it knows one of them. The other one stays when the
manager cleans up. -/
theorem attached_not_known_repeated :
    Reaches shared repeated ∧ repeated.installed = [1, 2] ∧
      repeated.system.attached = [0, 1, 2] ∧
      ¬ (∀ n ∈ repeated.installed, n ∈ repeated.system.attached → n ∈ repeated.manager.places) ∧
      (repeated.after .cleanUp).system.attached = [0, 1] := by
  obtain ⟨installed, attached, known⟩ := after_setUp failed _
    (congrArg LogManager.Plan.handlers (LogManager.plan_jsonLines [] _ _))
  replace installed : repeated.installed = [1, 2] := installed.trans (by decide +kernel)
  replace attached : repeated.system.attached = [0, 1, 2] := attached.trans (by decide +kernel)
  replace known : repeated.manager.places = [2] :=
    (congrArg (List.map Prod.snd) known).trans (by decide +kernel)
  refine ⟨.call _ (.call _ (.start (by decide))), installed, attached, fun all => ?_, ?_⟩
  · rw [installed, attached, known] at all
    exact absurd (all 1 (by decide) (by decide)) (by decide)
  · have left := (LogManager.exchange_cleaned (repeated.manager, repeated.system)).attached
    rw [after, LogManager.Call.run, LogManager.run_cleanUp, left, attached, known]
    rfl

end Ledger

end GraphClient
