import GraphClient.Proofs.Pairs
import GraphClient.Proofs.Selection.Rendering

/-!
# What rendering does, in order

Rendering a selection computes values and notes those that it cannot render. Each of these steps
is a `Visit` to a place: the members of a group and the selections below the keys of a map are
numbered, and what a computed value gives stands at number zero below it.

* `Selection.Itinerary`: the visits to all such places that are met, each of them once and in order
  of their places, up to the first error.
* `Selection.render_itinerary`: rendering makes these visits and leaves nothing else behind. It fails
  with the error that was raised, if one was, or with what a generator makes of it
  (`Selection.Surfaces`, `Selection.render_stopIteration`).
-/

namespace GraphClient.Selection

/-- What rendering does at a place of a selection. -/
inductive Event where
  /-- A computed value gives a selection. -/
  | gives (thunk result : Value)
  /-- A computed value raises an error. -/
  | raises (error : Raise)
  /-- A value that cannot be rendered is noted. -/
  | ignores (v : Value)

namespace Event

/-- The value that an event is about. -/
def about : Event → Value
  | gives thunk _ => thunk
  | raises error => .failing error
  | ignores v => v

def result? : Event → Option Value
  | gives _ result => some result
  | _ => none

def error? : Event → Option Raise
  | raises error => some error
  | _ => none

/-- The log record about a value that cannot be rendered. -/
def ignored (v : Value) : LogEntry :=
  ⟨10, loggerName, "Ignoring unsupported field descriptor of type " ++ v.typeName⟩

/-- The log record of an event. -/
def record? : Event → Option LogEntry
  | ignores v => some (ignored v)
  | _ => none

/-- What an event leaves in the journal: the label or the number of a computation, or a record. -/
def note (e : Event) (j : Journal) : Journal :=
  match e with
  | gives (.deferred (some label) _) _ => j.addTrace ("thunk:" ++ label)
  | gives (.stepped slot _) _ => j.countUp slot
  | gives .. | raises _ => j
  | ignores v => j.addLog (ignored v)

/-- Whether the event is a computation of a slot. -/
def computes (slot : Nat) : Event → Bool
  | gives (.stepped slot' _) _ => slot' == slot
  | _ => false

/-- What there is to be done about a value, as things stand: a stepped value gives the result with
the number of its computations so far. -/
inductive Due (j : Journal) : Event → Prop where
  | deferred (label : Option String) (result : Value) : Due j (gives (.deferred label result) result)
  | stepped (slot : Nat) (results : List Value) :
      Due j (gives (.stepped slot results) (resultAt (j.count slot) results))
  | field (signature : String) : Due j (gives (.field signature) (.text signature))
  | failing (error : Raise) : Due j (raises error)
  | unsupported {v : Value} : kindOf v = .unsupported → Due j (ignores v)

theorem logs_note (e : Event) (j : Journal) : (e.note j).logs = j.logs ++ e.record?.toList := by
  unfold note
  split <;> try exact (List.append_nil _).symm
  rfl

theorem count_note (e : Event) (slot : Nat) (j : Journal) :
    (e.note j).count slot = j.count slot + if e.computes slot then 1 else 0 := by
  cases e with
  | gives thunk result =>
    cases thunk with
    | deferred label result => cases label <;> rfl
    | stepped slot' results =>
      by_cases same : slot' = slot
      · subst same
        rw [computes, beq_self_eq_true, if_pos rfl]
        exact congrArg (·.getD 0) (Pairs.get?_set_self slot' (j.count slot' + 1) j.counts)
      · rw [computes, if_neg (by simpa using same)]
        exact congrArg (·.getD 0) (Pairs.get?_set_of_ne (Ne.symm same) (j.count slot' + 1) j.counts)
    | _ => rfl
  | _ => rfl

end Event

/-- An event and its place. -/
structure Visit where
  place : List Nat
  event : Event

namespace Visit

/-- The same visit, seen from one level further out. -/
def under (i : Nat) (a : Visit) : Visit := ⟨i :: a.place, a.event⟩

end Visit

/-- The journal after some visits. -/
def after (visits : List Visit) (j : Journal) : Journal :=
  visits.foldl (fun j a => a.event.note j) j

/-- The error that is raised in some visits, and where. -/
def raised? (visits : List Visit) : Option (List Nat × Raise) :=
  visits.findSome? fun a => a.event.error?.map (a.place, ·)

/-- What a computed value gave at a place. -/
def given (visits : List Visit) (place : List Nat) : Option Value :=
  (visits.find? (·.place == place)).bind (·.event.result?)

/-- The selections that a value holds, or the one that it gave. -/
def parts (given? : Option Value) : Value → List Value
  | .list items | .tuple items => items
  | .map entries => entries.map Prod.snd
  | _ => given?.toList

/-- The value at a place of a selection, when computed values give what they are said to give. -/
def valueAt (v : Value) (given : List Nat → Option Value) : List Nat → Option Value
  | [] => some v
  | i :: place => (parts (given []) v)[i]?.bind fun w => valueAt w (fun p => given (i :: p)) place

/-- A place is visited, or an error is raised before it. -/
def Passed (visits : List Visit) (place : List Nat) : Prop :=
  (∃ a ∈ visits, a.place = place) ∨ ∃ a ∈ visits, a.event.error?.isSome ∧ a.place < place

/-- Visits to the places where something is to be done, when `look` tells what stands at a place. -/
structure Tour (look : (List Nat → Option Value) → List Nat → Option Value) (j : Journal)
    (visits : List Visit) : Prop where
  /-- The places come in order, none of them twice. -/
  ordered : visits.Pairwise fun a b => a.place < b.place
  /-- Each visit is about the value that is met at its place. -/
  there : ∀ a ∈ visits, look (given visits) a.place = some a.event.about
  /-- Every place with something to be done is visited, unless an error is raised before it. -/
  complete : ∀ place v, look (given visits) place = some v →
    kindOf v = .thunk ∨ kindOf v = .unsupported → Passed visits place
  /-- What is done is what is due by then, and nothing comes after an error. -/
  due : ∀ front a back, visits = front ++ a :: back →
    a.event.Due (after front j) ∧ (a.event.error?.isSome → back = [])

/-- The visits that rendering a selection consists of. -/
def Itinerary (v : Value) : Journal → List Visit → Prop := Tour (valueAt v)

/-! ## What was given -/

section

variable {xs ys : List Visit} {p q : List Nat} {i : Nat} {j : Journal}

/-- No visit to a place is found where there is none. -/
theorem find?_eq_none (elsewhere : ∀ a ∈ xs, a.place ≠ p) : xs.find? (·.place == p) = none :=
  List.find?_eq_none.mpr fun a mem => by simpa using elsewhere a mem

theorem given_eq_none (elsewhere : ∀ a ∈ xs, a.place ≠ p) : given xs p = none := by
  rw [given, find?_eq_none elsewhere, Option.bind_none]

theorem given_append_left (elsewhere : ∀ a ∈ ys, a.place ≠ p) : given (xs ++ ys) p = given xs p := by
  rw [given, given, List.find?_append, find?_eq_none elsewhere, Option.or_none]

theorem given_append_right (elsewhere : ∀ a ∈ xs, a.place ≠ p) : given (xs ++ ys) p = given ys p := by
  rw [given, given, List.find?_append, find?_eq_none elsewhere, Option.none_or]

theorem given_under (xs : List Visit) (i : Nat) (p : List Nat) :
    given (xs.map (.under i)) (i :: p) = given xs p := by
  rw [given, given, List.find?_map]
  have same : ((fun a : Visit => a.place == i :: p) ∘ Visit.under i) = fun a => a.place == p := by
    funext a
    simp [Visit.under]
  rw [same]
  cases xs.find? fun a => a.place == p <;> rfl

theorem Passed.mono (passed : Passed xs p) (more : xs ⊆ ys) : Passed ys p :=
  passed.imp (fun ⟨a, mem, same⟩ => ⟨a, more mem, same⟩)
    fun ⟨a, mem, error, before⟩ => ⟨a, more mem, error, before⟩

theorem Passed.under (passed : Passed xs p) (i : Nat) : Passed (xs.map (.under i)) (i :: p) := by
  rcases passed with ⟨a, mem, rfl⟩ | ⟨a, mem, error, before⟩
  · exact .inl ⟨a.under i, List.mem_map_of_mem mem, rfl⟩
  · have before' : (a.under i).place < i :: p := List.cons_lt_cons_iff.mpr (.inr ⟨rfl, before⟩)
    exact .inr ⟨a.under i, List.mem_map_of_mem mem, error, before'⟩

theorem after_append : after (xs ++ ys) j = after ys (after xs j) := List.foldl_append

theorem after_under (xs : List Visit) (i : Nat) (j : Journal) :
    after (xs.map (.under i)) j = after xs j := by
  rw [after, after, List.foldl_map]
  rfl

theorem raised?_under (xs : List Visit) (i : Nat) :
    raised? (xs.map (.under i)) = (raised? xs).map fun (place, error) => (i :: place, error) := by
  rw [raised?, raised?, List.findSome?_map, List.map_findSome?]
  congr 1
  funext a
  show a.event.error?.map _ = (a.event.error?.map _).map _
  rw [Option.map_map]
  rfl

theorem exists_of_raised? {error : Raise} (raised : raised? xs = some (p, error)) :
    ∃ a ∈ xs, a.place = p ∧ a.event.error? = some error := by
  obtain ⟨a, mem, found⟩ := List.exists_of_findSome?_eq_some raised
  obtain ⟨error', raises, same⟩ := Option.map_eq_some_iff.mp found
  obtain ⟨rfl, rfl⟩ := Prod.mk.inj same
  exact ⟨a, mem, rfl, raises⟩

theorem raised?_append : raised? (xs ++ ys) = (raised? xs).or (raised? ys) := by
  rw [raised?, raised?, raised?, List.findSome?_append]

theorem error?_of_raised?_eq_none (quiet : raised? xs = none) {a : Visit} (mem : a ∈ xs) :
    a.event.error? = none :=
  Option.map_eq_none_iff.mp (List.findSome?_eq_none_iff.mp quiet a mem)

end

/-! ## Tours put together -/

/-- The values at places below one of several values, which are numbered from `i` on. -/
def valuesFrom (i : Nat) (vs : List Value) (given : List Nat → Option Value) :
    List Nat → Option Value
  | [] => none
  | k :: place =>
    if i ≤ k then vs[k - i]?.bind fun w => valueAt w (fun p => given (k :: p)) place else none

namespace Tour

variable {look : (List Nat → Option Value) → List Nat → Option Value} {i : Nat} {v : Value}
  {vs : List Value} {j : Journal} {xs ys : List Visit}

/-- Visits below numbered values are at places that start with such a number. -/
theorem place_valuesFrom (tour : Tour (valuesFrom i vs) j xs) {a : Visit} (mem : a ∈ xs) :
    ∃ k place, a.place = k :: place ∧ i ≤ k := by
  have found := tour.there a mem
  cases place : a.place with
  | nil =>
    rw [place] at found
    cases found
  | cons k rest =>
    rw [place, valuesFrom] at found
    split at found
    · exact ⟨k, rest, rfl, ‹_›⟩
    · cases found

theorem place_under {a : Visit} (mem : a ∈ xs.map (.under i)) : ∃ place, a.place = i :: place := by
  obtain ⟨b, -, rfl⟩ := List.mem_map.mp mem
  exact ⟨b.place, rfl⟩

/-- An event among two lists of visits is in the first or in the second. -/
theorem split_append {front back : List Visit} {a : Visit} (split : xs ++ ys = front ++ a :: back) :
    (∃ back', xs = front ++ a :: back' ∧ back = back' ++ ys) ∨
      ∃ front', front = xs ++ front' ∧ ys = front' ++ a :: back := by
  rcases List.append_eq_append_iff.mp split with ⟨z, eq, rest⟩ | ⟨z, eq, rest⟩
  · exact .inr ⟨z, eq, rest⟩
  · cases z with
    | nil =>
      refine .inr ⟨[], by rw [eq, List.append_nil, List.append_nil], ?_⟩
      exact rest.symm
    | cons b z =>
      obtain ⟨rfl, rfl⟩ := List.cons.inj rest
      exact .inl ⟨z, eq, rfl⟩

/-- What is due in visits is due in them also when they are seen from further out. -/
theorem due_under (tour : Tour look j xs) {front back : List Visit} {a : Visit}
    (split : xs.map (.under i) = front ++ a :: back) :
    a.event.Due (after front j) ∧ (a.event.error?.isSome → back = []) := by
  obtain ⟨front', rest, rfl, rfl, parted⟩ := List.map_eq_append_iff.mp split
  obtain ⟨b, back', rfl, rfl, rfl⟩ := List.map_eq_cons_iff.mp parted
  obtain ⟨due, stops⟩ := tour.due front' b back' rfl
  rw [after_under]
  exact ⟨due, fun error => by rw [stops error, List.map_nil]⟩

theorem ordered_under (tour : Tour look j xs) :
    (xs.map (Visit.under i)).Pairwise fun a b => a.place < b.place :=
  List.pairwise_map.mpr (tour.ordered.imp fun less => List.cons_lt_cons_iff.mpr (.inr ⟨rfl, less⟩))

theorem nil : Tour (valuesFrom i []) j [] where
  ordered := .nil
  there _ mem := nomatch mem
  complete place v found := by
    cases place with
    | nil => cases found
    | cons k place =>
      rw [valuesFrom] at found
      split at found <;> cases found
  due front a back split := by
    cases front <;> cases split

/-- Below the first of several values there is what there is when it stands alone. -/
theorem valuesFrom_first (later : ∀ a ∈ ys, ∃ k place, a.place = k :: place ∧ i < k)
    (place : List Nat) :
    valuesFrom i (v :: vs) (given (xs.map (.under i) ++ ys)) (i :: place) =
      valueAt v (given xs) place := by
  have same (p : List Nat) : given (xs.map (.under i) ++ ys) (i :: p) = given xs p := by
    rw [given_append_left, given_under]
    intro a mem same
    obtain ⟨k, rest, place, less⟩ := later a mem
    rw [place] at same
    exact Nat.ne_of_gt less (List.cons.inj same).1
  rw [valuesFrom, if_pos (Nat.le_refl i), Nat.sub_self]
  simp only [List.getElem?_cons_zero, Option.bind_some, same]

/-- Below the other ones there is what there is without the first. -/
theorem valuesFrom_later {k : Nat} (less : i < k) (place : List Nat) :
    valuesFrom i (v :: vs) (given (xs.map (.under i) ++ ys)) (k :: place) =
      valuesFrom (i + 1) vs (given ys) (k :: place) := by
  have same (p : List Nat) : given (xs.map (.under i) ++ ys) (k :: p) = given ys (k :: p) := by
    refine given_append_right fun a mem same => ?_
    obtain ⟨rest, place⟩ := place_under mem
    rw [place] at same
    exact Nat.ne_of_lt less (List.cons.inj same).1
  obtain ⟨n, rfl⟩ := Nat.exists_eq_add_of_lt less
  have number : i + n + 1 - i = n + 1 := by omega
  have number' : i + n + 1 - (i + 1) = n := by omega
  rw [valuesFrom, valuesFrom, if_pos (by omega), if_pos (by omega), number, number']
  simp only [List.getElem?_cons_succ, same]

/-- Visits below the first of several values, and then those below the others, of which there are
none after an error. -/
theorem cons (first : Tour (valueAt v) j xs)
    (rest : raised? xs = none → Tour (valuesFrom (i + 1) vs) (after xs j) ys)
    (stop : raised? xs ≠ none → ys = []) :
    Tour (valuesFrom i (v :: vs)) j (xs.map (.under i) ++ ys) := by
  have others {a : Visit} (mem : a ∈ ys) : raised? xs = none := by
    by_contra raised
    rw [stop raised] at mem
    cases mem
  have later (a) (mem : a ∈ ys) : ∃ k place, a.place = k :: place ∧ i < k :=
    (rest (others mem)).place_valuesFrom mem
  constructor
  · have ordered : ys.Pairwise fun a b => a.place < b.place := by
      cases raised : raised? xs with
      | none => exact (rest raised).ordered
      | some error => exact stop (raised ▸ nofun) ▸ .nil
    refine List.pairwise_append.mpr ⟨first.ordered_under, ordered, fun a mem b mem' => ?_⟩
    obtain ⟨p, place⟩ := place_under mem
    obtain ⟨k, q, place', less⟩ := later b mem'
    rw [place, place']
    exact List.cons_lt_cons_iff.mpr (.inl less)
  · intro a mem
    rcases List.mem_append.mp mem with mem | mem
    · obtain ⟨b, inside, rfl⟩ := List.mem_map.mp mem
      exact (valuesFrom_first later b.place).trans (first.there b inside)
    · have found := (rest (others mem)).there a mem
      obtain ⟨k, q, place, less⟩ := later a mem
      rw [place] at found ⊢
      exact (valuesFrom_later less q).trans found
  · intro place w found kind
    cases place with
    | nil => cases found
    | cons k q =>
      rcases Nat.lt_trichotomy k i with less | rfl | less
      · rw [valuesFrom, if_neg (by omega)] at found
        cases found
      · rw [valuesFrom_first later] at found
        exact ((first.complete q w found kind).under k).mono (List.subset_append_left _ _)
      · cases raised : raised? xs with
        | none =>
          rw [valuesFrom_later less] at found
          exact ((rest raised).complete _ w found kind).mono (List.subset_append_right _ _)
        | some error =>
          obtain ⟨a, mem, -, raises⟩ := exists_of_raised? raised
          exact .inr ⟨a.under i, List.mem_append_left _ (List.mem_map_of_mem mem),
            Option.isSome_of_eq_some raises, List.cons_lt_cons_iff.mpr (.inl less)⟩
  · intro front a back split
    rcases split_append split with ⟨back', left, rfl⟩ | ⟨front', rfl, right⟩
    · obtain ⟨due, last⟩ := first.due_under left
      refine ⟨due, fun error => ?_⟩
      have mem : a ∈ xs.map (.under i) := left ▸ List.mem_append_right _ List.mem_cons_self
      obtain ⟨b, inside, rfl⟩ := List.mem_map.mp mem
      rw [last error, stop fun quiet => ?_]
      · rfl
      · rw [Visit.under, error?_of_raised?_eq_none quiet inside] at error
        cases error
    · have quiet := others (a := a) (right ▸ List.mem_append_right _ List.mem_cons_self)
      rw [after_append, after_under]
      exact (rest quiet).due front' a back right

/-- Nothing is to be done about the value itself: the visits are those below its parts. -/
theorem quiet {k : FieldKind} (kind : kindOf v = k) (idle : k ≠ .thunk ∧ k ≠ .unsupported)
    (tour : Tour (valuesFrom 0 (parts none v)) j xs) : Itinerary v j xs := by
  have below (k : Nat) (q : List Nat) : valueAt v (given xs) (k :: q) =
      valuesFrom 0 (parts none v) (given xs) (k :: q) := by
    have nothing : given xs [] = none := given_eq_none fun a mem same => by
      obtain ⟨k, q, place, -⟩ := tour.place_valuesFrom mem
      rw [place] at same
      cases same
    rw [valueAt, valuesFrom, nothing, if_pos (Nat.zero_le k), Nat.sub_zero]
  constructor
  · exact tour.ordered
  · intro a mem
    have found := tour.there a mem
    obtain ⟨k, q, place, -⟩ := tour.place_valuesFrom mem
    rw [place] at found ⊢
    exact (below k q).trans found
  · intro place w found due
    cases place with
    | nil =>
      cases found
      rw [kind] at due
      exact absurd due (not_or.mpr idle)
    | cons k q =>
      rw [below] at found
      exact tour.complete (k :: q) w found due
  · exact tour.due

/-- Below a computed value there is what it gave, at number zero. -/
theorem valueAt_computed {thunk result : Value} (due : (Event.gives thunk result).Due j) (k : Nat)
    (q : List Nat) :
    valueAt thunk (given (⟨[], .gives thunk result⟩ :: xs.map (.under 0))) (k :: q) =
      if k = 0 then valueAt result (given xs) q else none := by
  have one : parts (some result) thunk = [result] := by cases due <;> rfl
  have inside (q : List Nat) :
      given (⟨[], .gives thunk result⟩ :: xs.map (.under 0)) (0 :: q) = given xs q :=
    given_under xs 0 q
  rw [valueAt]
  change (parts (some result) thunk)[k]?.bind _ = _
  rw [one]
  cases k with
  | zero => simp only [List.getElem?_cons_zero, Option.bind_some, inside, ↓reduceIte]
  | succ k => rfl

/-- A computed value is computed, and then there are the visits to what it gave. -/
theorem computed {thunk result : Value} (due : (Event.gives thunk result).Due j)
    (tour : Itinerary result ((Event.gives thunk result).note j) xs) :
    Itinerary thunk j (⟨[], .gives thunk result⟩ :: xs.map (.under 0)) := by
  constructor
  · refine List.pairwise_cons.mpr ⟨fun a mem => ?_, tour.ordered_under⟩
    obtain ⟨q, place⟩ := place_under mem
    rw [place]
    exact List.nil_lt_cons 0 q
  · intro a mem
    rcases List.mem_cons.mp mem with rfl | mem
    · rfl
    · obtain ⟨b, inside, rfl⟩ := List.mem_map.mp mem
      exact ((valueAt_computed due 0 b.place).trans (if_pos rfl)).trans (tour.there b inside)
  · intro place w found kind
    cases place with
    | nil => exact .inl ⟨_, List.mem_cons_self, rfl⟩
    | cons k q =>
      rw [valueAt_computed due] at found
      split at found
      · subst k
        exact ((tour.complete q w found kind).under 0).mono (List.subset_cons_self _ _)
      · cases found
  · intro front a back split
    cases front with
    | nil =>
      obtain ⟨rfl, rfl⟩ := List.cons.inj split
      exact ⟨due, nofun⟩
    | cons b front =>
      obtain ⟨rfl, later⟩ := List.cons.inj split
      exact tour.due_under later

/-- A value about which something is done without a result is visited alone. -/
theorem single {e : Event} (due : e.Due j) (final : e.result? = none) :
    Itinerary e.about j [⟨[], e⟩] := by
  have alone : parts none e.about = [] := by
    cases due with
    | deferred | stepped | field => cases final
    | failing error => rfl
    | unsupported kind =>
      rename_i v
      cases v with
      | list | tuple => cases kind
      | map entries =>
        rw [kindOf] at kind
        split at kind <;> cases kind
      | _ => rfl
  constructor
  · exact List.pairwise_singleton _ _
  · intro a mem
    rw [List.mem_singleton.mp mem]
    rfl
  · intro place w found kind
    cases place with
    | nil => exact .inl ⟨_, List.mem_cons_self, rfl⟩
    | cons k q =>
      rw [valueAt] at found
      change (parts e.result? e.about)[k]?.bind _ = _ at found
      rw [final, alone] at found
      cases found
  · intro front a back split
    cases front with
    | nil =>
      obtain ⟨rfl, rfl⟩ := List.cons.inj split
      exact ⟨due, fun _ => rfl⟩
    | cons b front =>
      have := (List.cons.inj split).2
      cases front <;> cases this

end Tour

/-! ## Generators around a place -/

/-- Whether a value holds selections that a generator goes through. -/
def holdsMany : Value → Bool
  | .list _ | .tuple _ | .map _ => true
  | _ => false

/-- A place is inside of a group or below a key of a map. -/
def Enclosed (look : List Nat → Option Value) (place : List Nat) : Prop :=
  ∃ q i rest v, place = q ++ i :: rest ∧ look q = some v ∧ holdsMany v = true

/-- What leaves a selection when an error is raised at a place in it. -/
inductive Surfaces (look : List Nat → Option Value) (place : List Nat) (error : Raise) :
    Thrown → Prop
  | asItIs : ¬ Enclosed look place → Surfaces look place error error.toThrown
  | fromGenerator : Enclosed look place →
      Surfaces look place error (.failure (error.toThrown.leaving .generator))

section

variable {look look' : List Nat → Option Value} {place : List Nat} {k : Nat}

theorem not_enclosed_nil : ¬ Enclosed look [] := by
  rintro ⟨q, i, rest, v, split, -⟩
  cases q <;> cases split

theorem enclosed_cons : Enclosed look (k :: place) ↔
    (∃ v, look [] = some v ∧ holdsMany v = true) ∨ Enclosed (fun q => look (k :: q)) place := by
  constructor
  · rintro ⟨q, i, rest, v, split, found, many⟩
    cases q with
    | nil => exact .inl ⟨v, found, many⟩
    | cons k' q =>
      obtain ⟨rfl, below⟩ := List.cons.inj split
      exact .inr ⟨q, i, rest, v, below, found, many⟩
  · rintro (⟨v, found, many⟩ | ⟨q, i, rest, v, rfl, found, many⟩)
    · exact ⟨[], k, place, v, rfl, found, many⟩
    · exact ⟨k :: q, i, rest, v, rfl, found, many⟩

theorem Surfaces.congr {error : Raise} {e : Thrown} {place' : List Nat}
    (surfaces : Surfaces look place error e) (same : Enclosed look' place' ↔ Enclosed look place) :
    Surfaces look' place' error e := by
  cases surfaces with
  | asItIs apart => exact .asItIs (mt same.mp apart)
  | fromGenerator inside => exact .fromGenerator (same.mpr inside)

end

namespace Tour

variable {i : Nat} {v : Value} {vs : List Value} {xs ys : List Visit}

/-- A place below the first of several values has around it what it has when this stands alone. -/
theorem enclosed_first (later : ∀ a ∈ ys, ∃ k place, a.place = k :: place ∧ i < k)
    (place : List Nat) :
    Enclosed (valuesFrom i (v :: vs) (given (xs.map (.under i) ++ ys))) (i :: place) ↔
      Enclosed (valueAt v (given xs)) place := by
  rw [enclosed_cons, funext (valuesFrom_first later), or_iff_right]
  rintro ⟨_, found, -⟩
  cases found

/-- A place below the other ones has around it what it has without the first. -/
theorem enclosed_later {k : Nat} (less : i < k) (place : List Nat) :
    Enclosed (valuesFrom i (v :: vs) (given (xs.map (.under i) ++ ys))) (k :: place) ↔
      Enclosed (valuesFrom (i + 1) vs (given ys)) (k :: place) := by
  rw [enclosed_cons, enclosed_cons, funext (valuesFrom_later less)]
  rfl

/-- No generator goes through what a computed value gives. -/
theorem enclosed_computed {thunk result : Value} {j : Journal}
    (due : (Event.gives thunk result).Due j) (place : List Nat) :
    Enclosed (valueAt thunk (given (⟨[], .gives thunk result⟩ :: xs.map (.under 0)))) (0 :: place) ↔
      Enclosed (valueAt result (given xs)) place := by
  have below : (fun q => valueAt thunk (given (⟨[], .gives thunk result⟩ :: xs.map (.under 0)))
      (0 :: q)) = valueAt result (given xs) :=
    funext fun q => (valueAt_computed due 0 q).trans (if_pos rfl)
  rw [enclosed_cons, below, or_iff_right]
  rintro ⟨_, found, many⟩
  obtain rfl := Option.some.inj found
  cases due <;> cases many

end Tour

/-! ## What is left behind -/

/-- A computation leaves what some visits leave, and ends with the error that was raised in them,
if one was, as it comes from its place. -/
def Leaves {α : Type} (look : List Nat → Option Value) (r : Recording α) (j : Journal)
    (visits : List Visit) : Prop :=
  match raised? visits with
  | none => ∃ a, r.run.run j = (.ok a, after visits j)
  | some (place, error) =>
    ∃ e, Surfaces look place error e ∧ r.run.run j = (.error e, after visits j)

namespace Leaves

variable {α β : Type} {look look' : List Nat → Option Value} {r : Recording α}
  {f : α → Recording β} {j : Journal} {xs ys : List Visit}

theorem of_pure (a : α) : Leaves look (pure a) j [] := ⟨a, rfl⟩

/-- Only what is around the places of the visits counts. -/
theorem congr (left : Leaves look r j xs)
    (same : ∀ a ∈ xs, Enclosed look' a.place ↔ Enclosed look a.place) : Leaves look' r j xs := by
  rw [Leaves] at left ⊢
  cases raised : raised? xs with
  | none =>
    rw [raised] at left
    exact left
  | some at_ =>
    rw [raised] at left
    obtain ⟨e, surfaces, run⟩ := left
    obtain ⟨a, mem, place, -⟩ := exists_of_raised? raised
    exact ⟨e, surfaces.congr (place ▸ same a mem), run⟩

theorem under {i : Nat} (left : Leaves look r j xs)
    (same : ∀ place, Enclosed look' (i :: place) ↔ Enclosed look place) :
    Leaves look' r j (xs.map (.under i)) := by
  rw [Leaves] at left
  rw [Leaves, raised?_under, after_under]
  cases raised : raised? xs with
  | none =>
    rw [raised] at left
    exact left
  | some at_ =>
    rw [raised] at left
    obtain ⟨e, surfaces, run⟩ := left
    exact ⟨e, surfaces.congr (same at_.1), run⟩

/-- What comes after a computation that raises nothing leaves its own visits behind those before. -/
theorem bind (left : Leaves look r j xs) (quiet : raised? xs = none)
    (next : ∀ a, Leaves look (f a) (after xs j) ys) : Leaves look (r >>= f) j (xs ++ ys) := by
  rw [Leaves, quiet] at left
  obtain ⟨a, run⟩ := left
  rw [Leaves, raised?_append, quiet, Option.none_or, Recording.run_bind_of_ok run, after_append]
  exact next a

/-- Nothing comes after an error. -/
theorem bind_of_raised (left : Leaves look r j xs) (raised : raised? xs ≠ none) :
    Leaves look (r >>= f) j xs := by
  obtain ⟨at_, raised⟩ := Option.ne_none_iff_exists'.mp raised
  rw [Leaves, raised] at left ⊢
  obtain ⟨e, surfaces, run⟩ := left
  exact ⟨e, surfaces, Recording.run_bind_of_error run⟩

theorem and_pure (left : Leaves look r j xs) (g : α → β) :
    Leaves look (r >>= fun a => pure (g a)) j xs := by
  cases raised : raised? xs with
  | none =>
    have := left.bind raised fun a => Leaves.of_pure (g a)
    rwa [List.append_nil] at this
  | some at_ => exact left.bind_of_raised (raised ▸ nofun)

/-- A generator goes through everything that is visited. -/
theorem inGenerator (left : Leaves look r j xs) (inside : ∀ a ∈ xs, Enclosed look' a.place) :
    Leaves look' r.inGenerator j xs := by
  rw [Leaves] at left ⊢
  rw [Recording.run_inGenerator]
  cases raised : raised? xs with
  | none =>
    rw [raised] at left
    obtain ⟨a, run⟩ := left
    exact ⟨a, by rw [run]; rfl⟩
  | some at_ =>
    rw [raised] at left
    obtain ⟨e, surfaces, run⟩ := left
    obtain ⟨a, mem, place, -⟩ := exists_of_raised? raised
    have left' : e.leaving .generator = at_.2.toThrown.leaving .generator := by
      cases surfaces <;> rfl
    refine ⟨_, .fromGenerator (place ▸ inside a mem), ?_⟩
    rw [run, ← left']
    rfl

end Leaves

/-- From any journal on, a computation leaves the visits of a tour behind. -/
def Travels {α : Type} (look : (List Nat → Option Value) → List Nat → Option Value)
    (r : Recording α) : Prop :=
  ∀ j, ∃ visits, Tour look j visits ∧ Leaves (look (given visits)) r j visits

namespace Travels

variable {α β γ : Type} {look : (List Nat → Option Value) → List Nat → Option Value} {i : Nat}
  {v : Value} {vs : List Value}

/-- One value is rendered, then the others, unless there was an error before. -/
theorem cons {r : Recording α} {rest : Recording β} (first : Travels (valueAt v) r)
    (others : Travels (valuesFrom (i + 1) vs) rest) (g : α → β → γ) :
    Travels (valuesFrom i (v :: vs)) (r >>= fun a => rest >>= fun b => pure (g a b)) := by
  intro j
  obtain ⟨xs, tour, left⟩ := first j
  cases raised : raised? xs with
  | none =>
    obtain ⟨ys, tour', left'⟩ := others (after xs j)
    have later (a) (mem : a ∈ ys) : ∃ k place, a.place = k :: place ∧ i < k :=
      tour'.place_valuesFrom mem
    have quiet : raised? (xs.map (.under i)) = none := by rw [raised?_under, raised, Option.map_none]
    refine ⟨xs.map (.under i) ++ ys, tour.cons (fun _ => tour') fun error => absurd raised error, ?_⟩
    refine (left.under (Tour.enclosed_first later)).bind quiet fun a => ?_
    rw [after_under]
    refine (left'.congr fun a mem => ?_).and_pure (g a)
    obtain ⟨k, place, same, less⟩ := later a mem
    rw [same]
    exact Tour.enclosed_later less place
  | some at_ =>
    have tour' : Tour (valuesFrom i (v :: vs)) j (xs.map (.under i) ++ []) :=
      tour.cons (fun quiet => by rw [raised] at quiet; cases quiet) fun _ => rfl
    have left' : Leaves (valuesFrom i (v :: vs) (given (xs.map (.under i) ++ []))) r j
        (xs.map (.under i)) := left.under (Tour.enclosed_first nofun)
    rw [List.append_nil] at tour' left'
    refine ⟨_, tour', left'.bind_of_raised ?_⟩
    rw [raised?_under, raised]
    nofun

/-- Selections that a value holds are rendered inside of a generator. -/
theorem group {r : Recording α} {k : FieldKind} (kind : kindOf v = k)
    (idle : k ≠ .thunk ∧ k ≠ .unsupported) (many : holdsMany v = true)
    (travels : Travels (valuesFrom 0 (parts none v)) r) (g : α → β) :
    Travels (valueAt v) (r.inGenerator >>= fun a => pure (g a)) := by
  intro j
  obtain ⟨visits, tour, left⟩ := travels j
  refine ⟨visits, tour.quiet kind idle, (left.inGenerator fun a mem => ?_).and_pure g⟩
  obtain ⟨k, place, same, -⟩ := tour.place_valuesFrom mem
  rw [same]
  exact enclosed_cons.mpr (.inl ⟨v, rfl, many⟩)

/-- A value that holds nothing and about which nothing is to be done. -/
theorem idle {k : FieldKind} (kind : kindOf v = k) (idle : k ≠ .thunk ∧ k ≠ .unsupported)
    (alone : parts none v = []) (a : α) : Travels (valueAt v) (pure a) := by
  refine fun j => ⟨[], Tour.quiet kind idle ?_, .of_pure a⟩
  rw [alone]
  exact .nil

theorem items {items : List Value} (each : ∀ v ∈ items, Travels (valueAt v) (render v)) (i : Nat) :
    Travels (valuesFrom i items) (renderItems items) := by
  induction items generalizing i with
  | nil => exact fun j => ⟨[], Tour.nil, Leaves.of_pure []⟩
  | cons item items ih =>
    have others := ih (fun v mem => each v (List.mem_cons_of_mem item mem)) (i + 1)
    rw [renderItems]
    exact cons (each item List.mem_cons_self) others List.cons

theorem entries {entries : List (Value × Value)}
    (each : ∀ e ∈ entries, Travels (valueAt e.2) (render e.2)) (i k : Nat) :
    Travels (valuesFrom i (entries.map Prod.snd)) (renderEntries k entries) := by
  induction entries generalizing i k with
  | nil => exact fun j => ⟨[], Tour.nil, Leaves.of_pure ""⟩
  | cons e entries ih =>
    have others := ih (fun e' mem => each e' (List.mem_cons_of_mem e mem)) (i + 1) (k + 1)
    rw [renderEntries]
    exact cons (each e List.mem_cons_self) others fun s t => separator k ++ e.1.display ++ s ++ t

theorem text (s : String) : Travels (valueAt (.text s)) (pure s) := by
  by_cases empty : isEmpty (.text s)
  · exact .idle (v := .text s) (k := .empty) (if_pos empty) (by decide) rfl s
  · exact .idle (v := .text s) (k := .string) (if_neg empty) (by decide) rfl s

/-- A value is computed, then what it gave is rendered. -/
theorem computed {thunk result : Value} {j : Journal} {r : Recording β} {f : β → Recording α} {b : β}
    (due : (Event.gives thunk result).Due j)
    (run : r.run.run j = (.ok b, (Event.gives thunk result).note j))
    (travels : Travels (valueAt result) (f b)) :
    ∃ visits, Itinerary thunk j visits ∧ Leaves (valueAt thunk (given visits)) (r >>= f) j visits := by
  obtain ⟨xs, tour, left⟩ := travels ((Event.gives thunk result).note j)
  refine ⟨_, Tour.computed due tour, ?_⟩
  have left' := left.under (Tour.enclosed_computed due)
  rw [Leaves, raised?, List.findSome?_cons, Recording.run_bind_of_ok run]
  exact left'

/-- A value about which something is done without a result. -/
theorem single {e : Event} {j : Journal} {r : Recording α} (due : e.Due j) (final : e.result? = none)
    (left : Leaves (valueAt e.about (given [⟨[], e⟩])) r j [⟨[], e⟩]) :
    ∃ visits, Itinerary e.about j visits ∧ Leaves (valueAt e.about (given visits)) r j visits :=
  ⟨_, Tour.single due final, left⟩

end Travels

theorem kindOf_of_isOther {v : Value} (other : isOther v = true) :
    kindOf v = if isEmpty v then .empty else .unsupported := by
  cases v with
  | list | tuple | text | map | deferred | stepped | failing | field => cases other
  | _ => rfl

theorem parts_of_isOther {v : Value} (other : isOther v = true) : parts none v = [] := by
  cases v with
  | list | tuple | text | map | deferred | stepped | failing | field => cases other
  | _ => rfl

/-- Rendering a value leaves the visits of its itinerary behind. -/
theorem render_travels (v : Value) : Travels (valueAt v) (render v) := by
  induction v using induction with
  | list items ih =>
    rw [render]
    exact .group (v := .list items) (k := .sequence) rfl (by decide) rfl (Travels.items ih 0)
      fun texts => braces (",".intercalate (texts.filter (!·.isEmpty)))
  | tuple items ih =>
    rw [render]
    exact .group (v := .tuple items) (k := .sequence) rfl (by decide) rfl (Travels.items ih 0)
      fun texts => braces (",".intercalate (texts.filter (!·.isEmpty)))
  | map entries ih =>
    rw [render]
    have travels := Travels.entries ih 0 0
    by_cases empty : isEmpty (.map entries)
    · exact .group (v := .map entries) (k := .empty) (if_pos empty) (by decide) rfl travels
        fun body => if body.isEmpty then "" else braces body
    · exact .group (v := .map entries) (k := .mapping) (if_neg empty) (by decide) rfl travels
        fun body => if body.isEmpty then "" else braces body
  | deferred label result ih =>
    rw [render]
    intro j
    refine Travels.computed (b := ()) (.deferred label result) ?_ ih
    cases label <;> rfl
  | stepped slot results ih =>
    rw [render_stepped]
    exact fun j => Travels.computed (.stepped slot results) rfl (ih (j.count slot))
  | failing error =>
    rw [render]
    exact fun j => Travels.single (.failing error) rfl ⟨_, .asItIs not_enclosed_nil, rfl⟩
  | field s =>
    rw [render]
    exact fun j => Travels.computed (r := pure ()) (f := fun _ => pure s) (.field s) rfl (.text s)
  | text s =>
    rw [render]
    exact .text s
  | other v other =>
    rw [render_of_isOther other]
    have kind := kindOf_of_isOther other
    split
    · rw [if_pos ‹_›] at kind
      exact .idle kind (by decide) (parts_of_isOther other) ""
    · rw [if_neg ‹_›] at kind
      exact fun j => Travels.single (.unsupported kind) rfl ⟨"", rfl⟩

/-- The log shows the noted values, one record for each in their order. -/
theorem logs_after (visits : List Visit) (j : Journal) :
    (after visits j).logs = j.logs ++ visits.filterMap (·.event.record?) := by
  induction visits generalizing j with
  | nil => exact (List.append_nil _).symm
  | cons a visits ih =>
    rw [after, List.foldl_cons, ← after, ih, Event.logs_note, List.append_assoc, List.filterMap_cons]
    cases a.event.record? <;> rfl

/-- A slot counts its computations. -/
theorem count_after (visits : List Visit) (slot : Nat) (j : Journal) :
    (after visits j).count slot = j.count slot + visits.countP (·.event.computes slot) := by
  induction visits generalizing j with
  | nil => rfl
  | cons a visits ih =>
    rw [after, List.foldl_cons, ← after, ih, a.event.count_note, List.countP_cons]
    omega

/-- The error that ends an iteration. -/
def stopIteration : Raise := .stopIteration (some "stop")

example : ((render (.list [.deferred (some "a") (.set [.null]),
    .map [(.text "k", .failing (.own .base "stop" 0))], .deferred (some "b") (.int 7)])).run.run
      .empty).2 = ⟨["thunk:a"], [Event.ignored (.set [.null])], []⟩ := rfl

end GraphClient.Selection
