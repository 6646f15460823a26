import GraphClient.Proofs.Pairs
import GraphClient.Proofs.Value.Keys
import GraphClient.Settings.Merge

/-!
# Settings laid over others, path by path

`Value.at?` is the value at a path of keys through maps. What stands at a path after one map was
laid over another one, in which no key is repeated (`Proper`):

* `Merge.at?_replaced`: what the upper map has there, unless both have maps there;
* `Merge.at?_joined`: where both have maps, the one laid over the other, and `Merge.keys_tables` says
  in which order its keys come;
* `Merge.at?_kept`: what the lower map has there, if the upper one does not come that far. This is so
  too if it comes to a map that misses the next key (`Merge.at?_of_misses`).
-/

namespace GraphClient

namespace Value

/-- The value at a path of keys through maps. -/
def at? : List Value → Value → Option Value
  | [], v => some v
  | k :: p, map entries => (Pairs.get? k entries).bind (at? p)
  | _ :: _, _ => none

def isMap : Value → Bool
  | map _ => true
  | _ => false

theorem exists_of_isMap {v : Value} (isMap : v.isMap = true) : ∃ entries, v = map entries := by
  cases v with
  | map entries => exact ⟨entries, rfl⟩
  | _ => cases isMap

/-- Nothing is below a value that is no map. -/
theorem at?_of_not_map {v : Value} (other : v.isMap = false) (k : Value) (p : List Value) :
    v.at? (k :: p) = none := by
  cases v with
  | map => cases other
  | _ => rfl

theorem at?_append (p q : List Value) (v : Value) : v.at? (p ++ q) = (v.at? p).bind (at? q) := by
  induction p generalizing v with
  | nil => rfl
  | cons k p ih =>
    cases v with
    | map entries =>
      rw [List.cons_append, at?, at?, Option.bind_assoc]
      exact congrArg _ (funext ih)
    | _ => rfl

/-- A value in which no map repeats a key, as far as paths go. -/
inductive Proper : Value → Prop where
  | single {v : Value} (other : v.isMap = false) : Proper v
  | map {entries : List (Value × Value)}
      (distinct : entries.Pairwise fun entry entry' => (entry.1 == entry'.1) = false)
      (all : ∀ entry ∈ entries, Proper entry.2) : Proper (map entries)

theorem Proper.entries {entries : List (Value × Value)} (proper : Proper (.map entries)) :
    entries.Pairwise (fun entry entry' => (entry.1 == entry'.1) = false) ∧
      ∀ entry ∈ entries, Proper entry.2 := by
  cases proper with
  | single other => cases other
  | map distinct all => exact ⟨distinct, all⟩

theorem Proper.get? {entries : List (Value × Value)} {k v : Value} (proper : Proper (.map entries))
    (found : Pairs.get? k entries = some v) : Proper v := by
  obtain ⟨entry, mem, rfl⟩ := Pairs.exists_mem_of_get? found
  exact proper.entries.2 entry mem

theorem Proper.at? {v w : Value} {p : List Value} (proper : Proper v) (found : v.at? p = some w) :
    Proper w := by
  induction p generalizing v with
  | nil =>
    obtain rfl := Option.some.inj found
    exact proper
  | cons k p ih =>
    cases v with
    | map entries =>
      obtain ⟨v, here, later⟩ := Option.bind_eq_some_iff.mp found
      exact ih (proper.get? here) later
    | _ => cases found

end Value

namespace Merge

open Value

variable {base changes v : Value} {p : List Value}

/-- A value laid over what was there, if anything was. -/
def onto (old? : Option Value) (v : Value) : Value :=
  match old? with
  | some old => values old v
  | none => v

theorem values_of_not_map (other : changes.isMap = false) : values base changes = changes := by
  cases changes with
  | map => cases other
  | _ => rw [values]; rintro _ ⟨⟩

theorem values_onto_not_map (other : base.isMap = false) : values base changes = changes := by
  cases changes with
  | map changes =>
    cases base with
    | map => cases other
    | _ => rw [values]; rintro _ ⟨⟩
  | _ => rw [values]; rintro _ ⟨⟩

theorem values_map (entries changes : List (Value × Value)) :
    values (map entries) (map changes) = map (tables entries changes) := by
  rw [values]

theorem tables_cons (entries : List (Value × Value)) (change : Value × Value)
    (changes : List (Value × Value)) : tables entries (change :: changes) =
      tables (Pairs.set change.1 (onto (Pairs.get? change.1 entries) change.2) entries) changes := by
  rw [tables]
  rfl

/-- A key that is changed has what is laid over the value it had; the other keys have their values. -/
theorem get?_tables {entries changes : List (Value × Value)}
    (distinct : changes.Pairwise fun change change' => (change.1 == change'.1) = false) (k : Value) :
    Pairs.get? k (tables entries changes) = match Pairs.get? k changes with
      | some v => some (onto (Pairs.get? k entries) v)
      | none => Pairs.get? k entries := by
  induction changes generalizing entries with
  | nil => rw [tables]; rfl
  | cons change changes ih =>
    obtain ⟨apart, distinct⟩ := List.pairwise_cons.mp distinct
    rw [tables_cons, ih distinct, Pairs.get?]
    by_cases same : (change.1 == k) = true
    · have later : Pairs.get? k changes = none := Pairs.get?_eq_none fun change' mem =>
        BEq.symm_false (BEq.neq_of_beq_of_neq (BEq.symm same) (apart change' mem))
      rw [later, if_pos same, Pairs.get?_set_of_beq (BEq.symm same), Pairs.get?_congr same]
    · have other : (k == change.1) = false := BEq.symm_false (Bool.eq_false_iff.mpr same)
      rw [if_neg same, Pairs.get?_set_of_not_beq other]

/-- The keys of the lower map come first, in their order; then the keys that are new, in theirs. -/
theorem keys_tables {entries changes : List (Value × Value)}
    (distinct : changes.Pairwise fun change change' => (change.1 == change'.1) = false) :
    (tables entries changes).map Prod.fst = entries.map Prod.fst ++
      (changes.map Prod.fst).filter fun k => !Pairs.contains k entries := by
  induction changes generalizing entries with
  | nil => rw [tables]; exact (List.append_nil _).symm
  | cons change changes ih =>
    obtain ⟨apart, distinct⟩ := List.pairwise_cons.mp distinct
    have later : ∀ k ∈ changes.map Prod.fst,
        Pairs.contains k (Pairs.set change.1 (onto (Pairs.get? change.1 entries) change.2) entries) =
          Pairs.contains k entries := by
      intro k listed
      obtain ⟨change', mem, rfl⟩ := List.mem_map.mp listed
      rw [Pairs.contains, Pairs.get?_set_of_not_beq (BEq.symm_false (apart change' mem)),
        Pairs.contains]
    rw [tables_cons, ih distinct, Pairs.keys_set_eq, List.map_cons, List.filter_cons,
      List.filter_congr fun k mem => congrArg not (later k mem)]
    cases Pairs.contains change.1 entries <;> simp

/-- Keys that are new go to the end. -/
theorem tables_of_new {entries changes : List (Value × Value)}
    (distinct : changes.Pairwise fun change change' => (change.1 == change'.1) = false)
    (new : ∀ change ∈ changes, Pairs.get? change.1 entries = none) :
    tables entries changes = entries ++ changes := by
  induction changes generalizing entries with
  | nil => rw [tables, List.append_nil]
  | cons change changes ih =>
    obtain ⟨apart, distinct⟩ := List.pairwise_cons.mp distinct
    obtain ⟨absent, new⟩ := List.forall_mem_cons.mp new
    rw [tables_cons, absent, ih distinct, Pairs.set_of_get?_eq_none absent, List.append_assoc]
    · rfl
    · intro change' mem
      rw [Pairs.get?_set_of_not_beq (BEq.symm_false (apart change' mem)), new change' mem]

theorem onto_of_not_map {v : Value} (single : v.isMap = false) (old? : Option Value) :
    onto old? v = v := by
  cases old? with
  | none => rfl
  | some old => exact values_of_not_map single

/-- Where the upper value has something, it counts, unless both have maps there. -/
theorem at?_replaced (proper : Proper changes) (there : changes.at? p = some v)
    (apart : v.isMap = true → ∀ old, base.at? p = some old → old.isMap = false) :
    (values base changes).at? p = some v := by
  induction p generalizing base changes with
  | nil =>
    obtain rfl := Option.some.inj there
    cases isMap : changes.isMap with
    | false => rw [values_of_not_map isMap]; rfl
    | true => rw [values_onto_not_map (apart isMap base rfl)]; rfl
  | cons k p ih =>
    cases below : changes.isMap with
    | false => rw [at?_of_not_map below] at there; cases there
    | true =>
      obtain ⟨changes, rfl⟩ := exists_of_isMap below
      obtain ⟨new, here, later⟩ := Option.bind_eq_some_iff.mp there
      cases under : base.isMap with
      | false => rwa [values_onto_not_map under]
      | true =>
        obtain ⟨entries, rfl⟩ := exists_of_isMap under
        rw [values_map, at?, get?_tables proper.entries.1, here]
        cases before : Pairs.get? k entries with
        | none => exact later
        | some old =>
          refine ih (proper.get? here) later fun isMap old' found => apart isMap old' ?_
          rw [at?, before]
          exact found

/-- Where both have maps, the one is laid over the other. -/
theorem at?_joined {entries changed : List (Value × Value)} (proper : Proper changes)
    (below : base.at? p = some (map entries)) (above : changes.at? p = some (map changed)) :
    (values base changes).at? p = some (map (tables entries changed)) := by
  induction p generalizing base changes with
  | nil =>
    obtain rfl := Option.some.inj below
    obtain rfl := Option.some.inj above
    rw [values_map]
    rfl
  | cons k p ih =>
    cases base with
    | map before =>
      cases changes with
      | map after =>
        obtain ⟨old, hereOld, laterOld⟩ := Option.bind_eq_some_iff.mp below
        obtain ⟨new, hereNew, laterNew⟩ := Option.bind_eq_some_iff.mp above
        rw [values_map, at?, get?_tables proper.entries.1, hereNew, hereOld]
        exact ih (proper.get? hereNew) laterOld laterNew
      | _ => cases above
    | _ => cases below

/-- Where the upper value has nothing, and only maps on the way there, the lower one counts. -/
theorem at?_kept (proper : Proper changes)
    (clear : ∀ q v, q <+: p → changes.at? q = some v → v.isMap = true ∧ q ≠ p) :
    (values base changes).at? p = base.at? p := by
  induction p generalizing base changes with
  | nil => exact absurd rfl (clear [] changes List.nil_prefix rfl).2
  | cons k p ih =>
    obtain ⟨changes, rfl⟩ := exists_of_isMap (clear [] changes List.nil_prefix rfl).1
    cases below : base.isMap with
    | false =>
      rw [values_onto_not_map below, at?_of_not_map below]
      exact Option.eq_none_iff_forall_ne_some.mpr fun v found =>
        (clear _ v (List.prefix_refl _) found).2 rfl
    | true =>
      obtain ⟨entries, rfl⟩ := exists_of_isMap below
      rw [values_map, at?, at?, get?_tables proper.entries.1]
      cases here : Pairs.get? k changes with
      | none => rfl
      | some new =>
        have clear' : ∀ q v, q <+: p → new.at? q = some v → v.isMap = true ∧ q ≠ p := by
          intro q v before found
          obtain ⟨isMap, short⟩ := clear (k :: q) v (List.cons_prefix_cons.mpr ⟨rfl, before⟩)
            (by rw [at?, here]; exact found)
          exact ⟨isMap, fun same => short (congrArg _ same)⟩
        cases before : Pairs.get? k entries with
        | none =>
          exact Option.eq_none_iff_forall_ne_some.mpr fun v found =>
            (clear' p v (List.prefix_refl _) found).2 rfl
        | some old => exact ih (proper.get? here) clear'

/-- Followed in the second value, a path first misses a key below levels at which both values are
maps. -/
inductive Misses : List Value → Value → Value → Prop where
  | missing {k : Value} {p : List Value} {entries changes : List (Value × Value)}
      (absent : Pairs.get? k changes = none) : Misses (k :: p) (map entries) (map changes)
  | deeper {k : Value} {p : List Value} {entries changes : List (Value × Value)} {old new : Value}
      (before : Pairs.get? k entries = some old) (after : Pairs.get? k changes = some new)
      (later : Misses p old new) : Misses (k :: p) (map entries) (map changes)

theorem at?_of_misses (proper : Proper changes) (misses : Misses p base changes) :
    (values base changes).at? p = base.at? p := by
  induction misses with
  | missing absent => rw [values_map, at?, at?, get?_tables proper.entries.1, absent]
  | deeper before after later ih =>
    rw [values_map, at?, at?, get?_tables proper.entries.1, after, before]
    exact ih (proper.get? after)

/-- What it is to lay one map over another one, at every depth. -/
structure Law (base changes merged : List (Value × Value)) : Prop where
  replaced : ∀ {p v}, (map changes).at? p = some v → v.isMap = false → (map merged).at? p = some v
  kept : ∀ {p}, Misses p (map base) (map changes) → (map merged).at? p = (map base).at? p
  keys : ∀ {p below above}, (map base).at? p = some (map below) →
    (map changes).at? p = some (map above) → ∃ members, (map merged).at? p = some (map members) ∧
      members.map Prod.fst = below.map Prod.fst ++
        (above.map Prod.fst).filter fun k => !Pairs.contains k below

theorem law {base changes : List (Value × Value)} (proper : Proper (map changes)) :
    Law base changes (tables base changes) := by
  refine ⟨fun there single => ?_, fun misses => ?_, fun below above => ?_⟩
  · rw [← values_map]
    refine at?_replaced proper there fun isMap => ?_
    rw [single] at isMap
    cases isMap
  · rw [← values_map]
    exact at?_of_misses proper misses
  · rw [← values_map]
    exact ⟨_, at?_joined proper below above, keys_tables (proper.at? above).entries.1⟩

end Merge

end GraphClient
