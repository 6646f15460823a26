import Mathlib.Data.List.Induction
import Mathlib.Data.List.Nodup
import GraphClient.Pairs

/-!
# Tables

* `Pairs.get?_set_self`, `Pairs.get?_set_of_ne`: setting a key is seen at that key and at no other.
* `Pairs.get?_merge`: what was set last counts, and where nothing was set the table before.
* `Pairs.ofList_eq_self`, `Pairs.get?_of_mem`: a list that repeats no key is a table, and holds each
  of its pairs.
* `Pairs.exists_mem_of_get?`: every value found belongs to an entry.
* `Pairs.Exchanged`: two tables that differ in one value of one key. All operations keep that, and
  no other key shows it.
-/

namespace GraphClient.Pairs

section

variable {κ α : Type} [BEq κ]

theorem exists_mem_of_get? {k : κ} {v : α} {table : List (κ × α)} (found : get? k table = some v) :
    ∃ entry ∈ table, entry.2 = v := by
  induction table with
  | nil => cases found
  | cons entry rest ih =>
    unfold get? at found
    split at found
    · exact ⟨entry, List.mem_cons_self, Option.some.inj found⟩
    · obtain ⟨entry', mem, same⟩ := ih found
      exact ⟨entry', List.mem_cons_of_mem entry mem, same⟩

/-- A key that is not there is not there after another one was removed. -/
theorem get?_erase_eq_none {k k' : κ} {table : List (κ × α)} (absent : get? k table = none) :
    get? k (erase k' table) = none := by
  induction table with
  | nil => rfl
  | cons entry rest ih =>
    rw [get?] at absent
    split at absent
    · cases absent
    · rename_i other
      rw [erase]
      split
      · exact absent
      · rw [get?, if_neg other]
        exact ih absent

theorem merge_concat (table changes : List (κ × α)) (change : κ × α) :
    merge table (changes ++ [change]) = set change.1 change.2 (merge table changes) :=
  List.foldl_concat ..

theorem ofList_concat (pairs : List (κ × α)) (pair : κ × α) :
    ofList (pairs ++ [pair]) = set pair.1 pair.2 (ofList pairs) :=
  merge_concat [] pairs pair

theorem mem_values_set {k : κ} {v : α} {table : List (κ × α)} {w : α}
    (mem : w ∈ (set k v table).map Prod.snd) : w = v ∨ w ∈ table.map Prod.snd := by
  induction table with
  | nil => exact .inl (List.mem_singleton.1 mem)
  | cons entry rest ih =>
    rw [set] at mem
    split at mem
    · exact (List.mem_cons.1 mem).imp_right (List.mem_cons_of_mem _)
    · rcases List.mem_cons.1 mem with rfl | mem
      · exact .inr List.mem_cons_self
      · exact (ih mem).imp_right (List.mem_cons_of_mem _)

/-- The values of a table with changes are those of the table and of the changes. -/
theorem mem_values_merge {table changes : List (κ × α)} {w : α}
    (mem : w ∈ (merge table changes).map Prod.snd) :
    w ∈ table.map Prod.snd ∨ w ∈ changes.map Prod.snd := by
  induction changes using List.reverseRecOn with
  | nil => exact .inl mem
  | append_singleton changes change ih =>
    rw [merge_concat] at mem
    rw [List.map_append, List.mem_append]
    rcases mem_values_set mem with rfl | mem
    · exact .inr (.inr List.mem_cons_self)
    · exact (ih mem).imp_right .inl

theorem erase_sublist (k : κ) (table : List (κ × α)) : (erase k table).Sublist table := by
  induction table with
  | nil => exact .slnil
  | cons entry rest ih =>
    rw [erase]
    split
    · exact List.sublist_cons_self entry rest
    · exact ih.cons_cons entry

theorem get?_eq_none {k : κ} {table : List (κ × α)} (others : ∀ entry ∈ table, (entry.1 == k) = false) :
    get? k table = none := by
  induction table with
  | nil => rfl
  | cons entry rest ih =>
    obtain ⟨other, others⟩ := List.forall_mem_cons.1 others
    rw [get?, other]
    exact ih others

theorem set_of_get?_eq_none {k : κ} {table : List (κ × α)}
    (absent : get? k table = none) (v : α) : set k v table = table ++ [(k, v)] := by
  induction table with
  | nil => rfl
  | cons entry rest ih =>
    rw [get?] at absent
    split at absent
    · cases absent
    · rename_i other
      rw [set, if_neg other, ih absent, List.cons_append]

theorem exists_key_of_contains {k : κ} {table : List (κ × α)} (there : contains k table = true) :
    ∃ k' ∈ table.map Prod.fst, (k' == k) = true := by
  by_contra others
  have absent : get? k table = none := get?_eq_none fun entry mem =>
    Bool.eq_false_iff.2 fun same => others ⟨entry.1, List.mem_map_of_mem mem, same⟩
  rw [contains, absent] at there
  cases there

theorem keys_set_eq (k : κ) (v : α) (table : List (κ × α)) : (set k v table).map Prod.fst =
    if contains k table then table.map Prod.fst else table.map Prod.fst ++ [k] := by
  induction table with
  | nil => rfl
  | cons entry rest ih =>
    rw [set, contains, get?]
    split
    · rfl
    · rw [List.map_cons, ih, contains]
      split <;> rfl

theorem mem_keys_set {k k' : κ} {v : α} {table : List (κ × α)}
    (mem : k' ∈ (set k v table).map Prod.fst) : k' = k ∨ k' ∈ table.map Prod.fst := by
  rw [keys_set_eq] at mem
  split at mem
  · exact .inr mem
  · rcases List.mem_append.1 mem with before | new
    · exact .inr before
    · exact .inl (List.mem_singleton.1 new)

/-- Setting a key repeats none. -/
theorem distinct_set {k : κ} {v : α} {table : List (κ × α)}
    (distinct : table.Pairwise fun entry entry' => (entry.1 == entry'.1) = false) :
    (set k v table).Pairwise fun entry entry' => (entry.1 == entry'.1) = false := by
  induction table with
  | nil => exact List.pairwise_singleton _ _
  | cons entry rest ih =>
    obtain ⟨apart, distinct⟩ := List.pairwise_cons.1 distinct
    rw [set]
    split
    · exact .cons apart distinct
    · rename_i other
      refine .cons (fun entry' mem => ?_) (ih distinct)
      rcases mem_keys_set (List.mem_map_of_mem mem) with new | before
      · rw [new]
        exact Bool.eq_false_iff.2 other
      · obtain ⟨entry'', mem'', same⟩ := List.mem_map.1 before
        rw [← same]
        exact apart entry'' mem''

/-! ### Keys that are the same without being equal -/

variable [PartialEquivBEq κ]

theorem get?_congr {k k' : κ} (same : (k == k') = true) (table : List (κ × α)) :
    get? k table = get? k' table := by
  induction table with
  | nil => rfl
  | cons entry rest ih => rw [get?, get?, BEq.congr_right same, ih]

theorem get?_set_of_beq {k k' : κ} (same : (k == k') = true) (v : α) (table : List (κ × α)) :
    get? k (set k' v table) = some v := by
  induction table with
  | nil => rw [set, get?, if_pos (BEq.symm same)]
  | cons entry rest ih =>
    rw [set]
    split
    · rename_i found
      rw [get?, if_pos (BEq.trans found (BEq.symm same))]
    · rename_i other
      rw [get?, if_neg fun found => other (BEq.trans found same), ih]

theorem get?_set_of_not_beq {k k' : κ} (other : (k == k') = false) (v : α) (table : List (κ × α)) :
    get? k (set k' v table) = get? k table := by
  have apart : ¬ (k' == k) = true := fun same => by rw [BEq.symm same] at other; cases other
  induction table with
  | nil => rw [set, get?, get?, if_neg apart, get?]
  | cons entry rest ih =>
    rw [set]
    split
    · rename_i found
      have here : ¬ (entry.1 == k) = true := fun same => apart (BEq.trans (BEq.symm found) same)
      rw [get?, if_neg here, get?, if_neg here]
    · rw [get?, get?, ih]

end

variable {κ α : Type} [BEq κ] [LawfulBEq κ]

/-- The later value of a key replaces the earlier one. -/
theorem set_set (k : κ) (v v' : α) (table : List (κ × α)) :
    set k v' (set k v table) = set k v' table := by
  induction table with
  | nil => simp only [set, BEq.rfl, if_true]
  | cons entry rest ih =>
    rw [set]
    split
    · rename_i same
      simp only [set, same, if_true]
    · rename_i other
      simp only [set, if_neg other, ih]

theorem get?_set_self (k : κ) (v : α) (table : List (κ × α)) :
    get? k (set k v table) = some v := by
  induction table with
  | nil => simp [set, get?]
  | cons entry rest ih =>
    by_cases h : (entry.1 == k) = true
    · simp [set, get?, h]
    · simp [set, get?, h, ih]

theorem get?_set_of_ne {k k' : κ} (ne : k ≠ k') (v : α) (table : List (κ × α)) :
    get? k (set k' v table) = get? k table := by
  induction table with
  | nil => simp [set, get?, ne.symm]
  | cons entry rest ih =>
    by_cases h : entry.1 = k'
    · simp [set, get?, h, ne.symm]
    · simp [set, get?, h, ih]

/-- What was set last counts; where nothing was set, the table before. -/
theorem get?_merge (k : κ) (table changes : List (κ × α)) :
    get? k (merge table changes) = (get? k (ofList changes)).or (get? k table) := by
  induction changes using List.reverseRecOn with
  | nil => rfl
  | append_singleton changes change ih =>
    rw [merge_concat, ofList_concat]
    by_cases same : k = change.1
    · subst same
      simp only [get?_set_self, Option.some_or]
    · rw [get?_set_of_ne same, get?_set_of_ne same, ih]

theorem mem_set {k : κ} {v : α} {table : List (κ × α)} {entry : κ × α}
    (mem : entry ∈ set k v table) : entry = (k, v) ∨ entry ∈ table := by
  induction table with
  | nil => exact .inl (List.mem_singleton.1 mem)
  | cons first rest ih =>
    rw [set] at mem
    split at mem
    · rename_i same
      rw [eq_of_beq same] at mem
      exact (List.mem_cons.1 mem).imp_right (List.mem_cons_of_mem _)
    · rcases List.mem_cons.1 mem with rfl | mem
      · exact .inr List.mem_cons_self
      · exact (ih mem).imp_right (List.mem_cons_of_mem _)

theorem get?_ofList_eq_none {pairs : List (κ × α)} {k : κ} (others : ∀ pair ∈ pairs, k ≠ pair.1) :
    get? k (ofList pairs) = none := by
  induction pairs using List.reverseRecOn with
  | nil => rfl
  | append_singleton pairs pair ih =>
    rw [ofList_concat, get?_set_of_ne (others pair (by simp)),
      ih fun pair mem => others pair (List.mem_append_left _ mem)]

theorem set_of_notMem {k : κ} {table : List (κ × α)} (absent : k ∉ table.map Prod.fst) (v : α) :
    set k v table = table ++ [(k, v)] := by
  induction table with
  | nil => rfl
  | cons entry rest ih =>
    rw [List.map_cons, List.mem_cons, not_or] at absent
    rw [set, if_neg (by simp [Ne.symm absent.1]), ih absent.2, List.cons_append]

/-- A list that repeats no key is a table. -/
theorem ofList_eq_self {pairs : List (κ × α)} (distinct : (pairs.map Prod.fst).Nodup) :
    ofList pairs = pairs := by
  induction pairs using List.reverseRecOn with
  | nil => rfl
  | append_singleton pairs pair ih =>
    rw [List.map_append, List.nodup_append] at distinct
    obtain ⟨distinct, -, apart⟩ := distinct
    rw [ofList_concat, ih distinct]
    exact set_of_notMem (fun mem => apart pair.1 mem pair.1 (List.mem_singleton.2 rfl) rfl) pair.2

/-- A list that repeats no key keeps each of its pairs. -/
theorem get?_of_mem {pairs : List (κ × α)} (distinct : (pairs.map Prod.fst).Nodup) {k : κ} {v : α}
    (mem : (k, v) ∈ pairs) : get? k pairs = some v := by
  induction pairs with
  | nil => cases mem
  | cons pair pairs ih =>
    obtain ⟨absent, distinct⟩ := List.nodup_cons.1 distinct
    rw [get?]
    rcases List.mem_cons.1 mem with rfl | later
    · rw [if_pos (beq_self_eq_true k)]
    · have other : pair.1 ≠ k := fun same =>
        absent (same ▸ List.mem_map_of_mem later)
      rw [if_neg (by simpa using other), ih distinct later]

theorem get?_of_notMem {k : κ} {table : List (κ × α)} (absent : k ∉ table.map Prod.fst) :
    get? k table = none := by
  refine get?_eq_none fun entry mem => ?_
  have other : entry.1 ≠ k := by
    rintro rfl
    exact absent (List.mem_map_of_mem mem)
  simpa using other

/-- What a table says of a key is one of its pairs. -/
theorem mem_of_get? {k : κ} {v : α} {table : List (κ × α)} (found : get? k table = some v) :
    (k, v) ∈ table := by
  induction table with
  | nil => cases found
  | cons entry rest ih =>
    rw [get?] at found
    split at found
    · rename_i same
      rw [← eq_of_beq same, ← Option.some.inj found]
      exact List.mem_cons_self
    · exact List.mem_cons_of_mem entry (ih found)

theorem get?_eq_none_iff {k : κ} {table : List (κ × α)} :
    get? k table = none ↔ k ∉ table.map Prod.fst := by
  refine ⟨fun none mem => ?_, get?_of_notMem⟩
  induction table with
  | nil => cases mem
  | cons entry rest ih =>
    rw [get?] at none
    split at none
    · cases none
    · rename_i other
      rcases List.mem_cons.1 mem with rfl | later
      · exact other BEq.rfl
      · exact ih none later

/-- Changes that repeat no key are all there afterwards. -/
theorem mem_values_merge_of_mem {table changes : List (κ × α)}
    (distinct : (changes.map Prod.fst).Nodup) {w : α} (mem : w ∈ changes.map Prod.snd) :
    w ∈ (merge table changes).map Prod.snd := by
  obtain ⟨⟨k, v⟩, change, rfl⟩ := List.mem_map.1 mem
  have found := get?_merge k table changes
  rw [ofList_eq_self distinct, get?_of_mem distinct change, Option.some_or] at found
  obtain ⟨entry, there, same⟩ := exists_mem_of_get? found
  exact List.mem_map.2 ⟨entry, there, same⟩

/-! ## Keys -/

theorem keys_set (k : κ) (v : α) (table : List (κ × α)) :
    (set k v table).map Prod.fst =
      if k ∈ table.map Prod.fst then table.map Prod.fst else table.map Prod.fst ++ [k] := by
  by_cases mem : k ∈ table.map Prod.fst
  · rw [if_pos mem]
    induction table with
    | nil => cases mem
    | cons entry rest ih =>
      rw [set]
      split
      · rfl
      · rename_i other
        rw [List.map_cons, List.mem_cons] at mem
        rw [List.map_cons, List.map_cons,
          ih (mem.resolve_left fun same => other (by rw [same]; exact beq_self_eq_true _))]
  · rw [if_neg mem, set_of_notMem mem, List.map_append]
    rfl

theorem nodup_set {k : κ} {table : List (κ × α)} (distinct : (table.map Prod.fst).Nodup) (v : α) :
    ((set k v table).map Prod.fst).Nodup := by
  rw [keys_set]
  split
  · exact distinct
  · rename_i absent
    rw [List.nodup_append]
    refine ⟨distinct, List.nodup_singleton k, fun a mem b single => ?_⟩
    rw [List.mem_singleton.1 single]
    rintro rfl
    exact absent mem

theorem nodup_merge {table : List (κ × α)} (distinct : (table.map Prod.fst).Nodup)
    (changes : List (κ × α)) : ((merge table changes).map Prod.fst).Nodup := by
  induction changes using List.reverseRecOn with
  | nil => exact distinct
  | append_singleton changes change ih =>
    rw [merge_concat]
    exact nodup_set ih change.2

theorem get?_erase_of_ne {k k' : κ} (ne : k ≠ k') (table : List (κ × α)) :
    get? k (erase k' table) = get? k table := by
  induction table with
  | nil => rfl
  | cons entry rest ih =>
    rw [erase]
    split
    · rename_i same
      rw [get?, if_neg (by rw [eq_of_beq same]; simpa using ne.symm)]
    · rw [get?, get?, ih]

theorem get?_erase_self {k : κ} {table : List (κ × α)} (distinct : (table.map Prod.fst).Nodup) :
    get? k (erase k table) = none := by
  induction table with
  | nil => rfl
  | cons entry rest ih =>
    obtain ⟨absent, distinct⟩ := List.nodup_cons.1 distinct
    rw [erase]
    split
    · rename_i same
      refine get?_eq_none fun entry' mem => Bool.eq_false_iff.2 fun same' => absent ?_
      rw [eq_of_beq same, ← eq_of_beq same']
      exact List.mem_map_of_mem mem
    · rename_i other
      rw [get?, if_neg other]
      exact ih distinct

theorem get?_filter {p : κ → Bool} {k : κ} (kept : p k = true) (table : List (κ × α)) :
    get? k (table.filter fun entry => p entry.1) = get? k table := by
  induction table with
  | nil => rfl
  | cons entry rest ih =>
    rw [List.filter_cons]
    split
    · rw [get?, get?, ih]
    · rename_i dropped
      have other : entry.1 ≠ k := by
        rintro rfl
        exact dropped kept
      rw [ih, get?, if_neg (by simpa using other)]

/-! ## Tables that differ in one value -/

/-- Two tables with the same keys, and the same values but that a value of one key is exchanged for
another one. -/
def Exchanged (k : κ) (v v' : α) (table table' : List (κ × α)) : Prop :=
  List.Forall₂ (fun entry entry' => entry.1 = entry'.1 ∧
    (entry.2 = entry'.2 ∨ entry.1 = k ∧ entry.2 = v ∧ entry'.2 = v')) table table'

namespace Exchanged

variable {k k' : κ} {v v' w w' : α} {table table' changes changes' : List (κ × α)}

omit [BEq κ] [LawfulBEq κ] in
theorem refl (table : List (κ × α)) : Exchanged k v v' table table :=
  List.forall₂_same.2 fun _ _ => ⟨rfl, .inl rfl⟩

theorem set (exchanged : Exchanged k v v' table table')
    (values : w = w' ∨ k' = k ∧ w = v ∧ w' = v') :
    Exchanged k v v' (Pairs.set k' w table) (Pairs.set k' w' table') := by
  induction exchanged with
  | nil => exact .cons ⟨rfl, values⟩ .nil
  | @cons entry entry' rest rest' here later ih =>
    obtain ⟨key, value⟩ := entry
    obtain ⟨key', value'⟩ := entry'
    obtain ⟨rfl, values'⟩ := here
    rw [Pairs.set, Pairs.set]
    split
    · rename_i same
      exact .cons ⟨rfl, by rwa [eq_of_beq same]⟩ later
    · exact .cons ⟨rfl, values'⟩ ih

omit [LawfulBEq κ] in
theorem erase (exchanged : Exchanged k v v' table table') (k' : κ) :
    Exchanged k v v' (Pairs.erase k' table) (Pairs.erase k' table') := by
  induction exchanged with
  | nil => exact .nil
  | @cons entry entry' rest rest' here later ih =>
    obtain ⟨key, value⟩ := entry
    obtain ⟨key', value'⟩ := entry'
    obtain ⟨rfl, values⟩ := here
    rw [Pairs.erase, Pairs.erase]
    split
    · exact later
    · exact .cons ⟨rfl, values⟩ ih

omit [BEq κ] [LawfulBEq κ] in
theorem filter (exchanged : Exchanged k v v' table table') (p : κ → Bool) :
    Exchanged k v v' (table.filter fun entry => p entry.1)
      (table'.filter fun entry => p entry.1) := by
  induction exchanged with
  | nil => exact .nil
  | @cons entry entry' rest rest' here later ih =>
    rw [List.filter_cons, List.filter_cons, ← here.1]
    split
    · exact .cons here ih
    · exact ih

theorem merge (exchanged : Exchanged k v v' table table')
    (exchanges : Exchanged k v v' changes changes') :
    Exchanged k v v' (Pairs.merge table changes) (Pairs.merge table' changes') := by
  induction exchanges generalizing table table' with
  | nil => exact exchanged
  | @cons entry entry' rest rest' here _ ih =>
    have first : Exchanged k v v' (Pairs.set entry.1 entry.2 table)
        (Pairs.set entry'.1 entry'.2 table') := by
      rw [← here.1]
      exact exchanged.set here.2
    exact ih first

/-- No other key shows the exchange. -/
theorem get?_of_ne (exchanged : Exchanged k v v' table table') (ne : k' ≠ k) :
    get? k' table = get? k' table' := by
  induction exchanged with
  | nil => rfl
  | @cons entry entry' rest rest' here _ ih =>
    obtain ⟨same, values⟩ := here
    rw [get?, get?, ← same, ih]
    split
    · rename_i found
      rcases values with value | ⟨key, -, -⟩
      · rw [value]
      · exact absurd ((eq_of_beq found).symm.trans key) ne
    · rfl

end Exchanged

end GraphClient.Pairs
