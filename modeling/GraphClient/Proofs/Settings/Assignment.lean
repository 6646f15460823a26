import GraphClient.Proofs.Settings.Merge

/-!
# Settings set at paths

`put` sets the value at a path of a map and begins the maps on the way. A map made by setting values
at paths of which none goes on from another one (`Separate`) has these values there, and nothing
where a path parts from them (`at?_puts_self`, `at?_puts_of_separate`).
-/

namespace GraphClient.Merge

open Value

/-- The entries of the map at a key, none if there is no map. -/
def inner (k : Value) (table : List (Value × Value)) : List (Value × Value) :=
  match Pairs.get? k table with
  | some (.map entries) => entries
  | _ => []

/-- Sets the value at a path. -/
def put : List Value → Value → List (Value × Value) → List (Value × Value)
  | [], _, table => table
  | [k], v, table => Pairs.set k v table
  | k :: k' :: p, v, table => Pairs.set k (.map (put (k' :: p) v (inner k table))) table

/-- Sets the values at several paths, in order. -/
def puts (settings : List (List Value × Value)) (table : List (Value × Value)) :
    List (Value × Value) :=
  settings.foldl (fun table setting => put setting.1 setting.2 table) table

/-- Neither path goes on from the other. -/
def Separate (p q : List Value) : Prop := ¬ p <+: q ∧ ¬ q <+: p

/-- A path of one text at least. -/
def Named (p : List Value) : Prop := p ≠ [] ∧ ∀ k ∈ p, ∃ s, k = text s

variable {p q : List Value} {v : Value} {table : List (Value × Value)}

theorem separate_cons {k k' : Value} (separate : Separate (k :: p) (k' :: q)) :
    k ≠ k' ∨ k = k' ∧ Separate p q := by
  by_cases same : k = k'
  · refine .inr ⟨same, fun front => separate.1 ?_, fun front => separate.2 ?_⟩
    · exact List.cons_prefix_cons.mpr ⟨same, front⟩
    · exact List.cons_prefix_cons.mpr ⟨same.symm, front⟩
  · exact .inl same

theorem beq_of_ne_text {k k' : Value} (text : ∃ s, k' = .text s) (other : k ≠ k') :
    (k == k') = false := by
  obtain ⟨s, rfl⟩ := text
  exact Bool.eq_false_iff.mpr fun same => other (text_beq.mp (BEq.symm same))

theorem at?_inner (k k' : Value) (p : List Value) (table : List (Value × Value)) :
    (map (inner k table)).at? (k' :: p) = (map table).at? (k :: k' :: p) := by
  have below : (map table).at? (k :: k' :: p) = (Pairs.get? k table).bind (at? (k' :: p)) := by
    rw [at?]
  rw [inner, below]
  cases Pairs.get? k table with
  | none => rfl
  | some v => cases v <;> rfl

theorem at?_put_self (named : Named p) (v : Value) (table : List (Value × Value)) :
    (map (put p v table)).at? p = some v := by
  have refl : ∀ k ∈ p, (k == k) = true := fun k mem => by
    obtain ⟨s, rfl⟩ := named.2 k mem
    exact text_beq.mpr rfl
  replace named := named.1
  induction p generalizing table with
  | nil => exact absurd rfl named
  | cons k p ih =>
    obtain ⟨same, refl⟩ := List.forall_mem_cons.mp refl
    cases p with
    | nil =>
      rw [put, at?, Pairs.get?_set_of_beq same]
      rfl
    | cons k' p =>
      rw [put, at?, Pairs.get?_set_of_beq same]
      exact ih _ refl (List.cons_ne_nil _ _)

/-- Setting the value at a path is not seen where another path parts from it. -/
theorem at?_put_of_separate (named : Named p) (separate : Separate q p) (v : Value)
    (table : List (Value × Value)) : (map (put p v table)).at? q = (map table).at? q := by
  replace named := named.2
  induction p generalizing q table with
  | nil => exact absurd List.nil_prefix separate.2
  | cons k p ih =>
    obtain ⟨text, texts⟩ := List.forall_mem_cons.mp named
    cases q with
    | nil => exact absurd List.nil_prefix separate.1
    | cons k' q =>
      rcases separate_cons separate with other | ⟨rfl, apart⟩
      · cases p <;> rw [put, at?, at?, Pairs.get?_set_of_not_beq (beq_of_ne_text text other)]
      · have same : (k' == k') = true := by
          obtain ⟨s, rfl⟩ := text
          exact text_beq.mpr rfl
        cases p with
        | nil => exact absurd List.nil_prefix apart.2
        | cons k p =>
          cases q with
          | nil => exact absurd List.nil_prefix apart.1
          | cons k'' q =>
            rw [put, at?, Pairs.get?_set_of_beq same, ← at?_inner]
            exact ih apart _ texts

theorem proper_set {k : Value} (single : Proper v) (proper : Proper (map table)) :
    Proper (map (Pairs.set k v table)) := by
  refine .map (Pairs.distinct_set proper.entries.1) fun entry mem => ?_
  rcases Pairs.mem_values_set (List.mem_map_of_mem mem) with value | before
  · rw [value]
    exact single
  · obtain ⟨entry', mem', value⟩ := List.mem_map.mp before
    rw [← value]
    exact proper.entries.2 entry' mem'

theorem proper_inner {k : Value} (proper : Proper (map table)) : Proper (map (inner k table)) := by
  unfold inner
  split
  · rename_i found
    exact proper.get? found
  · exact .map .nil (List.forall_mem_nil _)

theorem proper_put (single : v.isMap = false) (proper : Proper (map table)) :
    Proper (map (put p v table)) := by
  induction p generalizing table with
  | nil => exact proper
  | cons k p ih =>
    cases p with
    | nil => exact proper_set (.single single) proper
    | cons k' p => exact proper_set (ih (proper_inner proper)) proper

/-- Nothing stands below a value that is no map. -/
theorem at?_below {u w : Value} {rest : List Value} (found : w.at? p = some v)
    (single : v.isMap = false) (there : w.at? (p ++ rest) = some u) : rest = [] ∧ u = v := by
  rw [at?_append, found, Option.bind_some] at there
  cases rest with
  | nil => exact ⟨rfl, (Option.some.inj there).symm⟩
  | cons k rest =>
    rw [at?_of_not_map single] at there
    cases there

theorem at?_of_meets {u w : Value} (found : w.at? p = some v) (single : v.isMap = false)
    (there : w.at? q = some u) (single' : u.isMap = false) (meets : ¬ Separate p q) :
    p = q ∧ v = u := by
  by_cases front : p <+: q
  · obtain ⟨rest, rfl⟩ := front
    obtain ⟨rfl, same⟩ := at?_below found single there
    exact ⟨(List.append_nil p).symm, same.symm⟩
  · obtain ⟨rest, rfl⟩ : q <+: p := not_not.mp fun other => meets ⟨front, other⟩
    obtain ⟨rfl, same⟩ := at?_below there single' found
    exact ⟨List.append_nil q, same⟩

/-! ## Several settings -/

/-- Settings of which none is on the way to another one, and none is a map. -/
structure Tidy (settings : List (List Value × Value)) : Prop where
  named : ∀ setting ∈ settings, Named setting.1
  single : ∀ setting ∈ settings, setting.2.isMap = false
  apart : settings.Pairwise fun setting setting' => Separate setting.1 setting'.1

variable {settings : List (List Value × Value)} {setting : List Value × Value}

theorem puts_concat (settings : List (List Value × Value)) (setting : List Value × Value)
    (table : List (Value × Value)) :
    puts (settings ++ [setting]) table = put setting.1 setting.2 (puts settings table) :=
  List.foldl_concat ..

theorem Tidy.init (tidy : Tidy (settings ++ [setting])) : Tidy settings where
  named s mem := tidy.named s (List.mem_append_left _ mem)
  single s mem := tidy.single s (List.mem_append_left _ mem)
  apart := (List.pairwise_append.mp tidy.apart).1

theorem Tidy.proper_puts (tidy : Tidy settings) : Proper (map (puts settings [])) := by
  induction settings using List.reverseRecOn with
  | nil => exact .map .nil (List.forall_mem_nil _)
  | append_singleton settings setting ih =>
    rw [puts_concat]
    exact proper_put (tidy.single setting (List.mem_append_right _ List.mem_cons_self)) (ih tidy.init)

/-- The value set at a path is there in the end. -/
theorem Tidy.at?_puts (tidy : Tidy settings) (mem : setting ∈ settings) :
    (map (puts settings [])).at? setting.1 = some setting.2 := by
  induction settings using List.reverseRecOn with
  | nil => cases mem
  | append_singleton settings last ih =>
    have named := tidy.named last (List.mem_append_right _ List.mem_cons_self)
    rw [puts_concat]
    rcases List.mem_append.mp mem with earlier | here
    · have apart := (List.pairwise_append.mp tidy.apart).2.2 setting earlier last List.mem_cons_self
      rw [at?_put_of_separate named apart, ih tidy.init earlier]
    · obtain rfl := List.mem_singleton.mp here
      exact at?_put_self named _ _

theorem at?_puts_of_separate (named : ∀ setting ∈ settings, Named setting.1)
    (separate : ∀ setting ∈ settings, Separate q setting.1) (table : List (Value × Value)) :
    (map (puts settings table)).at? q = (map table).at? q := by
  induction settings generalizing table with
  | nil => rfl
  | cons setting settings ih =>
    obtain ⟨here, named⟩ := List.forall_mem_cons.mp named
    obtain ⟨apart, separate⟩ := List.forall_mem_cons.mp separate
    exact (ih named separate _).trans (at?_put_of_separate here apart _ _)

/-- What is at a path is a value that was set there, or a map on the way to one. -/
theorem Tidy.cases (tidy : Tidy settings) (found : (map (puts settings [])).at? p = some v) :
    (p, v) ∈ settings ∨ v.isMap = true ∧ (p = [] ∨ ∃ setting ∈ settings, p <+: setting.1) := by
  by_cases separate : ∀ setting ∈ settings, Separate p setting.1
  · rw [at?_puts_of_separate tidy.named separate] at found
    cases p with
    | nil =>
      obtain rfl := Option.some.inj found
      exact .inr ⟨rfl, .inl rfl⟩
    | cons => cases found
  · simp only [not_forall] at separate
    obtain ⟨setting, mem, meets⟩ := separate
    have there := tidy.at?_puts mem
    cases isMap : v.isMap with
    | false =>
      obtain ⟨rfl, rfl⟩ := at?_of_meets found isMap there (tidy.single setting mem) meets
      exact .inl mem
    | true =>
      refine .inr ⟨rfl, .inr ⟨setting, mem, not_not.mp fun other => ?_⟩⟩
      obtain ⟨rest, rfl⟩ : setting.1 <+: p := not_not.mp fun other' => meets ⟨other, other'⟩
      obtain ⟨rfl, -⟩ := at?_below there (tidy.single setting mem) found
      rw [List.append_nil] at other
      exact other (List.prefix_refl _)

/-! ### One key -/

variable {k : String} {table' : List (Value × Value)}

/-- What a path sets at its first key, given what was there. -/
def setBelow (p : List Value) (v : Value) (old? : Option Value) : Value :=
  match p with
  | [] => v
  | k :: p =>
    .map (put (k :: p) v (match old? with
      | some (.map entries) => entries
      | _ => []))

theorem put_cons (k : Value) (p : List Value) (v : Value) (table : List (Value × Value)) :
    put (k :: p) v table = Pairs.set k (setBelow p v (Pairs.get? k table)) table := by
  cases p <;> rfl

theorem get?_put_text (k : String) (p : List Value) (v : Value) (table : List (Value × Value)) :
    Pairs.get? (text k) (put (text k :: p) v table) =
      some (setBelow p v (Pairs.get? (text k) table)) := by
  rw [put_cons, Pairs.get?_set_of_beq (text_beq.mpr rfl)]

theorem get?_put_text_of_ne {k' : String} (other : k' ≠ k) (p : List Value) (v : Value)
    (table : List (Value × Value)) :
    Pairs.get? (text k) (put (text k' :: p) v table) = Pairs.get? (text k) table := by
  rw [put_cons, Pairs.get?_set_of_not_beq (beq_of_ne_text ⟨k', rfl⟩ ?_)]
  exact fun same => other (Value.text.inj same).symm

/-- Whether a setting stands at or below a key. -/
def concerns (k : String) (setting : List Value × Value) : Bool :=
  match setting.1 with
  | text k' :: _ => k' == k
  | _ => false

/-- What a key has in the end depends on the settings at and below it. -/
theorem get?_puts_filter {settings : List (List Value × Value)}
    (named : ∀ setting ∈ settings, Named setting.1)
    (same : Pairs.get? (text k) table = Pairs.get? (text k) table') :
    Pairs.get? (text k) (puts settings table) =
      Pairs.get? (text k) (puts (settings.filter (concerns k)) table') := by
  induction settings generalizing table table' with
  | nil => exact same
  | cons setting settings ih =>
    obtain ⟨path, v⟩ := setting
    obtain ⟨here, later⟩ := List.forall_mem_cons.mp named
    obtain ⟨first, p, rfl⟩ := List.exists_cons_of_ne_nil here.1
    obtain ⟨k', rfl⟩ := here.2 first List.mem_cons_self
    by_cases found : k' = k
    · subst found
      have kept : concerns k' (text k' :: p, v) = true := beq_self_eq_true k'
      rw [List.filter_cons_of_pos kept]
      refine ih later ?_
      rw [get?_put_text, get?_put_text, same]
    · have dropped : concerns k (text k' :: p, v) = false := beq_eq_false_iff_ne.mpr found
      rw [List.filter_cons_of_neg (Bool.eq_false_iff.mp dropped)]
      refine ih later ?_
      rw [get?_put_text_of_ne found, same]

/-! ## Settings laid over others -/

variable {file : List (Value × Value)}

theorem Tidy.at?_tables_given (tidy : Tidy settings) (mem : setting ∈ settings)
    (file : List (Value × Value)) :
    (map (tables file (puts settings []))).at? setting.1 = some setting.2 := by
  rw [← values_map]
  refine at?_replaced tidy.proper_puts (tidy.at?_puts mem) fun isMap => ?_
  rw [tidy.single setting mem] at isMap
  cases isMap

theorem Tidy.at?_tables_kept (tidy : Tidy settings)
    (separate : ∀ setting ∈ settings, Separate p setting.1) :
    (map (tables file (puts settings []))).at? p = (map file).at? p := by
  cases none : settings with
  | nil => rw [puts, List.foldl_nil, tables]
  | cons setting settings' =>
    rw [← none, ← values_map]
    refine at?_kept tidy.proper_puts fun q v front found => ?_
    have nonempty : p ≠ [] := fun empty =>
      (separate setting (by rw [none]; exact List.mem_cons_self)).1 (empty ▸ List.nil_prefix)
    rcases tidy.cases found with mem | ⟨isMap, rfl | ⟨setting, mem, onTheWay⟩⟩
    · exact absurd front (separate _ mem).2
    · exact ⟨isMap, nonempty.symm⟩
    · exact ⟨isMap, fun same => (separate setting mem).1 (same ▸ onTheWay)⟩

/-- Where there is no map, a map on the way to a setting replaces what is there. -/
theorem Tidy.at?_tables_replaced (tidy : Tidy settings)
    (found : (map (puts settings [])).at? p = some v)
    (other : ∀ old, (map file).at? p = some old → old.isMap = false) :
    (map (tables file (puts settings []))).at? p = some v := by
  rw [← values_map]
  exact at?_replaced tidy.proper_puts found fun _ => other

/-- There is no value but those that were set and those that were there. -/
theorem Tidy.at?_tables_cases (tidy : Tidy settings) (single : v.isMap = false)
    (found : (map (tables file (puts settings []))).at? p = some v) :
    (p, v) ∈ settings ∨ (map file).at? p = some v := by
  by_cases separate : ∀ setting ∈ settings, Separate p setting.1
  · exact .inr (tidy.at?_tables_kept separate ▸ found)
  · simp only [not_forall] at separate
    obtain ⟨setting, mem, meets⟩ := separate
    have there := tidy.at?_tables_given mem file
    obtain ⟨rfl, rfl⟩ := at?_of_meets found single there (tidy.single setting mem) meets
    exact .inl mem

/-- A map laid over a value is laid over the entries of that value. -/
theorem onto_map {changes : List (Value × Value)} (k : Value)
    (distinct : changes.Pairwise fun change change' => (change.1 == change'.1) = false) :
    onto (Pairs.get? k table) (.map changes) = .map (tables (inner k table) changes) := by
  have fresh : tables [] changes = changes := tables_of_new distinct fun _ _ => rfl
  rw [inner]
  cases Pairs.get? k table with
  | none => rw [onto, fresh]
  | some old =>
    rw [onto]
    cases old with
    | map entries => exact values_map entries changes
    | _ =>
      rw [values_onto_not_map rfl]
      exact congrArg _ fresh.symm

end GraphClient.Merge
