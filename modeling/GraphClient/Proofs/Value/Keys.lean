import GraphClient.Value.Basic

/-!
# When two values are the same key

Two values are the same key when they are equal, when they are the same number, or when they are
tuples that agree item by item. So being the same key is symmetric and transitive
(`Value.partialEquiv`). It is not reflexive: NaN is not the same key as itself, nor is a list.
-/

namespace GraphClient

/-! ## Numbers -/

/-- What counts of a double in comparisons. NaN has nothing that counts. -/
def Binary64.amount? : Binary64 → Option (Bool ⊕ Rat)
  | nan => none
  | infinite negative => some (.inl negative)
  | x@(finite ..) => x.toRat?.map .inr

theorem Binary64.eqv_iff {x y : Binary64} :
    x.eqv y = true ↔ ∃ amount, x.amount? = some amount ∧ y.amount? = some amount := by
  cases x with
  | nan => simp [eqv, compare?, amount?]
  | infinite a =>
    cases y with
    | nan => simp [eqv, compare?, amount?]
    | infinite b => cases a <;> cases b <;> simp [eqv, compare?, amount?]
    | finite => cases a <;> simp [eqv, compare?, amount?, toRat?]
  | finite s m e =>
    cases y with
    | nan => simp [eqv, compare?, amount?]
    | infinite b => cases b <;> simp [eqv, compare?, amount?, toRat?]
    | finite s' m' e' =>
      obtain ⟨p, exact⟩ : ∃ p, (finite s m e).toRat? = some p := ⟨_, rfl⟩
      obtain ⟨q, exact'⟩ : ∃ q, (finite s' m' e').toRat? = some q := ⟨_, rfl⟩
      simp only [eqv, compare?, amount?, exact, exact']
      by_cases less : p < q
      · have other : q ≠ p := fun same => Rat.lt_irrefl (same ▸ less)
        simp [less, other]
      · by_cases same : p = q
        · subst same
          rw [if_neg less, if_pos rfl]
          simp
        · simp [less, same, Ne.symm same]

namespace Value

theorem Number.same_comm {m n : Number} (same : m.same n = true) : n.same m = true := by
  cases m <;> cases n <;> simp only [Number.same, beq_iff_eq, Binary64.eqv_iff, reduceCtorEq] at same ⊢
  · exact same.symm
  · obtain ⟨amount, left, right⟩ := same
    exact ⟨amount, right, left⟩

theorem Number.same_trans {m n o : Number} (first : m.same n = true) (second : n.same o = true) :
    m.same o = true := by
  cases m <;> cases n <;> cases o <;>
    simp only [Number.same, beq_iff_eq, Binary64.eqv_iff, reduceCtorEq] at first second ⊢
  · exact first.trans second
  · obtain ⟨amount, left, right⟩ := first
    obtain ⟨amount', left', right'⟩ := second
    obtain rfl := Option.some.inj (right.symm.trans left')
    exact ⟨amount, left, right'⟩

/-! ## Values -/

variable {a b c : Value}

/-- What it takes for two values to be the same key. -/
theorem sameKey_cases (same : sameKey a b = true) :
    a = b ∨ (∃ m n, a.number? = some m ∧ b.number? = some n ∧ m.same n = true) ∨
      ∃ xs ys, a = tuple xs ∧ b = tuple ys ∧ sameKeys xs ys = true := by
  unfold sameKey at same
  split at same
  · exact .inl rfl
  · rw [beq_iff_eq.mp same]; exact .inl rfl
  · rw [beq_iff_eq.mp same]; exact .inl rfl
  · rw [beq_iff_eq.mp same]; exact .inl rfl
  · exact .inr (.inr ⟨_, _, rfl, rfl, same⟩)
  · split at same
    · rename_i left right
      exact .inr (.inl ⟨_, _, left, right, same⟩)
    · cases same

theorem sameKey_of_number {m n : Number} (left : a.number? = some m) (right : b.number? = some n)
    (same : m.same n = true) : sameKey a b = true := by
  unfold sameKey
  split
  · rfl
  · cases left
  · cases left
  · cases left
  · cases left
  · rw [left, right]
    exact same

mutual

theorem sameKey_symm : ∀ {a b : Value}, sameKey a b = true → sameKey b a = true
  | a, b, same => by
    rcases sameKey_cases same with rfl | ⟨m, n, left, right, numbers⟩ | ⟨xs, ys, rfl, rfl, items⟩
    · exact same
    · exact sameKey_of_number right left (Number.same_comm numbers)
    · rw [sameKey]
      exact sameKeys_symm items

theorem sameKeys_symm : ∀ {xs ys : List Value}, sameKeys xs ys = true → sameKeys ys xs = true
  | [], [], _ => rfl
  | [], _ :: _, same | _ :: _, [], same => nomatch same
  | x :: xs, y :: ys, same => by
    rw [sameKeys, Bool.and_eq_true] at same ⊢
    exact ⟨sameKey_symm same.1, sameKeys_symm same.2⟩

end

mutual

theorem sameKey_trans : ∀ {a b c : Value}, sameKey a b = true → sameKey b c = true →
    sameKey a c = true
  | a, b, c, first, second => by
    rcases sameKey_cases first with rfl | ⟨m, n, left, right, numbers⟩ | ⟨xs, ys, rfl, rfl, items⟩
    · exact second
    · rcases sameKey_cases second with rfl | ⟨n', o, left', right', numbers'⟩ | ⟨_, _, rfl, -, -⟩
      · exact first
      · obtain rfl := Option.some.inj (right.symm.trans left')
        exact sameKey_of_number left right' (Number.same_trans numbers numbers')
      · cases right
    · rcases sameKey_cases second with rfl | ⟨_, _, number, -, -⟩ | ⟨_, zs, same, rfl, items'⟩
      · exact first
      · cases number
      · obtain rfl := Value.tuple.inj same
        rw [sameKey]
        exact sameKeys_trans items items'

theorem sameKeys_trans : ∀ {xs ys zs : List Value}, sameKeys xs ys = true → sameKeys ys zs = true →
    sameKeys xs zs = true
  | [], [], [], _, _ => rfl
  | [], _ :: _, _, first, _ | _ :: _, [], _, first, _ => nomatch first
  | [], [], _ :: _, _, second | _ :: _, _ :: _, [], _, second => nomatch second
  | x :: xs, y :: ys, z :: zs, first, second => by
    rw [sameKeys, Bool.and_eq_true] at first second ⊢
    exact ⟨sameKey_trans first.1 second.1, sameKeys_trans first.2 second.2⟩

end

instance partialEquiv : PartialEquivBEq Value where
  symm := sameKey_symm
  trans := sameKey_trans

/-- A text is the same key as itself only. -/
theorem text_beq {s : String} : (text s == a) = true ↔ a = text s := by
  constructor
  · intro same
    rcases sameKey_cases same with rfl | ⟨m, -, number, -, -⟩ | ⟨xs, -, tuple, -, -⟩
    · rfl
    · cases number
    · cases tuple
  · rintro rfl
    exact beq_self_eq_true s

end Value

end GraphClient
