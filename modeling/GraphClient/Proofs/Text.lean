import Mathlib.Data.List.Infix
import Mathlib.Data.List.TakeWhile

/-!
# Texts and what stands in them

* `Text.span_front`: a front of one kind of characters is found by the character after it.
* `Text.prefix_of_notMem`, `Text.infix_of_notMem`: what does not have a character in it stands on
  one side of it.
-/

namespace GraphClient.Text

-- What is to hold of the characters of a text is tried on these, not on all characters there are.
instance (priority := high) decidableForallMem (cs : List Char) (p : Char → Prop)
    [DecidablePred p] : Decidable (∀ c ∈ cs, p c) := List.decidableBAll p cs

instance (priority := high) decidableForallMemOption (c? : Option Char) (p : Char → Prop)
    [DecidablePred p] : Decidable (∀ c ∈ c?, p c) := Option.decidableForallMem c?

/-- A front of a text is found by the character after it. -/
theorem span_front {p : Char → Bool} {front : List Char} (rest : List Char)
    (holds : ∀ c ∈ front, p c = true) (ends : ∀ c ∈ rest.head?, p c = false) :
    (front ++ rest).takeWhile p = front ∧ (front ++ rest).dropWhile p = rest := by
  rw [List.takeWhile_append_of_pos holds, List.dropWhile_append_of_pos holds]
  cases rest with
  | nil => simp
  | cons c rest =>
    have stop : p c = false := ends c rfl
    simp [stop]

theorem head?_dropWhile (p : Char → Bool) (cs : List Char) :
    ∀ c ∈ (cs.dropWhile p).head?, p c = false := by
  intro c first
  have stops := List.head?_dropWhile_not p cs
  rw [Option.mem_def.1 first] at stops
  exact stops

variable {d : Char} {x a b : List Char}

theorem forall_getLast?_append_iff {p : Char → Prop} : (∀ c ∈ (a ++ b).getLast?, p c) ↔
    (∀ c ∈ b.getLast?, p c) ∧ (b = [] → ∀ c ∈ a.getLast?, p c) := by
  cases b with
  | nil => simp
  | cons c b => simp

/-- A beginning without a character ends before it. -/
theorem prefix_of_notMem (without : d ∉ x) (begins : x <+: a ++ d :: b) : x <+: a := by
  obtain ⟨y, split⟩ := begins
  rcases List.append_eq_append_iff.1 split with ⟨z, rfl, -⟩ | ⟨z, rfl, later⟩
  · exact List.prefix_append x z
  · cases z with
    | nil => rw [List.append_nil]
    | cons c z =>
      obtain ⟨rfl, -⟩ := List.cons.inj later
      exact absurd (List.mem_append_right a List.mem_cons_self) without

/-- A part without a character lies on one side of it. -/
theorem infix_of_notMem (without : d ∉ x) (within : x <:+: a ++ d :: b) :
    x <:+: a ∨ x <:+: b := by
  induction a with
  | nil =>
    rcases List.infix_cons_iff.1 within with begins | later
    · exact .inl (prefix_of_notMem (a := []) without begins).isInfix
    · exact .inr later
  | cons c a ih =>
    rcases List.infix_cons_iff.1 within with begins | later
    · exact .inl (prefix_of_notMem (a := c :: a) without begins).isInfix
    · exact (ih later).imp_left fun within => within.trans (List.suffix_cons c a).isInfix

/-- The first character of a kind tells where a text is to be split. -/
theorem split_unique {p : Char → Bool} {a' b' : List Char} {c c' : Char}
    (before : ∀ x ∈ a, p x = false) (before' : ∀ x ∈ a', p x = false) (here : p c = true)
    (here' : p c' = true) (same : a ++ c :: b = a' ++ c' :: b') : a = a' ∧ c = c' ∧ b = b' := by
  rcases List.append_eq_append_iff.1 same with ⟨z, rfl, rest⟩ | ⟨z, rfl, rest⟩
  · cases z with
    | nil => simpa using rest
    | cons d z =>
      obtain ⟨rfl, -⟩ := List.cons.inj rest
      rw [before' c (List.mem_append_right a List.mem_cons_self)] at here
      cases here
  · cases z with
    | nil => simpa [eq_comm] using rest
    | cons d z =>
      obtain ⟨rfl, -⟩ := List.cons.inj rest
      rw [before c' (List.mem_append_right a' List.mem_cons_self)] at here'
      cases here'

end GraphClient.Text
