import GraphClient.Proofs.Masking.Bearer

/-!
# Where words end

A character that can stand behind the word of a passage stands in no word itself
(`Secret.joins`). So the word of a passage goes up to the first such character, and it is decided
without a search whether one ends there. Addresses are left out, since what stands behind a scheme
may be what a scheme is made of.

* `Secret.Occurrence.name_eq`: the word of a passage.
* `Mask.hide_past`: a front in which no passage begins is passed over.
-/

namespace GraphClient

namespace Text

theorem isBlank_of_isLetter {c : Char} (letter : isLetter c = true) : isBlank c = false := by
  refine Secret.isBlank_of_isFiller (Secret.isFiller_of_token ?_)
  rw [Secret.isTokenChar, letter]
  rfl

/-- What holds of all ASCII letters and digits. -/
theorem forall_isAlphanum {P : Char → Prop}
    (ascii : ∀ n < 128, (Char.ofNat n).isAlphanum = true → P (Char.ofNat n)) {c : Char}
    (alphanum : c.isAlphanum = true) : P c := by
  have low : c.toNat < 128 := Nat.lt_of_le_of_lt (Mask.le_of_isAlphanum alphanum) (by decide)
  simpa only [Char.ofNat_toNat] using ascii c.toNat low (by rwa [Char.ofNat_toNat])

end Text

namespace Secret

open Passage

variable {secret : Secret} {c : Char} {cs front later : List Char}

theorem wordless_of_isBlank (secret : Secret) (blank : Text.isBlank c = true) :
    secret.Wordless c := by
  have same : Text.smallLetter c = c := by
    refine Text.smallLetter_of_not_isLetter ?_
    by_contra letter
    rw [Text.isBlank_of_isLetter (Bool.not_eq_false _ ▸ letter)] at blank
    cases blank
  intro w listed mem
  have visible : ∀ d ∈ w.toList, Text.isBlank d = false := by
    have all : ∀ secret : Secret, ∀ w ∈ secret.words, ∀ d ∈ w.toList, Text.isBlank d = false := by
      intro secret
      cases secret <;> (unfold words; decide)
    exact all secret w listed
  rw [same] at mem
  rw [visible c mem] at blank
  cases blank

theorem joins_cases (other : secret ≠ address) (join : secret.joins c = true) :
    Text.isBlank c = true ∨ c ∈ ['"', '\'', ':', '='] := by
  cases secret <;>
    simp only [joins, isFiller, isQuote, isSeparator, Bool.or_eq_true, decide_eq_true_eq] at join
  case address => exact absurd rfl other
  all_goals
    simp only [List.mem_cons, List.not_mem_nil, or_false]
    tauto

theorem wordless_of_sign (other : secret ≠ address) :
    ∀ c ∈ ['"', '\'', ':', '=', '/', '@'], secret.Wordless c := by
  cases secret with
  | address => exact absurd rfl other
  | key | bearer | authorization | password =>
    unfold Wordless words
    decide

theorem wordless_of_joins (other : secret ≠ address) (join : secret.joins c = true) :
    secret.Wordless c := by
  rcases joins_cases other join with blank | sign
  · exact wordless_of_isBlank secret blank
  · exact wordless_of_sign other c (List.mem_append_left ['/', '@'] sign)

namespace Occurrence

variable (o : secret.Occurrence)

/-- The word of a passage goes up to the first character that can stand behind one. -/
theorem name_eq (other : secret ≠ address) (begins : o.body <+: cs) :
    o.name = cs.takeWhile fun c => !secret.joins c := by
  obtain ⟨later, rfl⟩ := begins
  obtain ⟨c, between, split⟩ := List.exists_cons_of_ne_nil o.between_filled
  have join : secret.joins c = true := o.joins_between (split ▸ List.mem_cons_self)
  have plain : ∀ d ∈ o.name, (!secret.joins d) = true := by
    intro d mem
    cases join' : secret.joins d with
    | false => rfl
    | true => exact absurd mem ((wordless_of_joins other join').notMem o)
  have ends : ∀ d ∈ (c :: (between ++ (o.value ++ secret.closing)) ++ later).head?,
      (!secret.joins d) = false := by
    rintro d ⟨⟩
    rw [join]
    rfl
  rw [o.body_eq_between, split, List.cons_append, List.append_assoc o.name]
  exact (Text.span_front _ plain ends).1.symm

/-- The word of a passage ends where a character can stand behind it. -/
theorem name_eq_front (other : secret ≠ address) (plain : ∀ d ∈ front, secret.joins d = false)
    (join : secret.joins c = true) (begins : o.body <+: front ++ c :: later) : o.name = front := by
  rw [o.name_eq other begins]
  refine (Text.span_front (c :: later) (fun d mem => ?_) ?_).1
  · rw [plain d mem]
    rfl
  · rintro d ⟨⟩
    rw [join]
    rfl

/-- No passage begins in a front in which no word ends at a character that can stand behind it. -/
theorem not_prefix_past (other : secret ≠ address) (plain : ∀ d ∈ front, secret.joins d = false)
    (wordless : secret.Wordless c) (apart : secret.joins c = true → ¬ IsWord secret.words front) :
    ¬ o.body <+: front ++ c :: later := by
  intro begins
  cases join : secret.joins c with
  | true => exact apart join (o.name_eq_front other plain join begins ▸ o.word)
  | false =>
    have name := o.name_eq other begins
    rw [List.takeWhile_append_of_pos (fun d mem => by rw [plain d mem]; rfl),
      List.takeWhile_cons_of_pos (by simp [join])] at name
    exact wordless.notMem o (name ▸ List.mem_append_right front List.mem_cons_self)

end Occurrence

/-- No passage stands in a text without a character that could stand behind its word. -/
theorem free_of_no_joins (plain : ∀ c ∈ cs, secret.joins c = false) : secret.Free cs := by
  intro o within
  obtain ⟨c, between, split⟩ := List.exists_cons_of_ne_nil o.between_filled
  have mem : c ∈ o.body := by
    rw [o.body_eq_between, split]
    simp
  have join := o.joins_between (split ▸ List.mem_cons_self)
  rw [plain c (within.mem mem)] at join
  cases join

end Secret

namespace Mask

open Secret Passage

variable {secret : Secret} {c : Char} {front : List Char}

/-- A front in which no word ends is passed over, together with a character that stands in no
word. -/
theorem hide_past (other : secret ≠ address) (plain : ∀ d ∈ front, secret.joins d = false)
    (wordless : secret.Wordless c)
    (apart : secret.joins c = true → ¬ EndsInWord secret.words front) (later : List Char) :
    hide (front ++ c :: later) secret = front ++ c :: hide later secret := by
  refine hide_through fun x part o => ?_
  refine o.not_prefix_past other (fun d mem => plain d (part.mem mem)) wordless fun join isWord => ?_
  obtain ⟨before, split⟩ := part
  exact apart join (endsInWord_iff.2 ⟨before, x, split.symm, isWord⟩)

/-- A character that stands in no word is passed over. -/
theorem hide_past_one (other : secret ≠ address) (wordless : secret.Wordless c)
    (later : List Char) : hide (c :: later) secret = c :: hide later secret := by
  have apart : ¬ EndsInWord secret.words [] := by
    cases secret <;> (unfold words; decide)
  have none : ∀ d ∈ [], secret.joins d = false := fun _ mem => absurd mem List.not_mem_nil
  exact hide_past other none wordless (fun _ => apart) later

end Mask

end GraphClient
