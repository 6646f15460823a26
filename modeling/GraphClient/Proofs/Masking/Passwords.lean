import GraphClient.Proofs.Masking.Leftover
import GraphClient.Proofs.Masking.Words

/-!
# A password in a message

A password is logged behind a word for it and a separator: as plain text, as a member of a JSON
object, or as an entry of a table that is shown with single quotes. Between the word and the
separator a double quote is passed over, but not a single one, so that the last form is not masked.

* `Mask.hide_password_logged`: what the pass for passwords makes of a logged password; the other
  passes leave it as it is.
* `Mask.apply_logged`: the masked message.
* `Mask.apply_logged_eq_iff`: when it does not tell the password.
-/

namespace GraphClient

/-- How a word and its value are quoted in a message. -/
inductive Quoting where
  | bare | double | single
deriving DecidableEq

def Quoting.text : Quoting → String
  | bare => ""
  | double => "\""
  | single => "'"

namespace Mask

open Secret Passage

/-- A text of ASCII letters and digits. -/
def IsPlain (s : String) : Prop := ∀ c ∈ s.toList, c.isAlphanum = true

instance (s : String) : Decidable (IsPlain s) :=
  inferInstanceAs (Decidable (∀ c ∈ s.toList, c.isAlphanum = true))

/-- What stands between a word and its value, but for quotes. -/
def separators : List String := [":", "=", ": ", "= "]

/-- A value that is logged behind a word for it. -/
def logged (q : Quoting) (word separator value : String) : String :=
  q.text ++ word ++ q.text ++ separator ++ q.text ++ value ++ q.text

section Logged

variable {q : Quoting} {word value : String} {s : Char} {gap : List Char}

theorem exists_separator_of_mem {separator : String} (listed : separator ∈ separators) :
    ∃ s gap, separator.toList = s :: gap ∧ isSeparator s = true ∧ gap ∈ [[], [' ']] := by
  simp only [separators, List.mem_cons, List.not_mem_nil, or_false] at listed
  rcases listed with rfl | rfl | rfl | rfl
  · exact ⟨':', [], rfl, rfl, by decide⟩
  · exact ⟨'=', [], rfl, rfl, by decide⟩
  · exact ⟨':', [' '], rfl, rfl, by decide⟩
  · exact ⟨'=', [' '], rfl, rfl, by decide⟩

/-- The characters behind the separator. -/
def quotedValue (q : Quoting) (value : String) : List Char :=
  q.text.toList ++ (value.toList ++ q.text.toList)

theorem toList_logged {separator : String} (split : separator.toList = s :: gap) :
    (logged q word separator value).toList =
      (q.text.toList ++ (word.toList ++ q.text.toList)) ++ s :: (gap ++ quotedValue q value) := by
  simp only [logged, quotedValue, String.toList_append, split, List.append_assoc, List.cons_append]

/-- What all quotes, letters and digits are is so behind the separator. -/
theorem forall_quotedValue (plain : IsPlain value) {P : Char → Prop}
    (ascii : ∀ n < 128, (Char.ofNat n).isAlphanum = true → P (Char.ofNat n))
    (quotes : ∀ c ∈ ['"', '\''], P c) : ∀ c ∈ quotedValue q value, P c := by
  have quoted : ∀ c ∈ q.text.toList, c ∈ ['"', '\''] := by
    cases q <;> decide
  refine List.forall_mem_append.2 ⟨fun c mem => quotes c (quoted c mem),
    List.forall_mem_append.2 ⟨fun c mem => ?_, fun c mem => quotes c (quoted c mem)⟩⟩
  exact Text.forall_isAlphanum ascii (plain c mem)

/-- Behind the separator nothing is masked. -/
theorem hide_quotedValue {secret : Secret} (other : secret ≠ address)
    (blank : gap ∈ [[], [' ']]) (plain : IsPlain value) :
    hide (gap ++ quotedValue q value) secret = gap ++ quotedValue q value := by
  have value : hide (quotedValue q value) secret = quotedValue q value := by
    refine hide_of_free ?_
    by_cases bearers : secret = bearer
    · subst bearers
      exact free_of_no_joins (forall_quotedValue plain (by decide) (by decide))
    · exact free_of_no_separator bearers (forall_quotedValue plain (by decide) (by decide))
  simp only [List.mem_cons, List.not_mem_nil, or_false] at blank
  rcases blank with rfl | rfl
  · exact value
  · rw [List.singleton_append, hide_past_one other (wordless_space secret), value]

/-- No word of another kind stands in a word for a password. -/
theorem hide_logged {secret : Secret} (other : secret ≠ address) (other' : secret ≠ password)
    (listed : word ∈ password.words) (separator : isSeparator s = true)
    (blank : gap ∈ [[], [' ']]) (plain : IsPlain value) :
    hide ((q.text.toList ++ (word.toList ++ q.text.toList)) ++ s :: (gap ++ quotedValue q value))
        secret =
      (q.text.toList ++ (word.toList ++ q.text.toList)) ++ s :: (gap ++ quotedValue q value) := by
  have none : ∀ word ∈ password.words,
      ∀ x ∈ (q.text.toList ++ (word.toList ++ q.text.toList)).tails,
        ∀ w ∈ secret.words, ¬ w.toList <+: x.map Text.smallLetter := by
    cases secret with
    | address => exact absurd rfl other
    | password => exact absurd rfl other'
    | key | bearer | authorization =>
      unfold words
      cases q <;> decide
  have sign : s ∈ ['"', '\'', ':', '=', '/', '@'] := by
    rcases isSeparator_cases separator with rfl | rfl <;> decide
  rw [hide_before (wordless_of_sign other s sign) _ _ (none word listed),
    hide_quotedValue other blank plain]

/-- A password in single quotes is passed over: the quote behind the word is no separator. -/
theorem hide_password_single (listed : word ∈ password.words) (separator : isSeparator s = true)
    (blank : gap ∈ [[], [' ']]) (plain : IsPlain value) :
    hide ((Quoting.single.text.toList ++ (word.toList ++ Quoting.single.text.toList)) ++
        s :: (gap ++ quotedValue .single value)) password =
      (Quoting.single.text.toList ++ (word.toList ++ Quoting.single.text.toList)) ++
        s :: (gap ++ quotedValue .single value) := by
  have other : password ≠ address := by decide
  have join : password.joins s = true := by
    rcases isSeparator_cases separator with rfl | rfl <;> decide
  have quoted : ∀ word ∈ password.words,
      (∀ d ∈ Quoting.single.text.toList ++ (word.toList ++ Quoting.single.text.toList),
        password.joins d = false) ∧
      ¬ EndsInWord password.words
        (Quoting.single.text.toList ++ (word.toList ++ Quoting.single.text.toList)) := by
    unfold words
    decide
  obtain ⟨word, apart⟩ := quoted word listed
  rw [hide_past other word (wordless_of_joins other join) fun _ => apart,
    hide_quotedValue other blank plain]

/-- A password without quotes or in double quotes is masked, with the quotes around the
separator. -/
theorem hide_password_masked (masked : q ≠ .single) (listed : word ∈ password.words)
    (separator : isSeparator s = true) (blank : gap ∈ [[], [' ']]) (plain : IsPlain value)
    (filled : value ≠ "") :
    hide ((q.text.toList ++ (word.toList ++ q.text.toList)) ++ s :: (gap ++ quotedValue q value))
        password =
      q.text.toList ++ (word.toList ++ (": ".toList ++ (mark ++ q.text.toList))) := by
  have fillers : ∀ c ∈ q.text.toList, isFiller c = true := by
    cases q with
    | single => exact absurd rfl masked
    | bare | double => decide
  have blanks : ∀ c ∈ gap, isFiller c = true := by
    simp only [List.mem_cons, List.not_mem_nil, or_false] at blank
    rcases blank with rfl | rfl <;> decide
  have small : ∀ word ∈ password.words, word.toList.map Text.smallLetter = word.toList := by
    unfold words
    decide
  have isWord : IsWord password.words word.toList := ⟨word, listed, small word listed⟩
  have gaps : Separates (q.text.toList ++ s :: (gap ++ q.text.toList)) :=
    ⟨_, s, _, rfl, fillers, separator, List.forall_mem_append.2 ⟨blanks, fillers⟩⟩
  have taken : ∀ c ∈ value.toList, password.takes c = true := fun c mem =>
    Text.forall_isAlphanum (P := fun c => isPasswordChar c = true) (by decide) (plain c mem)
  have long : password.least ≤ value.toList.length := by
    rw [String.length_toList]
    exact Nat.one_le_iff_ne_zero.2 fun none => filled (String.length_eq_zero_iff.1 none)
  have ends : ∀ c ∈ (password.closing ++ q.text.toList).head?, password.takes c = false := by
    cases q with
    | single => exact absurd rfl masked
    | bare | double => decide
  have found := hide_text ⟨word.toList, [], _, value.toList, q.text.toList, isWord, .password gaps,
    taken, long, ends⟩
  have alone : ∀ later, hide (q.text.toList ++ later) password =
      q.text.toList ++ hide later password := by
    cases q with
    | single => exact absurd rfl masked
    | bare => exact fun _ => rfl
    | double => exact hide_past_one (by decide) (by decide)
  have closed : hide q.text.toList password = q.text.toList := by
    cases q <;> decide
  simp only [Occurrence.text, Occurrence.masked, closing, joint, List.nil_append,
    List.append_assoc, List.cons_append, closed] at found
  simp only [quotedValue, List.append_assoc, alone, found]

/-! ## All passes -/

/-- No slash stands in a logged password. -/
theorem slash_notMem_logged (listed : word ∈ password.words) (separator : isSeparator s = true)
    (blank : gap ∈ [[], [' ']]) (plain : IsPlain value) :
    '/' ∉ (q.text.toList ++ (word.toList ++ q.text.toList)) ++
      s :: (gap ++ quotedValue q value) := by
  have front : ∀ word ∈ password.words, '/' ∉ q.text.toList ++ (word.toList ++ q.text.toList) := by
    unfold words
    cases q <;> decide
  have gaps : ∀ gap ∈ [[], [' ']], '/' ∉ gap := by decide
  have values : ∀ c ∈ quotedValue q value, c ≠ '/' :=
    forall_quotedValue plain (by decide) (by decide)
  intro mem
  rcases List.mem_append.1 mem with mem | mem
  · exact front word listed mem
  rcases List.mem_cons.1 mem with rfl | mem
  · exact absurd separator (by decide)
  rcases List.mem_append.1 mem with mem | mem
  · exact gaps gap blank mem
  · exact values '/' mem rfl

variable {separator : String}

/-- A masked password: only in single quotes it stays. -/
theorem apply_logged (listed : word ∈ password.words) (separates : separator ∈ separators)
    (plain : IsPlain value) (filled : value ≠ "") :
    Mask.apply (logged q word separator value) =
      if q = .single then logged q word separator value
      else q.text ++ word ++ ": ***MASKED***" ++ q.text := by
  obtain ⟨s, gap, split, isSeparator, blank⟩ := exists_separator_of_mem separates
  have kept (secret : Secret) (other : secret ≠ address) (other' : secret ≠ password) :=
    hide_logged (q := q) other other' listed isSeparator blank plain
  rw [apply_eq, toList_logged split, kept key (by decide) (by decide),
    kept bearer (by decide) (by decide)]
  simp only [List.foldl_cons, List.foldl_nil, kept authorization (by decide) (by decide)]
  by_cases single : q = .single
  · subst single
    rw [if_pos rfl, hide_password_single listed isSeparator blank plain,
      hide_of_free (free_of_no_slash (slash_notMem_logged listed isSeparator blank plain)),
      ← toList_logged split, String.ofList_toList]
  · have closed : ∀ word ∈ password.words, '/' ∉ q.text.toList ++ (word.toList ++
        (": ".toList ++ (mark ++ q.text.toList))) := by
      unfold words
      cases q <;> decide
    rw [if_neg single, hide_password_masked single listed isSeparator blank plain filled,
      hide_of_free (free_of_no_slash (closed word listed))]
    have marked : ": ***MASKED***".toList = ": ".toList ++ mark := by decide
    simp only [← String.toList_inj, String.toList_ofList, String.toList_append, marked,
      List.append_assoc]

/-- A masked message does not tell the password exactly if it is not in single quotes. -/
theorem apply_logged_eq_iff {value₁ value₂ : String} (listed : word ∈ password.words)
    (separates : separator ∈ separators) (plain₁ : IsPlain value₁) (filled₁ : value₁ ≠ "")
    (plain₂ : IsPlain value₂) (filled₂ : value₂ ≠ "") :
    Mask.apply (logged q word separator value₁) = Mask.apply (logged q word separator value₂) ↔
      value₁ = value₂ ∨ q ≠ .single := by
  rw [apply_logged listed separates plain₁ filled₁, apply_logged listed separates plain₂ filled₂]
  by_cases single : q = .single
  · subst single
    rw [if_pos rfl, if_pos rfl, logged, logged, String.append_left_inj, String.append_right_inj]
    simp only [ne_eq, not_true_eq_false, or_false]
  · rw [if_neg single, if_neg single]
    simp only [ne_eq, single, not_false_eq_true, or_true]

theorem apply_logged_eq_iff_json :
    "password" ∈ password.words ∧ ": " ∈ separators ∧ IsPlain "hunter2" ∧ IsPlain "s3cret" ∧
      (Mask.apply (logged .double "password" ": " "hunter2") =
          Mask.apply (logged .double "password" ": " "s3cret") ↔
        "hunter2" = "s3cret" ∨ Quoting.double ≠ .single) :=
  have listed : "password" ∈ password.words := by unfold words; decide
  have separates : ": " ∈ separators := by decide
  have plain₁ : IsPlain "hunter2" := by decide
  have plain₂ : IsPlain "s3cret" := by decide
  ⟨listed, separates, plain₁, plain₂,
    apply_logged_eq_iff listed separates plain₁ (by decide) plain₂ (by decide)⟩

/-- A password in single quotes is not masked. -/
theorem apply_logged_single :
    "password" ∈ password.words ∧ ": " ∈ separators ∧ IsPlain "hunter2" ∧ IsPlain "s3cret" ∧
      Mask.apply (logged .single "password" ": " "hunter2") ≠
        Mask.apply (logged .single "password" ": " "s3cret") := by
  refine ⟨by unfold words; decide, by decide, by decide, by decide, ?_⟩
  decide +kernel

end Logged

end Mask

end GraphClient
