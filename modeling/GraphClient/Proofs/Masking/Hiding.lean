import GraphClient.Proofs.Masking.Passages

/-!
# Hiding the secrets of one kind

`Mask.hide` goes through a text from left to right. `Mask.hide_induction` follows it: the text ends,
or a character stays, or a passage is masked.

* `Secret.Occurrence.joins_between`: which characters stand between a word and a value.
* `Mask.hide_append`: if no passage of the front depends on what follows, both parts are hidden on
  their own.
* `Mask.hide_of_free`: without an occurrence the text stays as it is.
* `Mask.head?_hide`: the first character stays.
-/

namespace GraphClient

namespace Secret

variable {secret : Secret}

/-- No passage with a secret of the kind stands anywhere in a text. -/
def Free (secret : Secret) (cs : List Char) : Prop := ∀ o : secret.Occurrence, ¬ o.body <:+: cs

theorem Free.part {cs part : List Char} (free : secret.Free cs) (within : part <:+: cs) :
    secret.Free part := fun o mem => free o (mem.trans within)

/-- A character stands in no word of a kind. -/
def Wordless (secret : Secret) (c : Char) : Prop :=
  ∀ w ∈ secret.words, Text.smallLetter c ∉ w.toList

instance (secret : Secret) (c : Char) : Decidable (secret.Wordless c) :=
  inferInstanceAs (Decidable (∀ w ∈ secret.words, Text.smallLetter c ∉ w.toList))

theorem Wordless.notMem {c : Char} (wordless : secret.Wordless c) (o : secret.Occurrence) :
    c ∉ o.name := by
  intro mem
  obtain ⟨w, listed, small⟩ := o.word
  exact wordless w listed (small ▸ List.mem_map_of_mem mem)

theorem wordless_space (secret : Secret) : secret.Wordless ' ' := by
  cases secret <;> (unfold Wordless words; decide)

theorem Separates.cases {gap : List Char} (gaps : Separates gap) {c : Char} (mem : c ∈ gap) :
    isFiller c = true ∨ isSeparator c = true := by
  obtain ⟨before, s, behind, rfl, fillers, separator, fillers'⟩ := gaps
  rcases List.mem_append.1 mem with mem | mem
  · exact .inl (fillers c mem)
  · rcases List.mem_cons.1 mem with rfl | mem
    · exact .inr separator
    · exact .inl (fillers' c mem)

/-- The characters that can stand behind a word, and before a value. -/
def joins : Secret → Char → Bool
  | key, c | password, c => isFiller c || isSeparator c
  | bearer, c => Text.isBlank c
  | authorization, c => isQuote c || Text.isBlank c || isSeparator c
  | address, c => isUserChar c || c = ':'

namespace Occurrence

variable (o : secret.Occurrence)

theorem name_prefix_body : o.name <+: o.body := List.prefix_append ..

/-- The word of a passage ends before the first character that stands in no word. -/
theorem name_prefix_of_wordless {c : Char} (wordless : secret.Wordless c) {front later : List Char}
    (begins : o.body <+: front ++ c :: later) : o.name <+: front :=
  Text.prefix_of_notMem (wordless.notMem o) (o.name_prefix_body.trans begins)

/-- All passages but those of bearer tokens have a separator. -/
theorem exists_separator (other : secret ≠ bearer) : ∃ c ∈ o.body, isSeparator c = true := by
  obtain ⟨c, mem, separator⟩ : ∃ c ∈ o.kept ++ o.gap, isSeparator c = true := by
    have joins := o.joins
    generalize o.kept = kept, o.gap = gap at joins
    cases joins with
    | key gaps | password gaps =>
      obtain ⟨before, s, behind, rfl, -, separator, -⟩ := gaps
      exact ⟨s, by simp, separator⟩
    | bearer => exact absurd rfl other
    | @authorization _ _ _ _ s _ _ _ separator => exact ⟨s, by simp, separator⟩
    | address => exact ⟨':', by simp, by decide⟩
  refine ⟨c, ?_, separator⟩
  rw [body, ← List.append_assoc o.kept]
  exact List.mem_append_right _ (List.mem_append_left _ mem)

/-- In an address a user stands between the scheme and the password. -/
theorem exists_user (o : address.Occurrence) : ∃ user, user ≠ [] ∧
    (∀ c ∈ user, isUserChar c = true) ∧ o.kept = user ++ [':'] ∧ o.gap = [] := by
  have joins := o.joins
  generalize o.kept = kept, o.gap = gap at joins
  cases joins with
  | @address user long users => exact ⟨user, List.length_pos_iff.1 long, users, rfl, rfl⟩

/-- All that stands between a word and a value are characters that can. -/
theorem joins_between {c : Char} (mem : c ∈ o.kept ++ o.gap) :
    secret.joins c = true := by
  have joins := o.joins
  generalize o.kept = kept, o.gap = gap at joins mem
  cases joins with
  | key gaps | password gaps =>
    rcases gaps.cases mem with filler | separator
    · simp only [Secret.joins, filler, Bool.true_or]
    · simp only [Secret.joins, separator, Bool.or_true]
  | bearer _ blank =>
    rw [List.append_nil] at mem
    exact blank c mem
  | @authorization closing before behind opening s _ quotes blank separator blank' _ quotes' =>
    simp only [List.append_nil, List.mem_append, List.mem_cons] at mem
    rcases mem with mem | mem | rfl | mem | mem
    · simp only [Secret.joins, quotes c mem, Bool.true_or]
    · simp only [Secret.joins, blank c mem, Bool.or_true, Bool.true_or]
    · simp only [Secret.joins, separator, Bool.or_true]
    · simp only [Secret.joins, blank' c mem, Bool.or_true, Bool.true_or]
    · simp only [Secret.joins, quotes' c mem, Bool.true_or]
  | address _ users =>
    rw [List.append_nil] at mem
    rcases List.mem_append.1 mem with mem | colon
    · simp only [Secret.joins, users c mem, Bool.true_or]
    · rw [List.mem_singleton.1 colon]
      rfl

theorem between_filled : o.kept ++ o.gap ≠ [] := by
  have joins := o.joins
  generalize o.kept = kept, o.gap = gap at joins
  cases joins with
  | key gaps | password gaps =>
    obtain ⟨before, s, behind, rfl, -, -, -⟩ := gaps
    simp
  | bearer few _ =>
    rintro empty
    rw [List.append_nil] at empty
    rw [empty] at few
    cases few
  | authorization | address => simp

theorem value_filled : o.value ≠ [] := by
  intro empty
  have long := o.long
  rw [empty] at long
  cases secret <;> exact absurd long (by decide)

theorem body_eq_between :
    o.body = o.name ++ ((o.kept ++ o.gap) ++ (o.value ++ secret.closing)) := by
  simp only [body, List.append_assoc]

end Occurrence

theorem free_of_no_separator (other : secret ≠ bearer) {cs : List Char}
    (without : ∀ c ∈ cs, isSeparator c = false) : secret.Free cs := by
  intro o within
  obtain ⟨c, mem, separator⟩ := o.exists_separator other
  rw [without c (within.mem mem)] at separator
  cases separator

/-- What is found leaves a part of the text behind its first character. -/
theorem rest_suffix {c : Char} {cs : List Char} {p : Passage}
    (found : secret.find? (c :: cs) = some p) : p.rest <:+ cs := by
  obtain ⟨o, text, -, rest⟩ := find?_eq_some_iff.1 found
  rw [← rest]
  rw [o.text_eq] at text
  cases body : o.body with
  | nil => exact absurd body o.body_ne_nil
  | cons d ds =>
    rw [body] at text
    obtain ⟨-, rfl⟩ := List.cons.inj text
    exact List.suffix_append ds o.rest

end Secret

namespace Mask

open Secret

variable {secret : Secret} {c : Char} {cs pre w : List Char}

theorem replaceFrom_eq (find : List Char → Option Passage) (skip : Nat) (cs : List Char) :
    replaceFrom find skip cs = replaceFrom find 0 (cs.drop skip) := by
  induction skip generalizing cs with
  | zero => rw [List.drop_zero]
  | succ skip ih =>
    cases cs with
    | nil => simp only [replaceFrom, List.drop_nil]
    | cons c cs => rw [replaceFrom, ih, List.drop_succ_cons]

theorem hide_nil (secret : Secret) : hide [] secret = [] := by
  rw [hide, replaceFrom]

theorem hide_cons (none : secret.find? (c :: cs) = none) :
    hide (c :: cs) secret = c :: hide cs secret := by
  rw [hide, replaceFrom, none]
  rfl

theorem hide_text (o : secret.Occurrence) :
    hide o.text secret = o.masked ++ hide o.rest secret := by
  have found := o.found
  cases text : o.text with
  | nil =>
    rw [o.text_eq] at text
    exact absurd (List.append_eq_nil_iff.1 text).1 o.body_ne_nil
  | cons c cs =>
    rw [text] at found
    obtain ⟨front, split⟩ := rest_suffix found
    have split : front ++ o.rest = cs := split
    rw [hide, replaceFrom, found]
    dsimp only
    rw [replaceFrom_eq, hide, ← split, List.length_append, Nat.add_sub_cancel, List.drop_left]

theorem hide_of_find {p : Passage} (found : secret.find? cs = some p) :
    hide cs secret = p.masked ++ hide p.rest secret := by
  obtain ⟨o, rfl, masked, rest⟩ := find?_eq_some_iff.1 found
  rw [hide_text, masked, rest]

/-- Hiding goes from left to right: the text ends, a character stays, or a passage is masked. -/
theorem hide_induction (secret : Secret) {motive : List Char → Prop} (nil : motive [])
    (keep : ∀ c cs, secret.find? (c :: cs) = none → motive cs → motive (c :: cs))
    (mask : ∀ o : secret.Occurrence, motive o.rest → motive o.text) (cs : List Char) :
    motive cs := by
  induction length : cs.length using Nat.strongRecOn generalizing cs with
  | ind n ih =>
    cases cs with
    | nil => exact nil
    | cons c cs =>
      cases found : secret.find? (c :: cs) with
      | none => exact keep c cs found (ih cs.length (by simp [← length]) cs rfl)
      | some p =>
        have shorter := (rest_suffix found).length_le
        obtain ⟨o, text, -, rest⟩ := find?_eq_some_iff.1 found
        rw [← text]
        refine mask o (ih o.rest.length ?_ o.rest rfl)
        rw [rest, ← length, List.length_cons]
        omega

theorem head?_hide (secret : Secret) (cs : List Char) : (hide cs secret).head? = cs.head? := by
  induction cs using hide_induction secret with
  | nil => rw [hide_nil]
  | keep c cs none _ => rw [hide_cons none]; rfl
  | mask o _ =>
    rw [hide_text]
    cases name : o.name with
    | nil => exact absurd name o.name_ne_nil
    | cons d ds => simp only [Occurrence.masked, Occurrence.text, name, List.cons_append,
        List.head?_cons]

theorem hide_eq_nil_iff {cs : List Char} : hide cs secret = [] ↔ cs = [] := by
  rw [← List.head?_eq_none_iff, head?_hide, List.head?_eq_none_iff]

/-- What holds of the last character of a text and of what can be written at its end holds of the
last character when it is masked. -/
theorem forall_getLast?_hide {p : Char → Prop} (star : p '*') (sign : p '@')
    (ends : ∀ c ∈ cs.getLast?, p c) : ∀ c ∈ (hide cs secret).getLast?, p c := by
  induction cs using hide_induction secret with
  | nil => rwa [hide_nil]
  | keep c cs none ih =>
    rw [← List.singleton_append, Text.forall_getLast?_append_iff] at ends
    rw [hide_cons none, ← List.singleton_append, Text.forall_getLast?_append_iff, hide_eq_nil_iff]
    exact ⟨ih ends.1, ends.2⟩
  | mask o ih =>
    rw [o.text_eq, Text.forall_getLast?_append_iff] at ends
    have marked : ∀ c ∈ (mark ++ secret.closing).getLast?, c = '*' ∨ c = '@' := by
      cases secret <;> decide
    have filled : mark ++ secret.closing ≠ [] := List.append_ne_nil_of_left_ne_nil (by decide) _
    rw [hide_text, Occurrence.masked, Text.forall_getLast?_append_iff]
    refine ⟨ih ends.1, fun _ => ?_⟩
    rw [← List.append_assoc, ← List.append_assoc, Text.forall_getLast?_append_iff]
    refine ⟨fun c last => ?_, fun empty => absurd empty filled⟩
    rcases marked c last with rfl | rfl
    · exact star
    · exact sign

/-- A text without a passage stays as it is. -/
theorem hide_of_free (free : secret.Free cs) : hide cs secret = cs := by
  induction cs using hide_induction secret with
  | nil => rw [hide_nil]
  | keep c cs none ih => rw [hide_cons none, ih (free.part (List.suffix_cons c cs).isInfix)]
  | mask o _ =>
    rw [o.text_eq] at free
    exact absurd (List.prefix_append o.body o.rest).isInfix (free o)

/-- If what is found in the front does not depend on what follows, both parts are hidden on their
own. -/
theorem hide_append (apart : ∀ u, u ≠ [] → u <:+ pre → secret.find? (u ++ w) =
    (secret.find? u).map fun p => { p with rest := p.rest ++ w }) :
    hide (pre ++ w) secret = hide pre secret ++ hide w secret := by
  induction pre using hide_induction secret with
  | nil => rw [hide_nil, List.nil_append, List.nil_append]
  | keep c cs none ih =>
    have later := apart (c :: cs) (List.cons_ne_nil c cs) List.suffix_rfl
    rw [none, Option.map_none, List.cons_append] at later
    rw [hide_cons none, List.cons_append, List.cons_append, hide_cons later,
      ih fun u nonempty within => apart u nonempty (within.trans (List.suffix_cons c cs))]
  | mask o ih =>
    have nonempty : o.text ≠ [] := by
      rw [o.text_eq]
      exact List.append_ne_nil_of_left_ne_nil o.body_ne_nil _
    have later := apart o.text nonempty List.suffix_rfl
    rw [o.found, Option.map_some] at later
    have within : o.rest <:+ o.text := o.text_eq ▸ List.suffix_append o.body o.rest
    rw [hide_of_find later, hide_text,
      ih fun u nonempty part => apart u nonempty (part.trans within), List.append_assoc]

/-- A front in which nothing is found stays as it is. -/
theorem hide_append_of_none (none : ∀ u, u ≠ [] → u <:+ pre → secret.find? (u ++ w) = none) :
    hide (pre ++ w) secret = pre ++ hide w secret := by
  induction pre with
  | nil => rfl
  | cons c pre ih =>
    have here := none (c :: pre) (List.cons_ne_nil c pre) List.suffix_rfl
    rw [List.cons_append] at here
    rw [List.cons_append, hide_cons here, List.cons_append,
      ih fun u nonempty within => none u nonempty (within.trans (List.suffix_cons c pre))]

/-- A front is passed over, together with the character behind it, if nothing is found that begins
there. -/
theorem hide_through {c : Char} {front later : List Char}
    (none : ∀ x, x <:+ front → ∀ o : secret.Occurrence, ¬ o.body <+: x ++ c :: later) :
    hide (front ++ c :: later) secret = front ++ c :: hide later secret := by
  have passed : hide ((front ++ [c]) ++ later) secret =
      (front ++ [c]) ++ hide later secret := by
    refine hide_append_of_none fun u nonempty within => find?_eq_none_iff.2 fun o => ?_
    rcases List.suffix_concat_iff.1 within with empty | ⟨x, rfl, part⟩
    · exact absurd empty nonempty
    · rw [List.append_assoc, List.singleton_append]
      exact none x part o
  simpa only [List.append_assoc, List.singleton_append] using passed

/-- If no word begins in a front, hiding begins behind a character after it that stands in no
word. -/
theorem hide_before {c : Char} (wordless : secret.Wordless c) (front later : List Char)
    (none : ∀ x ∈ front.tails, ∀ w ∈ secret.words, ¬ w.toList <+: x.map Text.smallLetter) :
    hide (front ++ c :: later) secret = front ++ c :: hide later secret := by
  refine hide_through fun x part o begins => ?_
  obtain ⟨w, listed, small⟩ := o.word
  exact none x ((List.mem_tails ..).2 part) w listed
    (small ▸ (o.name_prefix_of_wordless wordless begins).map Text.smallLetter)

end Mask

end GraphClient
