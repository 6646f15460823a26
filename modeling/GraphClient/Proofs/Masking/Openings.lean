import GraphClient.Proofs.Masking.Words

/-!
# What a text leaves open

A text that ends in a blank may end in a word with what joins it to a value (`Secret.Opens`): then
what follows is taken for the value. Otherwise nothing in the text depends on what follows.

* `Mask.hide_cases`: these are all cases, for every kind of secret but addresses.
* `Mask.hide_address_append`: an address has no blank in it, so that nothing is left open.
-/

namespace GraphClient

namespace Secret

open Passage

variable {secret : Secret} {c : Char} {a b cs w : List Char}

/-- A text is empty or its last character is a blank. -/
def EndsBlank (cs : List Char) : Prop := ∀ c ∈ cs.getLast?, Text.isBlank c = true

instance (cs : List Char) : Decidable (EndsBlank cs) :=
  inferInstanceAs (Decidable (∀ c ∈ cs.getLast?, Text.isBlank c = true))

theorem endsBlank_append_iff : EndsBlank (a ++ b) ↔ EndsBlank b ∧ (b = [] → EndsBlank a) :=
  Text.forall_getLast?_append_iff

theorem EndsBlank.suffix (blank : EndsBlank cs) (within : b <:+ cs) : EndsBlank b := by
  obtain ⟨a, rfl⟩ := within
  exact (endsBlank_append_iff.1 blank).1

/-- A text that ends in a blank ends in no token. -/
theorem EndsBlank.endsOutside (blank : EndsBlank cs) : EndsOutside cs := by
  intro c last
  cases token : isTokenChar c with
  | false => rfl
  | true =>
    have visible := isBlank_of_isFiller (isFiller_of_token token)
    rw [blank c last] at visible
    cases visible

/-- No blank stands in a value. -/
theorem isBlank_of_takes (takes : secret.takes c = true) : Text.isBlank c = false := by
  cases secret with
  | key | bearer => exact isBlank_of_isFiller (isFiller_of_token takes)
  | authorization => exact isBlank_of_credential takes
  | password => exact isBlank_of_isFiller (isFiller_of_password takes)
  | address =>
    simp only [Secret.takes, isAddressPasswordChar, Bool.and_eq_true, Bool.not_eq_true'] at takes
    exact takes.2

theorem closing_of_ne (other : secret ≠ address) : secret.closing = [] := by
  cases secret with
  | address => exact absurd rfl other
  | key | bearer | authorization | password => rfl

/-- A text is a word with what joins it to a value, so that only the value is missing. -/
def Opens (secret : Secret) (cs : List Char) : Prop :=
  ∃ name kept gap, IsWord secret.words name ∧ secret.Joins kept gap ∧ cs = name ++ (kept ++ gap)

namespace Occurrence

variable (o : secret.Occurrence)

/-- A text that ends in a blank goes on behind a passage in it. -/
theorem rest_filled (blank : EndsBlank o.text) : o.rest ≠ [] := by
  intro empty
  rw [o.text_eq, empty, List.append_nil, o.body_eq_between, ← List.append_assoc,
    endsBlank_append_iff, endsBlank_append_iff] at blank
  by_cases closed : secret.closing = []
  · have last := blank.1.2 closed _ (List.getLast?_eq_some_getLast o.value_filled)
    rw [isBlank_of_takes (o.plain _ (List.getLast_mem o.value_filled))] at last
    cases last
  · have closings : secret.closing = [] ∨ secret.closing = ['@'] := by
      cases secret <;> decide
    rw [closings.resolve_left closed] at blank
    exact absurd (blank.1.1 '@' rfl) (by decide)

/-- What joins a word to a value does not go on behind a text with a blank at its end, if it cannot
go on there. -/
theorem joined_prefix (filled : a ≠ []) (blank : EndsBlank a)
    (start : ∀ c ∈ w.head?, secret.joins c = false) (begins : o.body <+: a ++ w) :
    o.name ++ (o.kept ++ o.gap) <+: a := by
  obtain ⟨front, c, rfl⟩ : ∃ front c, a = front ++ [c] :=
    (List.eq_nil_or_concat' a).resolve_left filled
  have isBlank : Text.isBlank c = true := blank c (by simp)
  obtain ⟨x, rfl⟩ : o.name <+: front := by
    rw [List.append_assoc, List.singleton_append] at begins
    exact o.name_prefix_of_wordless (wordless_of_isBlank secret isBlank) begins
  have between : o.kept ++ o.gap <+: (x ++ [c]) ++ w := by
    rw [o.body_eq_between, List.append_assoc o.name x, List.append_assoc o.name,
      List.prefix_append_right_inj] at begins
    exact (List.prefix_append ..).trans begins
  rw [List.append_assoc o.name x, List.prefix_append_right_inj]
  rcases List.prefix_or_prefix_of_prefix between (List.prefix_append ..) with
    shorter | ⟨z, split⟩
  · exact shorter
  · cases z with
    | nil => rw [← split, List.append_nil]
    | cons d z =>
      have first : secret.joins d = false := by
        refine start d ?_
        rw [← split, List.prefix_append_right_inj] at between
        obtain ⟨later, rfl⟩ := between
        rfl
      have join : secret.joins d = true := o.joins_between (split ▸ by simp)
      rw [first] at join
      cases join

/-- A value ends before a blank. -/
theorem body_prefix_of_blank (other : secret ≠ address) (blank : Text.isBlank c = true)
    (joined : o.name ++ (o.kept ++ o.gap) <+: a) (begins : o.body <+: a ++ c :: w) :
    o.body <+: a := by
  obtain ⟨z, rfl⟩ := joined
  have without : c ∉ o.value := by
    intro mem
    rw [isBlank_of_takes (o.plain c mem)] at blank
    cases blank
  have body : o.body = (o.name ++ (o.kept ++ o.gap)) ++ o.value := by
    rw [o.body_eq_between, closing_of_ne other, List.append_nil, List.append_assoc o.name]
  rw [body, List.append_assoc _ z, List.prefix_append_right_inj] at begins
  rw [body, List.prefix_append_right_inj]
  exact Text.prefix_of_notMem without begins

/-- A passage that begins in a text with a blank at its end lies in it, or the text is open. -/
theorem prefix_or_opens (other : secret ≠ address) (filled : a ≠ []) (blank : EndsBlank a)
    (start : ∀ c ∈ w.head?, secret.joins c = false) (begins : o.body <+: a ++ w) :
    o.body <+: a ∨ secret.Opens a := by
  obtain ⟨z, split⟩ := o.joined_prefix filled blank start begins
  rcases List.eq_nil_or_concat' z with rfl | ⟨z, d, rfl⟩
  · exact .inr ⟨o.name, o.kept, o.gap, o.word, o.joins, by rw [← split, List.append_nil]⟩
  · have isBlank : Text.isBlank d = true := blank d (by simp [← split])
    rw [← split, ← List.append_assoc] at begins ⊢
    rw [List.append_assoc, List.singleton_append] at begins
    exact .inl ((o.body_prefix_of_blank other isBlank (List.prefix_append ..) begins).trans
      (List.prefix_append ..))

end Occurrence

end Secret

namespace Mask

open Secret Passage

variable {secret : Secret} {pre : List Char}

/-- A passage with something behind it is masked whatever follows. -/
theorem hide_text_append (o : secret.Occurrence) (filled : o.rest ≠ []) (later : List Char) :
    hide (o.text ++ later) secret = o.masked ++ hide (o.rest ++ later) secret := by
  have ends : ∀ c ∈ (secret.closing ++ (o.rest ++ later)).head?, secret.takes c = false := by
    rw [← List.append_assoc, List.head?_append_of_ne_nil _ (by simp [filled])]
    exact o.ends
  have found := hide_text (o.before (o.rest ++ later) ends)
  rw [Occurrence.text_eq] at found
  rw [o.text_eq, List.append_assoc]
  exact found

/-- What follows an open text is taken for the value. -/
theorem hide_of_opens (opens : secret.Opens pre) : ∃ front, ∀ value rest,
    (∀ c ∈ value, secret.takes c = true) → secret.least ≤ value.length →
    (∀ c ∈ (secret.closing ++ rest).head?, secret.takes c = false) →
    hide (pre ++ (value ++ (secret.closing ++ rest))) secret =
      front ++ (mark ++ (secret.closing ++ hide rest secret)) := by
  obtain ⟨name, kept, gap, word, joins, rfl⟩ := opens
  refine ⟨name ++ (kept ++ secret.joint), fun value rest plain long ends => ?_⟩
  have masked := hide_text ⟨name, kept, gap, value, rest, word, joins, plain, long, ends⟩
  simpa only [Occurrence.text, Occurrence.masked, List.append_assoc] using masked

/-- What follows a text with a blank at its end is replaced on its own, or is taken for the value
of a passage. -/
theorem hide_cases (other : secret ≠ address) (blank : EndsBlank pre) :
    (∀ w, (∀ c ∈ w.head?, secret.joins c = false) →
      hide (pre ++ w) secret = hide pre secret ++ hide w secret) ∨
    ∃ front, ∀ value rest, (∀ c ∈ value.head?, secret.joins c = false) →
      (∀ c ∈ value, secret.takes c = true) → secret.least ≤ value.length →
      (∀ c ∈ rest.head?, secret.takes c = false) →
      hide (pre ++ (value ++ rest)) secret = front ++ (mark ++ hide rest secret) := by
  have unclosed := closing_of_ne other
  induction pre using hide_induction secret with
  | nil =>
    refine .inl fun w _ => ?_
    rw [hide_nil, List.nil_append, List.nil_append]
  | keep c cs none ih =>
    by_cases opens : secret.Opens (c :: cs)
    · obtain ⟨front, taken⟩ := hide_of_opens opens
      refine .inr ⟨front, fun value rest _ plain long ends => ?_⟩
      simpa only [unclosed, List.nil_append] using
        taken value rest plain long (by rwa [unclosed, List.nil_append])
    have passed : ∀ w, (∀ d ∈ w.head?, secret.joins d = false) →
        hide (c :: (cs ++ w)) secret = c :: hide (cs ++ w) secret := by
      refine fun w start => hide_cons (find?_eq_none_iff.2 fun o begins => ?_)
      rcases o.prefix_or_opens other (List.cons_ne_nil c cs) blank start begins with
        inside | opens'
      · exact find?_eq_none_iff.1 none o inside
      · exact opens opens'
    rcases ih (blank.suffix (List.suffix_cons c cs)) with closed | ⟨front, taken⟩
    · refine .inl fun w start => ?_
      rw [List.cons_append, passed w start, closed w start, hide_cons none, List.cons_append]
    · refine .inr ⟨c :: front, fun value rest start plain long ends => ?_⟩
      have start' : ∀ d ∈ (value ++ rest).head?, secret.joins d = false := by
        cases value with
        | nil => cases secret <;> exact absurd long (by decide)
        | cons d value => exact start
      rw [List.cons_append, passed _ start', taken value rest start plain long ends,
        List.cons_append]
  | mask o ih =>
    have filled := o.rest_filled blank
    rcases ih (blank.suffix (o.text_eq ▸ List.suffix_append o.body o.rest)) with
      closed | ⟨front, taken⟩
    · refine .inl fun w start => ?_
      rw [hide_text_append o filled, closed w start, hide_text, List.append_assoc]
    · refine .inr ⟨o.masked ++ front, fun value rest start plain long ends => ?_⟩
      rw [hide_text_append o filled, taken value rest start plain long ends, List.append_assoc]

/-- A text that ends in a blank does so when it is masked. -/
theorem endsBlank_hide (blank : EndsBlank pre) : EndsBlank (hide pre secret) := by
  induction pre using hide_induction secret with
  | nil => rwa [hide_nil]
  | keep c cs none ih =>
    rw [← List.singleton_append, endsBlank_append_iff] at blank
    rw [hide_cons none, ← List.singleton_append, endsBlank_append_iff, hide_eq_nil_iff]
    exact ⟨ih blank.1, blank.2⟩
  | mask o ih =>
    have filled := o.rest_filled blank
    rw [o.text_eq, endsBlank_append_iff] at blank
    rw [hide_text, endsBlank_append_iff, hide_eq_nil_iff]
    exact ⟨ih blank.1, fun empty => absurd empty filled⟩

/-! ## Addresses -/

theorem isBlank_address (o : address.Occurrence) : ∀ c ∈ o.body, Text.isBlank c = false := by
  obtain ⟨user, -, users, kept, gap⟩ := o.exists_user
  intro c mem
  simp only [Occurrence.body, kept, gap, closing, List.mem_append, List.mem_singleton,
    List.not_mem_nil, false_or] at mem
  rcases mem with inName | (inUser | rfl) | inValue | rfl
  · cases blank : Text.isBlank c with
    | false => rfl
    | true => exact absurd inName ((wordless_of_isBlank address blank).notMem o)
  · have user := users c inUser
    simp only [isUserChar, Bool.and_eq_true, Bool.not_eq_true'] at user
    exact user.2
  · decide
  · exact isBlank_of_takes (o.plain c inValue)
  · decide

/-- A text that ends in a blank is masked on its own. -/
theorem hide_address_append (blank : EndsBlank pre) (w : List Char) :
    hide (pre ++ w) address = hide pre address ++ hide w address := by
  induction pre using hide_induction address with
  | nil => rw [hide_nil, List.nil_append, List.nil_append]
  | keep c cs none ih =>
    have none' : address.find? (c :: (cs ++ w)) = Option.none := by
      refine find?_eq_none_iff.2 fun o begins => find?_eq_none_iff.1 none o ?_
      obtain ⟨front, d, split⟩ : ∃ front d, c :: cs = front ++ [d] :=
        (List.eq_nil_or_concat' (c :: cs)).resolve_left (List.cons_ne_nil c cs)
      rw [split] at blank ⊢
      have without : d ∉ o.body := by
        intro mem
        have visible := isBlank_address o d mem
        rw [blank d (by simp)] at visible
        cases visible
      rw [← List.cons_append, split, List.append_assoc, List.singleton_append] at begins
      exact (Text.prefix_of_notMem without begins).trans (List.prefix_append ..)
    rw [List.cons_append, hide_cons none', hide_cons none,
      ih (blank.suffix (List.suffix_cons c cs)), List.cons_append]
  | mask o ih =>
    rw [hide_text_append o (o.rest_filled blank), hide_text,
      ih (blank.suffix (o.text_eq ▸ List.suffix_append o.body o.rest)), List.append_assoc]

end Mask

end GraphClient
