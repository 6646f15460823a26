import GraphClient.Proofs.Masking.Bearer

/-!
# What a pass leaves

Masking writes stars, so a passage with a token that stands in a masked text has stood there before
(`IsSolid`): neither its own pass leaves it, nor can a later one make it.

* `Secret.free_hide`, `Secret.Free.hide`: no key and no bearer token is left by its own pass and by
  all later ones.
* `Mask.hide_address_again`: an address is masked once and for all.
-/

namespace GraphClient

namespace Secret

variable {secret : Secret}

/-- What is kept in front of a value. -/
def Occurrence.front (o : secret.Occurrence) : List Char := o.name ++ o.kept

theorem Occurrence.masked_eq (o : secret.Occurrence) :
    o.masked = o.front ++ (secret.joint ++ (mark ++ secret.closing)) := by
  simp only [masked, front, List.append_assoc]

theorem Occurrence.text_eq_front (o : secret.Occurrence) :
    o.text = o.front ++ (o.gap ++ (o.value ++ (secret.closing ++ o.rest))) := by
  simp only [text, front, List.append_assoc]

theorem joint_cases (secret : Secret) : secret.joint = [] ∨ secret.joint = [':', ' '] := by
  cases secret
  · exact .inr rfl
  · exact .inl rfl
  · exact .inl rfl
  · exact .inr rfl
  · exact .inl rfl

/-! ## Passages with tokens -/

/-- A text that no pass can make: without a star, with many characters of tokens, one of them at the
end. -/
structure IsSolid (x : List Char) : Prop where
  starless : '*' ∉ x
  ends : ∃ front c, x = front ++ [c] ∧ isTokenChar c = true
  many : 20 ≤ x.countP isTokenChar

theorem Occurrence.isSolid_body (kind : IsTokenKind secret) (o : secret.Occurrence) :
    IsSolid o.body := by
  rw [o.body_eq kind]
  have long := o.twenty_le_value kind
  have tokens : ∀ c ∈ o.value, isTokenChar c = true := fun c mem => o.isTokenChar_value kind mem
  refine ⟨?_, ?_, ?_⟩
  · have noToken : isTokenChar '*' = false := by decide
    intro mem
    rcases List.mem_append.1 mem with mem | mem
    · rw [(isTokenChar_of_isWord kind o.word mem).1] at noToken
      cases noToken
    · rcases List.mem_append.1 mem with mem | mem
      · have stays : secret.joins '*' = false := by rcases kind with rfl | rfl <;> decide
        rw [o.joins_between mem] at stays
        cases stays
      · rw [tokens _ mem] at noToken
        cases noToken
  · have filled := o.value_filled
    refine ⟨o.name ++ ((o.kept ++ o.gap) ++ o.value.dropLast), o.value.getLast filled, ?_,
      tokens _ (List.getLast_mem filled)⟩
    simp only [List.append_assoc, List.dropLast_append_getLast]
  · have all : o.value.countP isTokenChar = o.value.length := List.countP_eq_length.2 tokens
    rw [List.countP_append, List.countP_append, all]
    omega

namespace IsSolid

variable {x a later : List Char} {d : Char}

theorem not_infix_of_short (solid : IsSolid x) (short : a.length < 20) : ¬ x <:+: a := by
  intro within
  have many := solid.many
  have few : x.countP isTokenChar ≤ x.length := List.countP_le_length
  have longer := within.length_le
  omega

/-- It does not end outside of tokens. -/
theorem not_suffix_concat (solid : IsSolid x) (other : isTokenChar d = false) :
    ¬ x <:+ a ++ [d] := by
  obtain ⟨front, c, rfl, token⟩ := solid.ends
  rintro ⟨y, same⟩
  rw [← List.append_assoc] at same
  obtain ⟨rfl, -⟩ := List.cons.inj (List.append_inj' same rfl).2
  rw [token] at other
  cases other

theorem prefix_front (solid : IsSolid x) (begins : x <+: a ++ secret.joint) : x <+: a := by
  have step : ∀ {b d}, isTokenChar d = false → x <+: b ++ [d] → x <+: b := by
    intro b d other begins
    rcases List.prefix_concat_iff.1 begins with rfl | begins
    · exact absurd List.suffix_rfl (solid.not_suffix_concat other)
    · exact begins
  rcases joint_cases secret with empty | joint
  · rwa [empty, List.append_nil] at begins
  · rw [joint, show a ++ [':', ' '] = (a ++ [':']) ++ [' '] by simp] at begins
    exact step (by decide) (step (by decide) begins)

theorem infix_front (solid : IsSolid x) (within : x <:+: a ++ secret.joint) : x <:+: a := by
  have step : ∀ {b d}, isTokenChar d = false → x <:+: b ++ [d] → x <:+: b := by
    intro b d other within
    rcases List.infix_concat_iff.1 within with ends | within
    · exact absurd ends (solid.not_suffix_concat other)
    · exact within
  rcases joint_cases secret with empty | joint
  · rwa [empty, List.append_nil] at within
  · rw [joint, show a ++ [':', ' '] = (a ++ [':']) ++ [' '] by simp] at within
    exact step (by decide) (step (by decide) within)

theorem prefix_mark (solid : IsSolid x) (begins : x <+: a ++ (mark ++ later)) : x <+: a :=
  Text.prefix_of_notMem (b := "**MASKED***".toList ++ later) solid.starless begins

/-- It lies on one side of a mark. -/
theorem infix_mark (solid : IsSolid x) (within : x <:+: a ++ (mark ++ later)) :
    x <:+: a ∨ x <:+: later := by
  have star := solid.starless
  have short : ∀ {b : List Char}, b.length < 20 → ¬ x <:+: b := solid.not_infix_of_short
  refine (Text.infix_of_notMem star within).imp_right fun within => ?_
  have within := (Text.infix_of_notMem (a := []) star within).resolve_left (short (by decide))
  have within := (Text.infix_of_notMem (a := []) star within).resolve_left (short (by decide))
  have within := (Text.infix_of_notMem (a := "MASKED".toList) star within).resolve_left
    (short (by decide))
  have within := (Text.infix_of_notMem (a := []) star within).resolve_left (short (by decide))
  exact (Text.infix_of_notMem (a := []) star within).resolve_left (short (by decide))

end IsSolid

end Secret

namespace Mask

open Secret

variable {secret : Secret} {x : List Char}

/-- A text that no pass can make begins where it began before. -/
theorem prefix_of_hide (solid : IsSolid x) (cs : List Char) : ∀ front,
    x <+: front ++ hide cs secret → x <+: front ++ cs := by
  induction cs using hide_induction secret with
  | nil =>
    intro front begins
    rwa [hide_nil] at begins
  | keep c cs none ih =>
    intro front begins
    rw [hide_cons none, ← List.singleton_append, ← List.append_assoc] at begins
    rw [← List.singleton_append, ← List.append_assoc]
    exact ih _ begins
  | mask o ih =>
    intro front begins
    have begins : x <+: (front ++ o.front ++ secret.joint) ++
        (mark ++ (secret.closing ++ hide o.rest secret)) := by
      rw [hide_text, o.masked_eq] at begins
      simpa only [List.append_assoc] using begins
    have begins := solid.prefix_front (solid.prefix_mark begins)
    rw [o.text_eq_front, ← List.append_assoc]
    exact begins.trans (List.prefix_append ..)

/-- A text that no pass can make has been there before. -/
theorem infix_of_hide (solid : IsSolid x) (cs : List Char) : ∀ front,
    x <:+: front ++ hide cs secret → x <:+: front ++ cs := by
  induction cs using hide_induction secret with
  | nil =>
    intro front within
    rwa [hide_nil] at within
  | keep c cs none ih =>
    intro front within
    rw [hide_cons none, ← List.singleton_append, ← List.append_assoc] at within
    rw [← List.singleton_append, ← List.append_assoc]
    exact ih _ within
  | mask o ih =>
    intro front within
    have within : x <:+: (front ++ o.front ++ secret.joint) ++
        (mark ++ (secret.closing ++ hide o.rest secret)) := by
      rw [hide_text, o.masked_eq] at within
      simpa only [List.append_assoc] using within
    rw [o.text_eq_front]
    rcases solid.infix_mark within with within | within
    · rw [← List.append_assoc]
      exact (solid.infix_front within).trans (List.prefix_append ..).isInfix
    · refine (ih secret.closing within).trans (List.IsSuffix.isInfix ?_)
      exact ⟨front ++ (o.front ++ (o.gap ++ o.value)), by simp only [List.append_assoc]⟩

end Mask

namespace Secret

open Mask Passage

variable {secret : Secret}

theorem isTokenChar_front_lt (kind : IsTokenKind secret) (o : secret.Occurrence) :
    o.front.countP isTokenChar < 20 := by
  have short : o.name.length < 20 := by
    obtain ⟨w, listed, small⟩ := o.word
    have all : ∀ w ∈ secret.words, w.toList.length < 20 := by
      rcases kind with rfl | rfl <;> (unfold words; decide)
    rw [← List.length_map Text.smallLetter, small]
    exact all w listed
  have none : o.kept.countP isTokenChar = 0 := by
    have joins := o.joins
    generalize o.kept = kept, o.gap = gap at joins
    rcases kind with rfl | rfl
    · cases joins
      rfl
    · cases joins with
      | bearer _ blank =>
        refine List.countP_eq_zero.2 fun c mem token => ?_
        have blank := blank c mem
        rw [isBlank_of_isFiller (isFiller_of_token token)] at blank
        cases blank
  have few : o.name.countP isTokenChar ≤ o.name.length := List.countP_le_length
  rw [Occurrence.front, List.countP_append]
  omega

/-- No passage with a token is left by the pass for its kind. -/
theorem free_hide (kind : IsTokenKind secret) (cs : List Char) : secret.Free (hide cs secret) := by
  induction cs using hide_induction secret with
  | nil =>
    intro o within
    rw [hide_nil, List.infix_nil] at within
    exact o.body_ne_nil within
  | keep c cs none ih =>
    intro o within
    rw [hide_cons none] at within
    rcases List.infix_cons_iff.1 within with begins | within
    · exact find?_eq_none_iff.1 none o (prefix_of_hide (o.isSolid_body kind) cs [c] begins)
    · exact ih o within
  | mask o' ih =>
    intro o within
    have solid := o.isSolid_body kind
    have within : o.body <:+: (o'.front ++ secret.joint) ++ (mark ++ hide o'.rest secret) := by
      rw [hide_text, o'.masked_eq, closing_of_kind kind, List.append_nil] at within
      simpa only [List.append_assoc] using within
    rcases solid.infix_mark within with within | within
    · have many := solid.many
      have few := isTokenChar_front_lt kind o'
      have fewer := (solid.infix_front within).sublist.countP_le (p := isTokenChar)
      omega
    · exact ih o within

/-- No pass makes a passage with a token. -/
theorem Free.hide (kind : IsTokenKind secret) {cs : List Char} (free : secret.Free cs)
    (pass : Secret) : secret.Free (Mask.hide cs pass) := fun o within =>
  free o (infix_of_hide (o.isSolid_body kind) cs [] within)

/-! ## Addresses -/

/-- No slash stands behind the scheme in the passage of an address. -/
theorem Occurrence.slash_notMem (o : address.Occurrence) :
    '/' ∉ o.kept ++ (o.gap ++ (o.value ++ address.closing)) := by
  obtain ⟨user, -, users, kept, gap⟩ := o.exists_user
  intro mem
  simp only [kept, gap, List.mem_append, List.mem_singleton, List.not_mem_nil, false_or] at mem
  rcases mem with (inUser | colon) | inValue | inClosing
  · exact absurd (users '/' inUser) (by decide)
  · exact absurd colon (by decide)
  · exact absurd (o.plain '/' inValue) (by decide)
  · exact absurd inClosing (by decide)

/-- A scheme ends in a slash. -/
theorem scheme_eq {name : List Char} (word : IsWord address.words name) :
    ∃ front, name = front ++ ['/'] := by
  obtain ⟨w, listed, small⟩ := word
  have all : ∀ w ∈ address.words, w.toList.getLast? = some '/' := by
    unfold words
    decide
  have last := all w listed
  rw [← small, List.getLast?_map, Option.map_eq_some_iff] at last
  obtain ⟨c, last, same⟩ := last
  have slash : c = '/' := by
    cases letter : Text.isLetter c with
    | false => rwa [Text.smallLetter_of_not_isLetter letter] at same
    | true =>
      rw [Text.isLetter, same] at letter
      exact absurd letter (by decide)
  exact ⟨_, (slash ▸ List.dropLast_append_getLast? c last).symm⟩

/-- Without a slash there is no address. -/
theorem free_of_no_slash {cs : List Char} (without : '/' ∉ cs) : address.Free cs := by
  intro o within
  obtain ⟨front, split⟩ := scheme_eq o.word
  refine without (within.mem (o.name_prefix_body.mem ?_))
  rw [split]
  exact List.mem_concat_self

/-- No scheme stands in another one behind its first character. -/
theorem scheme_apart {front name later : List Char} (nonempty : front ≠ [])
    (word : IsWord address.words name) : ¬ IsWord address.words (front ++ (name ++ later)) := by
  obtain ⟨w, listed, small⟩ := word
  rintro ⟨w', listed', small'⟩
  obtain ⟨c, front, rfl⟩ := List.exists_cons_of_ne_nil nonempty
  have all : ∀ w ∈ address.words, ∀ w' ∈ address.words, ¬ w.toList <:+: w'.toList.tail := by
    unfold words
    decide
  refine all w listed w' listed' ⟨front.map Text.smallLetter, later.map Text.smallLetter, ?_⟩
  rw [← small', ← small]
  simp

/-- An address that begins before a masked one ends before it. -/
theorem Occurrence.body_prefix_of_hide (o : address.Occurrence) (cs : List Char) : ∀ front,
    front ≠ [] → o.body <+: front ++ Mask.hide cs address → o.body <+: front ++ cs := by
  induction cs using hide_induction address with
  | nil =>
    intro front _ begins
    rwa [hide_nil] at begins
  | keep c cs none ih =>
    intro front nonempty begins
    rw [hide_cons none, ← List.singleton_append, ← List.append_assoc] at begins
    rw [← List.singleton_append, ← List.append_assoc]
    exact ih _ (by simp) begins
  | mask o' ih =>
    intro front nonempty begins
    rw [hide_text, o'.masked_eq, List.append_assoc, ← List.append_assoc] at begins
    rw [o'.text_eq_front, ← List.append_assoc]
    rcases List.prefix_or_prefix_of_prefix begins (List.prefix_append ..) with shorter | longer
    · exact shorter.trans (List.prefix_append ..)
    · exfalso
      obtain ⟨scheme, split⟩ := scheme_eq o'.word
      have begins : front ++ o'.name <+: o.body := by
        refine List.IsPrefix.trans ?_ longer
        exact ⟨o'.kept, by rw [List.append_assoc]; rfl⟩
      have inside : ∀ later, o.name ≠ front ++ (o'.name ++ later) := fun later same =>
        scheme_apart nonempty o'.word (same ▸ o.word)
      rcases List.prefix_or_prefix_of_prefix begins o.name_prefix_body with
        ⟨later, same⟩ | ⟨z, same⟩
      · exact inside later (by rw [← same, List.append_assoc])
      rw [← same, Occurrence.body, List.prefix_append_right_inj] at begins
      rcases List.eq_nil_or_concat z with rfl | ⟨z, c, rfl⟩
      · exact inside [] (by rw [List.append_nil, ← same, List.append_nil])
      · rw [split, List.concat_eq_append, ← List.append_assoc, ← List.append_assoc] at same
        obtain ⟨rfl, -⟩ := List.cons.inj (List.append_inj' same rfl).2
        exact o.slash_notMem (begins.mem (by simp))

end Secret

namespace Mask

open Secret

/-- A masked address is an address again, with the mark as its value. -/
theorem hide_masked_address (o : address.Occurrence) (later : List Char) :
    hide (o.masked ++ later) address = o.masked ++ hide later address := by
  obtain ⟨-, -, -, -, nothing⟩ := o.exists_user
  have plain : ∀ c ∈ mark, address.takes c = true := by
    unfold takes
    decide
  have ends : ∀ c ∈ (address.closing ++ later).head?, address.takes c = false := by
    rintro c ⟨⟩
    decide
  have masked := hide_text { o with value := mark, rest := later, plain, long := by decide, ends }
  simpa only [Occurrence.text, Occurrence.masked, nothing, joint, List.nil_append,
    List.append_assoc] using masked

/-- An address is masked once and for all. -/
theorem hide_address_again (cs : List Char) : hide (hide cs address) address = hide cs address := by
  induction cs using hide_induction address with
  | nil => rw [hide_nil, hide_nil]
  | keep c cs none ih =>
    rw [hide_cons none]
    have none' : address.find? (c :: hide cs address) = Option.none := by
      refine find?_eq_none_iff.2 fun o begins => find?_eq_none_iff.1 none o ?_
      exact o.body_prefix_of_hide cs [c] (List.cons_ne_nil c []) begins
    rw [hide_cons none', ih]
  | mask o ih => rw [hide_text, hide_masked_address, ih]

end Mask

end GraphClient
