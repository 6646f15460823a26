import GraphClient.Proofs.Masking.Openings
import GraphClient.Proofs.Masking.Passwords

/-!
# A password in an address

The pass for addresses comes last. Before it the four other passes have left an address as it is,
unless the text in front of it is open, so that the whole address is taken for a value
(`Mask.beforeAddress_cases`). The pass for addresses then masks the password behind a user, but not
one without.

* `Mask.hide_userInfo`: no other secret is found in an address.
* `Mask.hide_address_user`, `Mask.hide_address_userless`: with a user and without.
* `Mask.apply_address_eq_iff`: when a masked message does not tell the password.
-/

namespace GraphClient

namespace Secret

open Passage

variable {secret : Secret} {c : Char}

/-- Letters, digits and the signs of an address stand in the values of authorizations. -/
theorem isCredentialChar_of_isLetter (letter : Text.isLetter c = true) :
    isCredentialChar c = true := by
  rcases Text.isLetter_cases letter with ⟨low, high⟩ | strange
  · have blank : Text.isBlank c = false := Text.isBlank_of_visible (by omega) (by omega)
    have others : ∀ d ∈ ['"', '\'', ',', '\x7d'], c ≠ d := by
      have outside : ∀ d ∈ ['"', '\'', ',', '\x7d'], d.toNat < 65 ∨ 122 < d.toNat := by decide
      rintro d mem rfl
      rcases outside c mem with out | out <;> omega
    simp only [List.forall_mem_cons] at others
    obtain ⟨double, single, comma, brace, -⟩ := others
    simp [isCredentialChar, isPasswordChar, isQuote, blank, double, single, comma, brace]
  · have all : ∀ d ∈ Text.strangeLetters, isCredentialChar d = true := by decide
    exact all c strange

theorem isPasswordChar_of_credential (plain : isCredentialChar c = true) :
    isPasswordChar c = true := by
  simp only [isCredentialChar, Bool.and_eq_true] at plain
  exact plain.1.1

theorem joins_of_isLetter (other : secret ≠ address) (letter : Text.isLetter c = true) :
    secret.joins c = false := by
  by_contra join
  rcases joins_cases other (Bool.not_eq_false _ ▸ join) with blank | sign
  · rw [Text.isBlank_of_isLetter letter] at blank
    cases blank
  · have all : ∀ d ∈ ['"', '\'', ':', '='], Text.isLetter d = false := by decide
    rw [all c sign] at letter
    cases letter

theorem joins_of_isAlphanum (other : secret ≠ address) (alphanum : c.isAlphanum = true) :
    secret.joins c = false := by
  refine Text.forall_isAlphanum (P := fun c => secret.joins c = false) ?_ alphanum
  cases secret with
  | address => exact absurd rfl other
  | key | bearer | authorization | password => decide

end Secret

namespace Mask

open Secret Passage

variable {secret : Secret} {pre scheme user value rest cs : List Char}

/-! ## What the other passes leave -/

theorem isLetter_scheme (web : IsWord ["http", "https"] scheme) :
    ∀ c ∈ scheme, Text.isLetter c = true := by
  obtain ⟨w, listed, small⟩ := web
  have all : ∀ w ∈ ["http", "https"], ∀ d ∈ w.toList, 'a' ≤ d ∧ d ≤ 'z' := by decide
  intro c mem
  have range := all w listed _ (small ▸ List.mem_map_of_mem (f := Text.smallLetter) mem)
  simp only [Text.isLetter, range, decide_true, Bool.and_self]

theorem length_scheme (web : IsWord ["http", "https"] scheme) :
    4 ≤ scheme.length ∧ scheme.length ≤ 5 := by
  obtain ⟨w, listed, small⟩ := web
  have all : ∀ w ∈ ["http", "https"], 4 ≤ w.toList.length ∧ w.toList.length ≤ 5 := by decide
  rw [← List.length_map Text.smallLetter, small]
  exact all w listed

theorem isWord_scheme (web : IsWord ["http", "https"] scheme) :
    IsWord address.words (scheme ++ "://".toList) := by
  obtain ⟨w, listed, small⟩ := web
  have all : ∀ w ∈ ["http", "https"], w ++ "://" ∈ address.words := by
    unfold words
    decide
  refine ⟨w ++ "://", all w listed, ?_⟩
  rw [List.map_append, small, String.toList_append]
  rfl

/-- A scheme is no part of another secret. -/
theorem hide_scheme (other : secret ≠ address) (web : IsWord ["http", "https"] scheme)
    (later : List Char) : hide (scheme ++ ':' :: '/' :: '/' :: later) secret =
      scheme ++ ':' :: '/' :: '/' :: hide later secret := by
  have colon := wordless_of_sign other ':' (by decide)
  have slash := wordless_of_sign other '/' (by decide)
  have apart : ¬ EndsInWord secret.words scheme := by
    obtain ⟨w, listed, small⟩ := web
    have all : ∀ w ∈ ["http", "https"], ¬ ∃ w' ∈ secret.words, w'.toList <:+ w.toList := by
      cases secret with
      | address => exact absurd rfl other
      | key | bearer | authorization | password =>
        unfold words
        decide
    rw [EndsInWord, small]
    exact all w listed
  have plain := fun c mem => joins_of_isLetter other (isLetter_scheme web c mem)
  rw [hide_past other plain colon fun _ => apart, hide_past_one other slash,
    hide_past_one other slash]

/-- The text of an address up to the host. -/
def userInfo (scheme user value : List Char) : List Char :=
  scheme ++ ':' :: '/' :: '/' :: (user ++ ':' :: (value ++ ['@']))

/-- No other secret is found in an address. -/
theorem hide_userInfo (other : secret ≠ address) (web : IsWord ["http", "https"] scheme)
    (users : ∀ c ∈ user, c.isAlphanum = true) (apart : ¬ EndsInWord secret.words user)
    (plain : ∀ c ∈ value, c.isAlphanum = true) (rest : List Char) :
    hide (userInfo scheme user value ++ rest) secret =
      userInfo scheme user value ++ hide rest secret := by
  have stays : secret.joins '@' = false := by
    cases secret with
    | address => exact absurd rfl other
    | key | bearer | authorization | password => decide
  have alphanum : ∀ c, c.isAlphanum = true → secret.joins c = false := fun _ =>
    joins_of_isAlphanum other
  simp only [userInfo, List.append_assoc, List.cons_append, List.nil_append]
  rw [hide_scheme other web,
    hide_past other (fun c mem => alphanum c (users c mem))
      (wordless_of_sign other ':' (by decide)) fun _ => apart,
    hide_past other (fun c mem => alphanum c (plain c mem))
      (wordless_of_sign other '@' (by decide)) fun join => ?_]
  rw [stays] at join
  cases join

/-- A text that the first four passes leave as it is, unless all of it is taken for a value. It begins
with a letter and soon has a sign that no token has, so that no key and no bearer token ends in
it. -/
structure Steady (w : List Char) : Prop where
  start : ∃ c x d later, w = c :: (x ++ d :: later) ∧ Text.isLetter c = true ∧ x.length < 19 ∧
    isTokenChar d = false
  long : 8 ≤ w.length
  plain : ∀ c ∈ w, isCredentialChar c = true
  kept : ∀ secret ≠ address, ∀ rest, hide (w ++ rest) secret = w ++ hide rest secret

theorem steady_userInfo (web : IsWord ["http", "https"] scheme)
    (users : ∀ c ∈ user, c.isAlphanum = true)
    (apart : ∀ secret, ¬ EndsInWord (words secret) user)
    (plain : ∀ c ∈ value, c.isAlphanum = true) (filled : value ≠ []) :
    Steady (userInfo scheme user value) where
  start := by
    obtain ⟨atLeast, atMost⟩ := length_scheme web
    have letters := isLetter_scheme web
    cases scheme with
    | nil => cases atLeast
    | cons c x =>
      rw [List.length_cons] at atMost
      exact ⟨c, x, ':', _, rfl, letters c List.mem_cons_self, by omega, by decide⟩
  long := by
    obtain ⟨atLeast, -⟩ := length_scheme web
    have one := List.length_pos_iff.2 filled
    simp only [userInfo, List.length_append, List.length_cons, List.length_nil]
    omega
  plain := by
    have alphanum : ∀ c, c.isAlphanum = true → isCredentialChar c = true := fun _ =>
      Text.forall_isAlphanum (P := fun c => isCredentialChar c = true) (by decide)
    simp only [userInfo, List.forall_mem_append, List.forall_mem_cons, List.not_mem_nil,
      false_implies, implies_true, and_true]
    exact ⟨fun c mem => isCredentialChar_of_isLetter (isLetter_scheme web c mem), by decide,
      by decide, by decide, fun c mem => alphanum c (users c mem), by decide,
      fun c mem => alphanum c (plain c mem), by decide⟩
  kept := fun _ other => hide_userInfo other web users (apart _) plain

/-- The probe of what a text leaves open. -/
theorem steady_https : Steady "https://".toList where
  start := ⟨'h', "ttps".toList, ':', "//".toList, rfl, by decide, by decide, by decide⟩
  long := by decide
  plain := by decide
  kept := fun _ other =>
    have web : IsWord ["http", "https"] "https".toList := ⟨"https", by decide, by decide⟩
    hide_scheme other web

namespace Steady

variable {w : List Char}

theorem not_joins (steady : Steady w) (other : secret ≠ address) (later : List Char) :
    ∀ c ∈ (w ++ later).head?, secret.joins c = false := by
  obtain ⟨c, x, d, behind, rfl, letter, -, -⟩ := steady.start
  rintro _ ⟨⟩
  exact joins_of_isLetter other letter

/-- The passes for keys and bearer tokens leave it, whatever stands before it. -/
theorem hide_token (steady : Steady w) (kind : IsTokenKind secret) (blank : EndsBlank pre)
    (rest : List Char) :
    hide (pre ++ (w ++ rest)) secret = hide pre secret ++ (w ++ hide rest secret) := by
  have other : secret ≠ address := by
    rcases kind with rfl | rfl <;> decide
  obtain ⟨c, x, d, later, split, letter, short, stop⟩ := steady.start
  have token : isTokenChar c = true := by
    rw [isTokenChar, letter]
    rfl
  have plain : isSeparator c = false := by
    cases separator : isSeparator c with
    | false => rfl
    | true =>
      rcases isSeparator_cases separator with rfl | rfl <;> exact absurd letter (by decide)
  have alone : hide (pre ++ (c :: (x ++ d :: (later ++ rest)))) secret =
      hide pre secret ++ hide (c :: (x ++ d :: (later ++ rest))) secret :=
    hide_append_of_outside kind blank.endsOutside token plain short stop
  have kept := steady.kept secret other rest
  rw [split] at kept ⊢
  simp only [List.cons_append, List.append_assoc] at kept ⊢
  rw [alone, kept]

/-- The passes for authorizations and passwords leave it, or take all of it for a value. -/
theorem hide_value (kind : secret = authorization ∨ secret = password) (blank : EndsBlank pre) :
    (∀ w, Steady w → ∀ rest,
      hide (pre ++ (w ++ rest)) secret = hide pre secret ++ (w ++ hide rest secret)) ∨
    ∃ front, ∀ w, Steady w → ∀ rest,
      hide (pre ++ (w ++ rest)) secret =
        front ++ (mark ++ hide (rest.dropWhile secret.takes) secret) := by
  have other : secret ≠ address := by
    rcases kind with rfl | rfl <;> decide
  rcases hide_cases other blank with closed | ⟨front, taken⟩
  · refine .inl fun w steady rest => ?_
    rw [closed _ (steady.not_joins other rest), steady.kept secret other]
  · refine .inr ⟨front, fun w steady rest => ?_⟩
    have plain : ∀ c ∈ w ++ rest.takeWhile secret.takes, secret.takes c = true := by
      refine List.forall_mem_append.2 ⟨fun c mem => ?_, fun _ => List.mem_takeWhile_imp⟩
      rcases kind with rfl | rfl
      · exact steady.plain c mem
      · exact isPasswordChar_of_credential (steady.plain c mem)
    have long : secret.least ≤ (w ++ rest.takeWhile secret.takes).length := by
      have atMost : secret.least ≤ 8 := by rcases kind with rfl | rfl <;> decide
      have eight := steady.long
      rw [List.length_append]
      omega
    have ends := taken _ (rest.dropWhile secret.takes) (steady.not_joins other _) plain long
      (Text.head?_dropWhile _ _)
    rwa [List.append_assoc, List.takeWhile_append_dropWhile] at ends

end Steady

/-- What the passes before that for addresses make of a text. -/
def beforeAddress (cs : List Char) : List Char :=
  [key, bearer, authorization, password].foldl hide cs

theorem beforeAddress_eq (cs : List Char) : beforeAddress cs =
    hide (hide (hide (hide cs key) bearer) authorization) password := rfl

theorem apply_eq_beforeAddress (message : String) :
    Mask.apply message = String.ofList (hide (beforeAddress message.toList) address) := rfl

/-- Before the pass for addresses, what follows a text with a blank at its end has been left as it
is, or has been taken for a value. -/
theorem beforeAddress_cases (blank : EndsBlank pre) :
    (∃ front, EndsBlank front ∧ ∀ w, Steady w → ∀ rest,
      beforeAddress (pre ++ (w ++ rest)) = front ++ (w ++ beforeAddress rest)) ∨
    ∃ f : List Char → List Char, (∀ c ∈ (f []).getLast?, c ≠ '/') ∧ ∀ w, Steady w → ∀ rest,
      beforeAddress (pre ++ (w ++ rest)) = f rest := by
  have blank₂ : EndsBlank (hide (hide pre key) bearer) := endsBlank_hide (endsBlank_hide blank)
  have blank₃ : EndsBlank (hide (hide (hide pre key) bearer) authorization) :=
    endsBlank_hide blank₂
  have tokens : ∀ w, Steady w → ∀ rest, hide (hide (pre ++ (w ++ rest)) key) bearer =
      hide (hide pre key) bearer ++ (w ++ hide (hide rest key) bearer) := by
    intro w steady rest
    rw [steady.hide_token (.inl rfl) blank, steady.hide_token (.inr rfl) (endsBlank_hide blank)]
  have starred (front : List Char) : ∀ c ∈ (front ++ mark).getLast?, c ≠ '/' := by
    rw [List.getLast?_append_of_ne_nil _ (by decide)]
    decide
  -- Where the pass for authorizations has written its mark, the one for passwords may still find
  -- something, so that it stays in `f`.
  rcases Steady.hide_value (.inl rfl) blank₂ with closed | ⟨front, taken⟩
  · rcases Steady.hide_value (.inr rfl) blank₃ with closed' | ⟨front, taken⟩
    · refine .inl ⟨hide (hide (hide (hide pre key) bearer) authorization) password,
        endsBlank_hide blank₃, ?_⟩
      intro w steady rest
      rw [beforeAddress_eq, tokens w steady, closed w steady, closed' w steady]
      rfl
    · refine .inr ⟨fun rest => front ++ (mark ++ hide ((hide (hide (hide rest key) bearer)
        authorization).dropWhile password.takes) password), ?_, ?_⟩
      · simp only [hide_nil, List.dropWhile_nil, List.append_nil]
        exact starred front
      · intro w steady rest
        rw [beforeAddress_eq, tokens w steady, closed w steady, taken w steady]
  · refine .inr ⟨fun rest => hide (front ++ (mark ++ hide ((hide (hide rest key) bearer).dropWhile
      authorization.takes) authorization)) password, ?_, ?_⟩
    · simp only [hide_nil, List.dropWhile_nil, List.append_nil]
      exact forall_getLast?_hide (by decide) (by decide) (starred front)
    · intro w steady rest
      rw [beforeAddress_eq, tokens w steady, taken w steady]

/-! ## The pass for addresses -/

/-- The password behind a user is masked. -/
theorem hide_address_user (web : IsWord ["http", "https"] scheme)
    (users : ∀ c ∈ user, c.isAlphanum = true) (named : user ≠ [])
    (plain : ∀ c ∈ value, c.isAlphanum = true) (filled : value ≠ []) (rest : List Char) :
    hide (userInfo scheme user value ++ rest) address =
      userInfo scheme user mark ++ hide rest address := by
  have joins : address.Joins (user ++ [':']) [] :=
    .address (List.length_pos_iff.2 named) fun c mem =>
      Text.forall_isAlphanum (P := fun c => isUserChar c = true) (by decide) (users c mem)
  have taken : ∀ c ∈ value, address.takes c = true := fun c mem =>
    Text.forall_isAlphanum (P := fun c => isAddressPasswordChar c = true) (by decide) (plain c mem)
  have ends : ∀ c ∈ (address.closing ++ rest).head?, address.takes c = false := by
    rintro c ⟨⟩
    decide
  have masked := hide_text ⟨scheme ++ "://".toList, user ++ [':'], [], value, rest,
    isWord_scheme web, joins, taken, List.length_pos_iff.2 filled, ends⟩
  have signs : "://".toList = [':', '/', '/'] := rfl
  simpa only [Occurrence.text, Occurrence.masked, userInfo, closing, joint, signs,
    List.append_assoc, List.cons_append, List.nil_append] using masked

/-- No address begins in a text without a slash. -/
theorem hide_address_past {front : List Char} {c : Char} (slash : '/' ∉ front)
    (wordless : address.Wordless c) (later : List Char) :
    hide (front ++ c :: later) address = front ++ c :: hide later address := by
  refine hide_through fun x part o begins => ?_
  obtain ⟨before, split⟩ := scheme_eq o.word
  have inName : '/' ∈ o.name := split ▸ List.mem_concat_self
  exact slash (part.mem ((o.name_prefix_of_wordless wordless begins).mem inName))

/-- The scheme of an address that begins in a scheme, before a colon, ends there too. -/
theorem name_eq_of_tail (o : address.Occurrence) {u name later : List Char}
    (word : IsWord address.words name) (tail : u <:+ name) (filled : u ≠ [])
    (begins : o.body <+: u ++ ':' :: later) : o.name = u := by
  obtain ⟨w, listed, small⟩ := word
  obtain ⟨w', listed', small'⟩ := o.word
  -- In a scheme no other one begins, and no colon stands behind its end.
  have all : ∀ w ∈ address.words, ∀ w' ∈ address.words, ∀ x ∈ w.toList.tails, x ≠ [] →
      (w'.toList <+: x → w'.toList = x) ∧ ¬ x ++ [':'] <+: w'.toList := by
    unfold words
    decide
  have within : u.map Text.smallLetter ∈ w.toList.tails :=
    (List.mem_tails ..).2 (small ▸ tail.map Text.smallLetter)
  obtain ⟨whole, apart⟩ := all w listed w' listed' _ within (mt List.map_eq_nil_iff.1 filled)
  have behind : ¬ u ++ [':'] <+: o.name := by
    intro longer
    have longer := longer.map Text.smallLetter
    rw [List.map_append, small'] at longer
    exact apart longer
  have short : o.name <+: u ++ [':'] ∨ u ++ [':'] <+: o.name := by
    refine List.prefix_or_prefix_of_prefix (o.name_prefix_body.trans begins) ⟨later, ?_⟩
    rw [List.append_assoc, List.singleton_append]
  have inside : o.name <+: u :=
    (List.prefix_concat_iff.1 (short.resolve_right behind)).resolve_left
      fun same => behind (same ▸ List.prefix_rfl)
  refine inside.eq_of_length ?_
  rw [← List.length_map Text.smallLetter, small', whole (small' ▸ inside.map Text.smallLetter),
    List.length_map]

/-- The password behind a scheme stays. -/
theorem hide_address_userless (web : IsWord ["http", "https"] scheme)
    (plain : ∀ c ∈ value, c.isAlphanum = true) (rest : List Char) :
    hide (userInfo scheme [] value ++ rest) address =
      userInfo scheme [] value ++ hide rest address := by
  have colon : ∀ later, hide ((scheme ++ "://".toList) ++ ':' :: later) address =
      (scheme ++ "://".toList) ++ hide (':' :: later) address := by
    refine fun later => hide_append_of_none fun u filled tail =>
      find?_eq_none_iff.2 fun o begins => ?_
    have same := name_eq_of_tail o (isWord_scheme web) tail filled begins
    obtain ⟨user, named, users, kept, -⟩ := o.exists_user
    obtain ⟨c, user, rfl⟩ := List.exists_cons_of_ne_nil named
    rw [Occurrence.body, same, kept, List.prefix_append_right_inj] at begins
    obtain ⟨rfl, -⟩ := List.cons_prefix_cons.1 begins
    exact absurd (users ':' List.mem_cons_self) (by decide)
  have slash : '/' ∉ ':' :: value := by
    intro mem
    rcases List.mem_cons.1 mem with colon | mem
    · exact absurd colon (by decide)
    · exact absurd (plain '/' mem) (by decide)
  have past := hide_address_past slash (show address.Wordless '@' by unfold Wordless words; decide)
  have signs : "://".toList = [':', '/', '/'] := rfl
  simp only [List.cons_append] at past
  simpa only [userInfo, signs, past, List.append_assoc, List.cons_append, List.nil_append] using
    colon (value ++ '@' :: rest)

/-! ## All passes -/

/-- A web address with a user and a password. -/
def addressOf (scheme user value host : String) : String :=
  scheme ++ "://" ++ user ++ ":" ++ value ++ "@" ++ host

theorem toList_addressOf (scheme user value host : String) :
    (addressOf scheme user value host).toList =
      userInfo scheme.toList user.toList value.toList ++ host.toList := by
  have signs : "://".toList = [':', '/', '/'] ∧ ":".toList = [':'] ∧ "@".toList = ['@'] :=
    ⟨rfl, rfl, rfl⟩
  simp only [addressOf, userInfo, String.toList_append, signs, List.append_assoc, List.cons_append,
    List.nil_append]

/-- An address behind a text is left to the pass for addresses: it is not taken for the value of
another secret. -/
def SparesAddress (pre : String) : Prop :=
  "https://".toList <:+ (Mask.apply (pre ++ "https://")).toList

instance (pre : String) : Decidable (SparesAddress pre) :=
  inferInstanceAs (Decidable ("https://".toList <:+ _))

/-- What follows a text with a blank at its end gets to the pass for addresses, or nothing of it is
left. -/
theorem toList_apply_cases {pre : String} (blank : EndsBlank pre.toList) :
    (SparesAddress pre ∧ ∃ front, ∀ message w rest, Steady w →
      message.toList = pre.toList ++ (w ++ rest) →
      (Mask.apply message).toList = front ++ hide (w ++ beforeAddress rest) address) ∨
    (¬ SparesAddress pre ∧ ∃ f : List Char → List Char, ∀ message w rest, Steady w →
      message.toList = pre.toList ++ (w ++ rest) → (Mask.apply message).toList = f rest) := by
  have probe : (Mask.apply (pre ++ "https://")).toList =
      hide (beforeAddress (pre.toList ++ ("https://".toList ++ []))) address := by
    rw [apply_eq_beforeAddress, String.toList_ofList, String.toList_append, List.append_nil]
  rcases beforeAddress_cases blank with ⟨front, blank', closed⟩ | ⟨f, starred, taken⟩
  · have whole : ∀ w rest, Steady w → hide (beforeAddress (pre.toList ++ (w ++ rest))) address =
        hide front address ++ hide (w ++ beforeAddress rest) address := by
      intro w rest steady
      rw [closed w steady, hide_address_append blank']
    refine .inl ⟨?_, hide front address, fun message w rest steady split => ?_⟩
    · have alone : hide ("https://".toList ++ beforeAddress []) address = "https://".toList := by
        decide
      rw [SparesAddress, probe, whole _ _ steady_https, alone]
      exact List.suffix_append ..
    · rw [apply_eq_beforeAddress, String.toList_ofList, split, whole w rest steady]
  · refine .inr ⟨?_, fun rest => hide (f rest) address, fun message w rest steady split => ?_⟩
    · rw [SparesAddress, probe, taken _ steady_https]
      rintro ⟨front, ends⟩
      have slash : (hide (f []) address).getLast? = some '/' := by
        rw [← ends, List.getLast?_append_of_ne_nil _ (by decide)]
        decide
      exact forall_getLast?_hide (by decide) (by decide) starred '/' slash rfl
    · rw [apply_eq_beforeAddress, String.toList_ofList, split, taken w steady]

theorem userInfo_inj {value' : List Char}
    (same : userInfo scheme user value = userInfo scheme user value') : value = value' := by
  simpa only [userInfo, List.append_cancel_left_eq, List.append_cancel_right_eq, List.cons.injEq,
    true_and] using same

/-- A masked message tells the password of an address exactly if there is no user, and the address
is not taken for the value of another secret. -/
theorem apply_address_eq_iff {scheme user value₁ value₂ host pre post : String}
    (web : IsWord ["http", "https"] scheme.toList) (users : IsPlain user)
    (apart : ∀ secret, ¬ EndsInWord (words secret) user.toList)
    (plain₁ : IsPlain value₁) (filled₁ : value₁ ≠ "") (plain₂ : IsPlain value₂)
    (filled₂ : value₂ ≠ "") (blank : EndsBlank pre.toList) :
    Mask.apply (pre ++ addressOf scheme user value₁ host ++ post) =
        Mask.apply (pre ++ addressOf scheme user value₂ host ++ post) ↔
      value₁ = value₂ ∨ user ≠ "" ∨ ¬ SparesAddress pre := by
  have filled {value : String} (filled : value ≠ "") : value.toList ≠ [] :=
    mt String.toList_eq_nil_iff.1 filled
  have steady₁ := steady_userInfo web users apart plain₁ (filled filled₁)
  have steady₂ := steady_userInfo web users apart plain₂ (filled filled₂)
  have split (value : String) : (pre ++ addressOf scheme user value host ++ post).toList =
      pre.toList ++ (userInfo scheme.toList user.toList value.toList ++
        (host.toList ++ post.toList)) := by
    simp only [String.toList_append, toList_addressOf, List.append_assoc]
  rw [← String.toList_inj]
  rcases toList_apply_cases blank with ⟨spares, front, closed⟩ | ⟨spares, f, taken⟩
  · rw [closed _ _ _ steady₁ (split value₁), closed _ _ _ steady₂ (split value₂)]
    by_cases named : user = ""
    · subst named
      have userless : "".toList = [] := rfl
      rw [userless, hide_address_userless web plain₁, hide_address_userless web plain₂,
        List.append_cancel_left_eq, List.append_cancel_right_eq]
      simp only [ne_eq, not_true_eq_false, spares, or_false]
      refine ⟨fun same => String.toList_inj.1 (userInfo_inj same), fun same => ?_⟩
      rw [same]
    · rw [hide_address_user web users (filled named) plain₁ (filled filled₁),
        hide_address_user web users (filled named) plain₂ (filled filled₂)]
      simp only [ne_eq, named, not_false_eq_true, true_or, or_true]
  · rw [taken _ _ _ steady₁ (split value₁), taken _ _ _ steady₂ (split value₂)]
    simp only [spares, not_false_eq_true, or_true]

theorem apply_address_eq_iff_user :
    IsWord ["http", "https"] "https".toList ∧ IsPlain "user" ∧
      (∀ secret, ¬ EndsInWord (words secret) "user".toList) ∧
      IsPlain "s3cret" ∧ IsPlain "hunter2" ∧ EndsBlank "POST ".toList ∧
      (Mask.apply ("POST " ++ addressOf "https" "user" "s3cret" "api.example.com" ++ " failed") =
          Mask.apply
            ("POST " ++ addressOf "https" "user" "hunter2" "api.example.com" ++ " failed") ↔
        "s3cret" = "hunter2" ∨ "user" ≠ "" ∨ ¬ SparesAddress "POST ") :=
  have web : IsWord ["http", "https"] "https".toList := ⟨"https", by decide, by decide⟩
  have users : IsPlain "user" := by decide
  have apart : ∀ secret, ¬ EndsInWord (words secret) "user".toList := by
    intro secret
    cases secret <;> (unfold words; decide)
  have plain₁ : IsPlain "s3cret" := by decide
  have plain₂ : IsPlain "hunter2" := by decide
  have blank : EndsBlank "POST ".toList := by decide
  ⟨web, users, apart, plain₁, plain₂, blank,
    apply_address_eq_iff web users apart plain₁ (by decide) plain₂ (by decide) blank⟩

-- Behind a word for a password the whole address is the value, with a user or without.
example : Mask.apply "password: https://:s3cret@api.example.com" = "password: ***MASKED***" := by
  decide +kernel

/-- Without a user a password is not masked. -/
theorem apply_address_userless :
    IsWord ["http", "https"] "https".toList ∧ IsPlain "" ∧
      (∀ secret, ¬ EndsInWord (words secret) "".toList) ∧
      IsPlain "s3cret" ∧ IsPlain "hunter2" ∧ EndsBlank "".toList ∧
      Mask.apply ("" ++ addressOf "https" "" "s3cret" "api.example.com" ++ "") ≠
        Mask.apply ("" ++ addressOf "https" "" "hunter2" "api.example.com" ++ "") := by
  refine ⟨⟨"https", by decide, by decide⟩, by decide, ?_, by decide, by decide, by decide, ?_⟩
  · intro secret
    cases secret <;> (unfold words; decide)
  · decide +kernel

end Mask

end GraphClient
