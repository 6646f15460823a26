import GraphClient.Proofs.Masking.Words

/-!
# An authorization header in a message

A header names a scheme and then gives the credentials. What is masked of it depends on the scheme
alone: the value of an authorization ends at the blank behind the scheme, so that the credentials
are masked only where the scheme ends in the word for a bearer token.

* `Mask.hide_bearer_scheme`, `Mask.hide_authorization_header`: what the two passes that find
  something make of a header; the other ones leave it as it is.
* `Mask.apply_header`: the masked header.
* `Mask.apply_header_eq_iff`: when it does not tell the credentials.
-/

namespace GraphClient

namespace Secret

open Passage

theorem isWord_bearer_length {name : List Char} (word : IsWord bearer.words name) :
    name.length = 6 := by
  rw [← List.length_map Text.smallLetter, isWord_singleton.1 word]
  rfl

end Secret

namespace Mask

open Secret Passage

/-- What is left of credentials behind a scheme. -/
def credentialsBehind (scheme credentials : List Char) : List Char :=
  if EndsInWord bearer.words scheme then mark else credentials

/-- The pass for bearer tokens masks the credentials of a scheme that ends in the word for one. -/
theorem hide_bearer_scheme {scheme credentials : List Char}
    (plain : ∀ c ∈ scheme, Text.isBlank c = false)
    (tokens : ∀ c ∈ credentials, isTokenChar c = true) (long : 20 ≤ credentials.length) :
    hide (scheme ++ ' ' :: credentials) bearer =
      scheme ++ ' ' :: credentialsBehind scheme credentials := by
  have other : bearer ≠ address := by decide
  unfold credentialsBehind
  by_cases ends : EndsInWord bearer.words scheme
  · rw [if_pos ends]
    obtain ⟨front, name, rfl, word⟩ := endsInWord_iff.1 ends
    have passed : hide (front ++ (name ++ ' ' :: credentials)) bearer =
        front ++ hide (name ++ ' ' :: credentials) bearer := by
      refine hide_append_of_none fun u nonempty within => find?_eq_none_iff.2 fun o begins => ?_
      rw [← List.append_assoc] at begins
      have named : o.name = u ++ name := by
        refine o.name_eq_front other (fun c mem => plain c ?_) (by decide) begins
        exact (List.mem_append.1 mem).elim (fun mem => List.mem_append_left _ (within.mem mem))
          (List.mem_append_right _)
      have length := isWord_bearer_length o.word
      rw [named, List.length_append, isWord_bearer_length word] at length
      exact nonempty (List.length_eq_zero_iff.1 (by omega))
    have outside : StartsOutside [] := by decide
    have masked := hide_bearer_token word tokens long outside
    rw [List.append_nil, hide_nil, List.append_nil] at masked
    rw [List.append_assoc, passed, masked, List.append_assoc]
  · rw [if_neg ends]
    have free : bearer.Free credentials := free_of_no_joins fun c mem =>
      isBlank_of_isFiller (isFiller_of_token (tokens c mem))
    rw [hide_past other plain (wordless_space bearer) fun _ => ends, hide_of_free free]

/-- What is left of a scheme that is the value of an authorization. -/
def schemeOf (scheme : List Char) : List Char := if 8 ≤ scheme.length then mark else scheme

/-- An authorization has its value behind the colon and the blank, but for a quote before it. -/
theorem value_of_header (o : authorization.Occurrence) {later : List Char}
    (start : ∀ c ∈ later.head?, Text.isBlank c = false)
    (begins : o.body <+: "Authorization".toList ++ ':' :: ' ' :: later) :
    ∃ opening, (∀ c ∈ opening, isQuote c = true) ∧ opening ++ o.value <+: later := by
  obtain ⟨behind', split⟩ := begins
  have long := o.long
  have values := o.plain
  have joins := o.joins
  have small : o.name.map Text.smallLetter = "authorization".toList := isWord_singleton.1 o.word
  have length : o.name.length = "Authorization".toList.length := by
    rw [← List.length_map Text.smallLetter, small]
    decide
  rw [Occurrence.body] at split
  generalize o.kept = kept, o.gap = gap, o.value = value at joins split long values ⊢
  cases joins with
  | @authorization closing' before behind opening s few quotes blank separator blank' few'
      quotes' =>
    simp only [List.append_assoc, List.cons_append, closing, List.nil_append] at split
    have split := (List.append_inj split length).2
    -- The separator is the colon behind the word.
    have apart : ∀ c ∈ closing' ++ before, isSeparator c = false := by
      intro c mem
      cases separator' : isSeparator c with
      | false => rfl
      | true =>
        rcases List.mem_append.1 mem with mem | mem
        · rw [← quotes c mem, isQuote_of_separator separator']
        · rw [← blank c mem, isBlank_of_separator separator']
    have first : (closing' ++ before) ++ s :: (behind ++ (opening ++ (value ++ behind'))) =
        [] ++ ':' :: (' ' :: later) := by
      rw [List.append_assoc]
      exact split
    have rest : behind ++ (opening ++ (value ++ behind')) = [' '] ++ later :=
      (Text.split_unique apart (by simp) separator (by decide) first).2.2
    -- What follows the blanks behind it is the same on both sides.
    have visible : ∀ c ∈ (opening ++ (value ++ behind')).head?, Text.isBlank c = false := by
      cases opening with
      | nil => exact head?_value long (by decide) fun c mem => isBlank_of_credential (values c mem)
      | cons q opening =>
        rintro c ⟨⟩
        exact isBlank_of_quote (quotes' q List.mem_cons_self)
    have same := congrArg (List.dropWhile Text.isBlank) rest
    rw [(Text.span_front _ blank' visible).2, (Text.span_front later (by decide) start).2] at same
    exact ⟨opening, quotes', behind', by rw [List.append_assoc, same]⟩

/-- An authorization in a header has the scheme as its value, which is long enough then. -/
theorem long_of_header (o : authorization.Occurrence) {scheme later : List Char}
    (nonempty : scheme ≠ [])
    (plain : ∀ c ∈ scheme, isCredentialChar c = true ∧ isSeparator c = false)
    (begins : o.body <+: "Authorization".toList ++ ':' :: ' ' :: (scheme ++ ' ' :: later)) :
    8 ≤ scheme.length := by
  obtain ⟨a, scheme, rfl⟩ := List.exists_cons_of_ne_nil nonempty
  have first := (plain a List.mem_cons_self).1
  have start : ∀ c ∈ ((a :: scheme) ++ ' ' :: later).head?, Text.isBlank c = false := by
    rintro c ⟨⟩
    exact isBlank_of_credential first
  obtain ⟨opening, quotes, within⟩ := value_of_header o start begins
  cases opening with
  | nil =>
    have without : ' ' ∉ o.value := fun mem => absurd (o.plain ' ' mem) (by decide)
    exact Nat.le_trans o.long (Text.prefix_of_notMem without within).length_le
  | cons q opening =>
    obtain ⟨behind, same⟩ := within
    obtain ⟨rfl, -⟩ := List.cons.inj same
    have quote := quotes q List.mem_cons_self
    rw [isQuote_of_credential first] at quote
    cases quote

/-- The pass for authorizations masks a scheme of eight characters or more. -/
theorem hide_authorization_header {scheme later : List Char} (nonempty : scheme ≠ [])
    (plain : ∀ c ∈ scheme, isCredentialChar c = true ∧ isSeparator c = false)
    (without : ∀ c ∈ later, isSeparator c = false) :
    hide ("Authorization:".toList ++ ' ' :: (scheme ++ ' ' :: later)) authorization =
      "Authorization:".toList ++ ' ' :: (schemeOf scheme ++ ' ' :: later) := by
  unfold schemeOf
  have alone : hide (' ' :: later) authorization = ' ' :: later := by
    refine hide_of_free (free_of_no_separator (by decide) fun c mem => ?_)
    rcases List.mem_cons.1 mem with rfl | mem
    · decide
    · exact without c mem
  by_cases long : 8 ≤ scheme.length
  · rw [if_pos long]
    have word : IsWord authorization.words "Authorization".toList :=
      ⟨"authorization", List.mem_cons_self, by decide⟩
    have none : ∀ c ∈ ([] : List Char), isQuote c = true := by simp
    have joins : authorization.Joins ([] ++ ([] ++ ':' :: ([' '] ++ []))) [] :=
      .authorization (by decide) none (by simp) (by decide) (by decide) (by decide) none
    have ends : ∀ c ∈ (authorization.closing ++ ' ' :: later).head?,
        authorization.takes c = false := by
      rintro c ⟨⟩
      decide
    have masked : hide ("Authorization:".toList ++ ' ' :: (scheme ++ ' ' :: later)) authorization =
        "Authorization:".toList ++ ' ' :: (mark ++ hide (' ' :: later) authorization) :=
      hide_text ⟨_, _, _, scheme, ' ' :: later, word, joins, fun c mem => (plain c mem).1, long,
        ends⟩
    rw [masked, alone]
  · rw [if_neg long]
    have only : ∀ x ∈ "Authorization:".toList.tails, ∀ w ∈ authorization.words,
        w.toList <+: x.map Text.smallLetter → x = "Authorization:".toList := by
      unfold words
      decide
    have passed : hide ("Authorization:".toList ++ ' ' :: (scheme ++ ' ' :: later)) authorization =
        "Authorization:".toList ++ ' ' :: hide (scheme ++ ' ' :: later) authorization := by
      refine hide_through fun x part o begins => long ?_
      obtain ⟨w, listed, small⟩ := o.word
      obtain rfl := only x ((List.mem_tails ..).2 part) w listed
        (small ▸ (o.name_prefix_of_wordless (wordless_space _) begins).map Text.smallLetter)
      exact long_of_header o nonempty plain begins
    have rest : hide (scheme ++ ' ' :: later) authorization = scheme ++ ' ' :: later := by
      refine hide_of_free (free_of_no_separator (by decide) fun c mem => ?_)
      rcases List.mem_append.1 mem with mem | mem
      · exact (plain c mem).2
      · rcases List.mem_cons.1 mem with rfl | mem
        · decide
        · exact without c mem
    rw [passed, rest]

/-! ## All passes -/

/-- A scheme: one letter or more. -/
structure IsScheme (s : String) : Prop where
  nonempty : s ≠ ""
  letters : ∀ c ∈ s.toList, c.isAlpha = true

theorem IsScheme.plain {s : String} (isScheme : IsScheme s) :
    ∀ c ∈ s.toList, isCredentialChar c = true ∧ isSeparator c = false ∧ Text.isBlank c = false := by
  intro c mem
  have alphanum : c.isAlphanum = true := by
    rw [Char.isAlphanum, isScheme.letters c mem, Bool.true_or]
  exact Text.forall_isAlphanum (P := fun c => isCredentialChar c = true ∧ isSeparator c = false ∧
    Text.isBlank c = false) (by decide) alphanum

/-- Only the word for an authorization begins in the front of a header. -/
theorem hide_header_front {secret : Secret} (other : secret ≠ authorization) (later : List Char) :
    hide ("Authorization:".toList ++ ' ' :: later) secret =
      "Authorization:".toList ++ ' ' :: hide later secret := by
  refine hide_before (wordless_space secret) _ _ ?_
  cases secret with
  | authorization => exact absurd rfl other
  | key | bearer | password | address =>
    unfold words
    decide

/-- Without a separator the rest of a header stays in all passes but that for bearer tokens. -/
theorem hide_header (secret : Secret) (other : secret ≠ authorization) (other' : secret ≠ bearer)
    {later : List Char} (without : ∀ c ∈ later, isSeparator c = false) :
    hide ("Authorization:".toList ++ ' ' :: later) secret =
      "Authorization:".toList ++ ' ' :: later := by
  rw [hide_header_front other, hide_of_free (free_of_no_separator other' without)]

theorem isSeparator_pair {a b : List Char} (left : ∀ c ∈ a, isSeparator c = false)
    (right : ∀ c ∈ b, isSeparator c = false) : ∀ c ∈ a ++ ' ' :: b, isSeparator c = false := by
  intro c mem
  rcases List.mem_append.1 mem with mem | mem
  · exact left c mem
  · rcases List.mem_cons.1 mem with rfl | mem
    · decide
    · exact right c mem

theorem isSeparator_mark : ∀ c ∈ mark, isSeparator c = false := by decide

/-- A header that is masked. -/
theorem apply_header {s c : String} (isScheme : IsScheme s) (credential : IsCredential c) :
    Mask.apply ("Authorization: " ++ s ++ " " ++ c) =
      String.ofList ("Authorization:".toList ++ ' ' :: (schemeOf s.toList ++
        ' ' :: credentialsBehind s.toList c.toList)) := by
  have text : ("Authorization: " ++ s ++ " " ++ c).toList =
      "Authorization:".toList ++ ' ' :: (s.toList ++ ' ' :: c.toList) := by
    simp
  have nonempty : s.toList ≠ [] := fun empty => isScheme.nonempty (String.toList_eq_nil_iff.1 empty)
  have scheme := fun c mem => (isScheme.plain c mem).2.1
  have credentials : ∀ x ∈ credentialsBehind s.toList c.toList, isSeparator x = false := by
    unfold credentialsBehind
    split
    · exact isSeparator_mark
    · exact fun x mem => (credential.tokens x mem).2
  have schemes : ∀ x ∈ schemeOf s.toList, isSeparator x = false := by
    unfold schemeOf
    split
    · exact isSeparator_mark
    · exact scheme
  have keyed := hide_header key (by decide) (by decide)
    (isSeparator_pair scheme fun x mem => (credential.tokens x mem).2)
  have bearers := hide_bearer_scheme (fun c mem => (isScheme.plain c mem).2.2)
    (fun x mem => (credential.tokens x mem).1) (by rw [String.length_toList]; exact credential.long)
  have authorized := hide_authorization_header nonempty
    (fun c mem => ⟨(isScheme.plain c mem).1, scheme c mem⟩) credentials
  have masked := isSeparator_pair schemes credentials
  have passwords := hide_header password (by decide) (by decide) masked
  have addresses := hide_header address (by decide) (by decide) masked
  rw [apply_eq, text, keyed, hide_header_front (by decide), bearers]
  simp only [List.foldl_cons, List.foldl_nil]
  rw [authorized, passwords, addresses]

-- A long scheme is masked in place of the credentials.
example : Mask.apply "Authorization: Negotiate abcdefghijklmnopqrst" =
    "Authorization: ***MASKED*** abcdefghijklmnopqrst" := by decide +kernel

/-- A masked header does not tell the credentials exactly if its scheme ends in the word for a
bearer token. -/
theorem apply_header_eq_iff {s c₁ c₂ : String} (isScheme : IsScheme s)
    (credential₁ : IsCredential c₁) (credential₂ : IsCredential c₂) :
    Mask.apply ("Authorization: " ++ s ++ " " ++ c₁) =
        Mask.apply ("Authorization: " ++ s ++ " " ++ c₂) ↔
      c₁ = c₂ ∨ EndsInWord bearer.words s.toList := by
  rw [apply_header isScheme credential₁, apply_header isScheme credential₂, String.ofList_inj]
  simp only [List.append_cancel_left_eq, List.cons.injEq, true_and]
  unfold credentialsBehind
  by_cases ends : EndsInWord bearer.words s.toList
  · simp only [ends, if_true, or_true]
  · simp only [ends, if_false, or_false, String.toList_inj]

theorem apply_header_eq_iff_bearer :
    IsScheme "Bearer" ∧ IsCredential "abcdefghijklmnopqrst" ∧ IsCredential "0123456789+/._-token" ∧
      (Mask.apply ("Authorization: " ++ "Bearer" ++ " " ++ "abcdefghijklmnopqrst") =
          Mask.apply ("Authorization: " ++ "Bearer" ++ " " ++ "0123456789+/._-token") ↔
        "abcdefghijklmnopqrst" = "0123456789+/._-token" ∨
          EndsInWord bearer.words "Bearer".toList) :=
  have isScheme : IsScheme "Bearer" := ⟨by decide, by decide⟩
  ⟨isScheme, isCredential_letters, isCredential_signs,
    apply_header_eq_iff isScheme isCredential_letters isCredential_signs⟩

/-- The credentials of the basic scheme are not masked. -/
theorem apply_header_basic :
    IsScheme "Basic" ∧ IsCredential "dXNlcjpwYXNzd29yZDEyMzQ" ∧
      IsCredential "YWRtaW46aHVudGVyMmh1bnQ" ∧
      Mask.apply ("Authorization: " ++ "Basic" ++ " " ++ "dXNlcjpwYXNzd29yZDEyMzQ") ≠
        Mask.apply ("Authorization: " ++ "Basic" ++ " " ++ "YWRtaW46aHVudGVyMmh1bnQ") := by
  refine ⟨⟨by decide, by decide⟩, ⟨by decide, by decide⟩, ⟨by decide, by decide⟩, ?_⟩
  decide +kernel

end Mask

end GraphClient
