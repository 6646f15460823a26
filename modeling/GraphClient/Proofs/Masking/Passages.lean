import GraphClient.Logging.Mask
import GraphClient.Proofs.Text

/-!
# Where secrets are found

A `Secret.Occurrence` is a passage with a secret at the beginning of a text, said without a search:
a word, what joins it to the value, and all characters of the value.

* `Secret.find?_eq_some_iff`: what is found is exactly an occurrence, and nothing is left to choose.
* `Secret.Occurrence.found`: an occurrence is found whatever follows it.
-/

namespace GraphClient

/-! ## Characters -/

namespace Text

/-- The letters beyond ASCII that are a form of one of a to z. -/
def strangeLetters : List Char := ['\u017f', '\u212a', '\u0130', '\u0131']

theorem isLetter_cases {c : Char} (letter : isLetter c = true) :
    (65 ≤ c.toNat ∧ c.toNat ≤ 122) ∨ c ∈ strangeLetters := by
  by_cases strange : c ∈ strangeLetters
  · exact .inr strange
  · refine .inl ?_
    simp only [strangeLetters, List.mem_cons, List.not_mem_nil, or_false, not_or] at strange
    obtain ⟨s, k, i, i'⟩ := strange
    by_cases upper : c.val ≥ 'A'.val ∧ c.val ≤ 'Z'.val
    · have low : 65 ≤ c.toNat := UInt32.le_iff_toNat_le.1 upper.1
      have high : c.toNat ≤ 90 := UInt32.le_iff_toNat_le.1 upper.2
      omega
    · have small : c.toLower = c := dif_neg upper
      simp only [isLetter, smallLetter, s, k, i, i', or_self, if_false, Bool.and_eq_true,
        decide_eq_true_eq, Char.le_def, small] at letter
      have low : 97 ≤ c.toNat := UInt32.le_iff_toNat_le.1 letter.1
      have high : c.toNat ≤ 122 := UInt32.le_iff_toNat_le.1 letter.2
      omega

theorem isBlank_of_visible {c : Char} (low : 32 < c.toNat) (high : c.toNat < 127) :
    isBlank c = false := by
  simp only [isBlank, blankRanges, List.any_cons, List.any_nil, Bool.or_eq_false_iff,
    Bool.and_eq_false_iff, decide_eq_false_iff_not, and_true]
  omega

end Text

namespace Secret

theorem isTokenChar_cases {c : Char} (token : isTokenChar c = true) :
    (43 ≤ c.toNat ∧ c.toNat ≤ 122) ∨ c ∈ Text.strangeLetters := by
  simp only [isTokenChar, Bool.or_eq_true] at token
  rcases token with (letter | digit) | sign
  · exact (Text.isLetter_cases letter).imp_left fun h => ⟨by omega, h.2⟩
  · simp only [Char.isDigit, Bool.and_eq_true, decide_eq_true_eq] at digit
    have low : 48 ≤ c.toNat := UInt32.le_iff_toNat_le.1 digit.1
    have high : c.toNat ≤ 57 := UInt32.le_iff_toNat_le.1 digit.2
    omega
  · have all : ∀ d ∈ "+/=._-".toList, 43 ≤ d.toNat ∧ d.toNat ≤ 122 := by decide
    exact .inl (all c (List.contains_iff_mem.1 sign))

theorem isFiller_of_token {c : Char} (token : isTokenChar c = true) : isFiller c = false := by
  rcases isTokenChar_cases token with ⟨low, high⟩ | strange
  · have blank : Text.isBlank c = false := Text.isBlank_of_visible (by omega) (by omega)
    have other : c ≠ '"' := by rintro rfl; exact absurd low (by decide)
    simp only [isFiller, blank, other, decide_false, Bool.or_self]
  · have all : ∀ d ∈ Text.strangeLetters, isFiller d = false := by decide
    exact all c strange

theorem isBlank_of_isFiller {c : Char} (other : isFiller c = false) : Text.isBlank c = false := by
  simp only [isFiller, Bool.or_eq_false_iff] at other
  exact other.2

theorem isBlank_of_credential {c : Char} (plain : isCredentialChar c = true) :
    Text.isBlank c = false := by
  simp only [isCredentialChar, isPasswordChar, Bool.and_eq_true, Bool.not_eq_true'] at plain
  exact plain.1.1.1

theorem isQuote_of_credential {c : Char} (plain : isCredentialChar c = true) :
    isQuote c = false := by
  simp only [isCredentialChar, isPasswordChar, Bool.and_eq_true, Bool.not_eq_true'] at plain
  exact plain.1.1.2

theorem isFiller_of_password {c : Char} (plain : isPasswordChar c = true) :
    isFiller c = false := by
  simp only [isPasswordChar, isQuote, Bool.and_eq_true, Bool.not_eq_true',
    Bool.or_eq_false_iff] at plain
  simp only [isFiller, plain.1, plain.2.1, Bool.or_self]

theorem isSeparator_cases {c : Char} (separator : isSeparator c = true) : c = ':' ∨ c = '=' := by
  simpa only [isSeparator, Bool.or_eq_true, decide_eq_true_eq] using separator

theorem isFiller_of_separator {c : Char} (separator : isSeparator c = true) :
    isFiller c = false := by
  rcases isSeparator_cases separator with rfl | rfl <;> decide

theorem isQuote_of_separator {c : Char} (separator : isSeparator c = true) : isQuote c = false := by
  rcases isSeparator_cases separator with rfl | rfl <;> decide

theorem isQuote_of_blank {c : Char} (blank : Text.isBlank c = true) : isQuote c = false := by
  rw [isQuote, Bool.or_eq_false_iff, decide_eq_false_iff_not, decide_eq_false_iff_not]
  constructor <;> (rintro rfl; exact absurd blank (by decide))

theorem isBlank_of_quote {c : Char} (quote : isQuote c = true) : Text.isBlank c = false := by
  cases blank : Text.isBlank c with
  | true => rw [isQuote_of_blank blank] at quote; cases quote
  | false => rfl

theorem isBlank_of_separator {c : Char} (separator : isSeparator c = true) :
    Text.isBlank c = false :=
  isBlank_of_isFiller (isFiller_of_separator separator)

end Secret

/-! ## Parts -/

namespace Passage

variable {p : Char → Bool} {cs a rest : List Char}

/-- A text is one of some words but for letter case. -/
def IsWord (words : List String) (cs : List Char) : Prop :=
  ∃ w ∈ words, cs.map Text.smallLetter = w.toList

/-- No word begins another one. -/
def PrefixFree (words : List String) : Prop :=
  ∀ w ∈ words, ∀ w' ∈ words, w.toList <+: w'.toList → w = w'

theorem word_eq_some_iff {w : String} :
    word w cs = some (a, rest) ↔ cs = a ++ rest ∧ a.map Text.smallLetter = w.toList := by
  unfold word
  dsimp only
  constructor
  · intro found
    split at found
    · rename_i small
      cases found
      exact ⟨(List.take_append_drop w.length cs).symm, small⟩
    · cases found
  · rintro ⟨rfl, small⟩
    have length : a.length = w.length := by
      rw [← String.length_toList, ← small, List.length_map]
    rw [List.take_left' length, List.drop_left' length, if_pos small]

/-- Two words of a text that begins with both are the same. -/
theorem PrefixFree.eq {words : List String} (free : PrefixFree words) {w w' : String}
    (mem : w ∈ words) (mem' : w' ∈ words) {b rest' : List Char}
    (small : a.map Text.smallLetter = w.toList) (small' : b.map Text.smallLetter = w'.toList)
    (same : a ++ rest = b ++ rest') : w = w' := by
  have begins : a.map Text.smallLetter <+: (b ++ rest').map Text.smallLetter :=
    (same ▸ List.prefix_append a rest).map _
  have begins' : b.map Text.smallLetter <+: (b ++ rest').map Text.smallLetter :=
    (List.prefix_append b rest').map _
  rcases List.prefix_or_prefix_of_prefix begins begins' with shorter | longer
  · exact free w mem w' mem' (by rwa [small, small'] at shorter)
  · exact (free w' mem' w mem (by rwa [small, small'] at longer)).symm

theorem oneOf_eq_some_iff {words : List String} (free : PrefixFree words) :
    oneOf words cs = some (a, rest) ↔ cs = a ++ rest ∧ IsWord words a := by
  rw [oneOf]
  constructor
  · intro found
    obtain ⟨w, mem, here⟩ := List.exists_of_findSome?_eq_some found
    obtain ⟨split, small⟩ := word_eq_some_iff.1 here
    exact ⟨split, w, mem, small⟩
  · rintro ⟨rfl, w, mem, small⟩
    cases found : words.findSome? fun w => word w (a ++ rest) with
    | none =>
      have here := List.findSome?_eq_none_iff.1 found w mem
      rw [word_eq_some_iff.2 ⟨rfl, small⟩] at here
      cases here
    | some q =>
      obtain ⟨w', mem', here⟩ := List.exists_of_findSome?_eq_some found
      obtain ⟨split, small'⟩ := word_eq_some_iff.1 here
      obtain rfl := free.eq mem mem' small small' split
      rwa [word_eq_some_iff.2 ⟨rfl, small⟩, eq_comm] at here

theorem single_eq_some_iff :
    single p cs = some (a, rest) ↔ ∃ c, p c = true ∧ a = [c] ∧ cs = c :: rest := by
  cases cs with
  | nil => simp [single]
  | cons c cs =>
    rw [single]
    split <;> rename_i holds
    · simp only [Option.some.injEq, Prod.mk.injEq, List.cons.injEq]
      constructor
      · rintro ⟨rfl, rfl⟩
        exact ⟨c, holds, rfl, rfl, rfl⟩
      · rintro ⟨d, -, rfl, rfl, rfl⟩
        exact ⟨rfl, rfl⟩
    · refine ⟨fun found => (Option.some_ne_none _ found.symm).elim, ?_⟩
      rintro ⟨d, holds', -, same⟩
      cases same
      exact absurd holds' holds

theorem atLeast_eq_some_iff {least : Nat} :
    atLeast least p cs = some (a, rest) ↔ cs = a ++ rest ∧ (∀ c ∈ a, p c = true) ∧
      least ≤ a.length ∧ ∀ c ∈ rest.head?, p c = false := by
  unfold atLeast
  dsimp only
  constructor
  · intro found
    split at found
    · rename_i long
      cases found
      exact ⟨List.takeWhile_append_dropWhile.symm, fun _ => List.mem_takeWhile_imp, long,
        Text.head?_dropWhile p cs⟩
    · cases found
  · rintro ⟨rfl, holds, long, ends⟩
    obtain ⟨taken, dropped⟩ := Text.span_front rest holds ends
    rw [taken, dropped, if_pos long]

theorem atMostOne_append (few : a.length ≤ 1) (holds : ∀ c ∈ a, p c = true)
    (ends : a = [] → ∀ c ∈ rest.head?, p c = false) : atMostOne p (a ++ rest) = (a, rest) := by
  match a, few with
  | [], _ =>
    cases rest with
    | nil => rfl
    | cons c rest =>
      have other : p c = false := ends rfl c rfl
      simp only [List.nil_append, atMostOne, other, Bool.false_eq_true, if_false]
  | [c], _ =>
    have here : p c = true := holds c List.mem_cons_self
    simp only [List.cons_append, List.nil_append, atMostOne, here, if_true]

theorem atMostOne_spec (p : Char → Bool) (cs : List Char) :
    cs = (atMostOne p cs).1 ++ (atMostOne p cs).2 ∧ (atMostOne p cs).1.length ≤ 1 ∧
      ∀ c ∈ (atMostOne p cs).1, p c = true := by
  cases cs with
  | nil => exact ⟨rfl, Nat.zero_le 1, fun _ mem => absurd mem List.not_mem_nil⟩
  | cons c cs =>
    rw [atMostOne]
    split
    · rename_i holds
      exact ⟨rfl, Nat.le_refl 1, fun d mem => List.mem_singleton.1 mem ▸ holds⟩
    · exact ⟨rfl, Nat.zero_le 1, fun _ mem => absurd mem List.not_mem_nil⟩

end Passage

/-! ## Occurrences -/

namespace Secret

open Passage

variable {secret : Secret} {cs : List Char}

/-- The words that a passage begins with. -/
def words : Secret → List String
  | key => ["apikey", "api_key", "api-key", "token", "secret"]
  | bearer => ["bearer"]
  | authorization => ["authorization"]
  | password => ["password", "passwd", "pwd"]
  | address => ["http://", "https://"]

/-- The characters of a value. -/
def takes : Secret → Char → Bool
  | key | bearer => isTokenChar
  | authorization => isCredentialChar
  | password => isPasswordChar
  | address => isAddressPasswordChar

/-- How long a value is at least. -/
def least : Secret → Nat
  | key | bearer => 20
  | authorization => 8
  | password | address => 1

/-- What stands behind a value. -/
def closing : Secret → List Char
  | address => ['@']
  | _ => []

/-- What is written for the separator, where it is not kept. -/
def joint : Secret → List Char
  | key | password => ": ".toList
  | _ => []

/-- A separator with fillers on both sides. -/
def Separates (gap : List Char) : Prop :=
  ∃ before s behind, gap = before ++ s :: behind ∧ (∀ c ∈ before, isFiller c = true) ∧
    isSeparator s = true ∧ ∀ c ∈ behind, isFiller c = true

/-- What may stand between a word and a value: a part that is kept, and one that is not. -/
inductive Joins : Secret → List Char → List Char → Prop
  | key {gap : List Char} : Separates gap → Joins key [] gap
  | bearer {blanks : List Char} : 1 ≤ blanks.length → (∀ c ∈ blanks, Text.isBlank c = true) →
    Joins bearer blanks []
  | authorization {closing before behind opening : List Char} {s : Char} :
    closing.length ≤ 1 → (∀ c ∈ closing, isQuote c = true) →
    (∀ c ∈ before, Text.isBlank c = true) → isSeparator s = true →
    (∀ c ∈ behind, Text.isBlank c = true) →
    opening.length ≤ 1 → (∀ c ∈ opening, isQuote c = true) →
    Joins authorization (closing ++ (before ++ s :: (behind ++ opening))) []
  | password {gap : List Char} : Separates gap → Joins password [] gap
  | address {user : List Char} : 1 ≤ user.length → (∀ c ∈ user, isUserChar c = true) →
    Joins address (user ++ [':']) []

/-- A passage with a secret at the beginning of a text. -/
structure Occurrence (secret : Secret) where
  name : List Char
  kept : List Char
  gap : List Char
  value : List Char
  rest : List Char
  word : IsWord secret.words name
  joins : secret.Joins kept gap
  plain : ∀ c ∈ value, secret.takes c = true
  long : secret.least ≤ value.length
  ends : ∀ c ∈ (secret.closing ++ rest).head?, secret.takes c = false

namespace Occurrence

variable (o : secret.Occurrence)

/-- The whole text. -/
def text : List Char := o.name ++ (o.kept ++ (o.gap ++ (o.value ++ (secret.closing ++ o.rest))))

/-- The passage alone. -/
def body : List Char := o.name ++ (o.kept ++ (o.gap ++ (o.value ++ secret.closing)))

/-- What is written in place of the passage. -/
def masked : List Char := o.name ++ (o.kept ++ (secret.joint ++ (mark ++ secret.closing)))

theorem text_eq : o.text = o.body ++ o.rest := by
  simp only [text, body, List.append_assoc]

/-- The same passage before another text. -/
def before (later : List Char)
    (ends : ∀ c ∈ (secret.closing ++ later).head?, secret.takes c = false) : secret.Occurrence :=
  { o with rest := later, ends := ends }

/-- The passage before another text, with what the value takes of it. -/
def widened (unclosed : secret.closing = []) (later : List Char) : secret.Occurrence :=
  { o with
    value := o.value ++ later.takeWhile secret.takes
    rest := later.dropWhile secret.takes
    plain := fun c mem => (List.mem_append.1 mem).elim (o.plain c) List.mem_takeWhile_imp
    long := o.long.trans (by rw [List.length_append]; exact Nat.le_add_right ..)
    ends := by rw [unclosed, List.nil_append]; exact Text.head?_dropWhile _ _ }

theorem text_widened (unclosed : secret.closing = []) (later : List Char) :
    (o.widened unclosed later).text = o.body ++ later := by
  simp only [text, body, widened, unclosed, List.append_nil, List.nil_append, List.append_assoc,
    List.takeWhile_append_dropWhile]

end Occurrence

theorem prefixFree_words (secret : Secret) : PrefixFree secret.words := by
  cases secret <;> (unfold PrefixFree words; decide)

theorem separated_eq_some_iff {rest : List Char} :
    separated cs = some rest ↔
      ∃ gap, Separates gap ∧ cs = gap ++ rest ∧ ∀ c ∈ rest.head?, isFiller c = false := by
  simp only [separated, Option.bind_eq_bind, Option.bind_eq_some_iff, Prod.exists,
    single_eq_some_iff]
  constructor
  · rintro ⟨-, behind, ⟨s, separator, -, there⟩, found⟩
    cases found
    refine ⟨cs.takeWhile isFiller ++ s :: behind.takeWhile isFiller,
      ⟨_, s, _, rfl, fun _ => List.mem_takeWhile_imp, separator,
        fun _ => List.mem_takeWhile_imp⟩, ?_, Text.head?_dropWhile _ _⟩
    rw [List.append_assoc, List.cons_append, List.takeWhile_append_dropWhile, ← there,
      List.takeWhile_append_dropWhile]
  · rintro ⟨_, ⟨before, s, behind, rfl, fillers, separator, fillers'⟩, rfl, ends⟩
    have stop : ∀ c ∈ (s :: (behind ++ rest)).head?, isFiller c = false := by
      rintro c ⟨⟩
      exact isFiller_of_separator separator
    refine ⟨[s], behind ++ rest, ⟨s, separator, rfl, ?_⟩, ?_⟩
    · rw [List.append_assoc, List.cons_append, (Text.span_front _ fillers stop).2]
    · exact congrArg some (Text.span_front rest fillers' ends).2

/-- The word of a bearer token and a blank are no value of an authorization: it is too short. -/
theorem beginsWithBearer_eq_false {value rest : List Char}
    (plain : ∀ c ∈ value, isCredentialChar c = true) (long : 8 ≤ value.length) :
    beginsWithBearer (value ++ rest) = false := by
  rw [beginsWithBearer, Option.isSome_eq_false_iff, Option.isNone_iff_eq_none,
    Option.bind_eq_none_iff]
  rintro ⟨name, cs⟩ found
  obtain ⟨split, small⟩ := word_eq_some_iff.1 found
  have length : name.length = 6 := by
    rw [← List.length_map Text.smallLetter, small]
    rfl
  rw [Option.eq_none_iff_forall_ne_some]
  rintro ⟨_, _⟩ blank
  obtain ⟨c, isBlank, -, rfl⟩ := single_eq_some_iff.1 blank
  rcases List.append_eq_append_iff.1 split with ⟨z, rfl, -⟩ | ⟨z, rfl, later⟩
  · rw [List.length_append] at length
    omega
  · cases z with
    | nil =>
      rw [List.append_nil, length] at long
      omega
    | cons d z =>
      obtain ⟨rfl, -⟩ := List.cons.inj later
      have plain' := plain c (List.mem_append_right name List.mem_cons_self)
      simp [isCredentialChar, isPasswordChar, isBlank] at plain'

/-! ### One kind of secret after the other -/

section Kinds

variable {p : Passage}

theorem head?_value {value rest : List Char} {least : Nat} (long : least ≤ value.length)
    (nonempty : 1 ≤ least) {q : Char → Bool} (other : ∀ c ∈ value, q c = false) :
    ∀ c ∈ (value ++ rest).head?, q c = false := by
  cases value with
  | nil => exact absurd (nonempty.trans long) (by decide)
  | cons d value =>
    rintro c ⟨⟩
    exact other d List.mem_cons_self

/-- A kind of secret with a separator that is written anew: what is found are the occurrences. -/
theorem separatedValue_eq_some_iff (secret : Secret)
    (joins : ∀ {kept gap}, secret.Joins kept gap ↔ kept = [] ∧ Separates gap)
    (joint : secret.joint = ": ".toList) (closing : secret.closing = [])
    (other : ∀ c, secret.takes c = true → isFiller c = false) (nonempty : 1 ≤ secret.least) :
    (do
      let (name, cs) ← oneOf secret.words cs
      let cs ← separated cs
      let (_, cs) ← atLeast secret.least secret.takes cs
      return (⟨name ++ ": ".toList ++ mark, cs⟩ : Passage)) = some p ↔
    ∃ o : secret.Occurrence, o.text = cs ∧ o.masked = p.masked ∧ o.rest = p.rest := by
  simp only [Option.bind_eq_bind, Option.bind_eq_some_iff, Prod.exists,
    oneOf_eq_some_iff (prefixFree_words secret), separated_eq_some_iff, atLeast_eq_some_iff]
  constructor
  · rintro ⟨name, _, ⟨rfl, isWord⟩, _, ⟨gap, separates, rfl, -⟩, value, rest,
      ⟨rfl, plain, long, ends⟩, found⟩
    cases found
    refine ⟨⟨name, [], gap, value, rest, isWord, joins.2 ⟨rfl, separates⟩, plain, long, ?_⟩, ?_, ?_,
      rfl⟩
    · rwa [closing, List.nil_append]
    · simp only [Occurrence.text, closing, List.nil_append]
    · simp only [Occurrence.masked, joint, closing, List.nil_append, List.append_nil,
        List.append_assoc]
  · rintro ⟨⟨name, kept, gap, value, _, isWord, between, plain, long, ends⟩, rfl, masked, rfl⟩
    obtain ⟨rfl, separates⟩ := joins.1 between
    rw [closing, List.nil_append] at ends
    rw [Occurrence.masked, joint, closing, List.nil_append, List.append_nil] at masked
    have first : ∀ c ∈ (value ++ p.rest).head?, isFiller c = false :=
      head?_value long nonempty fun c mem => other c (plain c mem)
    refine ⟨name, _, ⟨?_, isWord⟩, _, ⟨gap, separates, rfl, first⟩, value, p.rest,
      ⟨rfl, plain, long, ends⟩, ?_⟩
    · simp only [Occurrence.text, closing, List.nil_append]
    · rw [List.append_assoc, masked]
      rfl

theorem findKey_eq_some_iff : findKey cs = some p ↔
    ∃ o : key.Occurrence, o.text = cs ∧ o.masked = p.masked ∧ o.rest = p.rest :=
  separatedValue_eq_some_iff key
    ⟨fun | .key separates => ⟨rfl, separates⟩,
      fun ⟨nothing, separates⟩ => nothing ▸ .key separates⟩
    rfl rfl (fun _ => isFiller_of_token) (by decide)

theorem findPassword_eq_some_iff : findPassword cs = some p ↔
    ∃ o : password.Occurrence, o.text = cs ∧ o.masked = p.masked ∧ o.rest = p.rest :=
  separatedValue_eq_some_iff password
    ⟨fun | .password separates => ⟨rfl, separates⟩,
      fun ⟨nothing, separates⟩ => nothing ▸ .password separates⟩
    rfl rfl (fun _ => isFiller_of_password) (by decide)

theorem isWord_singleton {w : String} {name : List Char} :
    IsWord [w] name ↔ name.map Text.smallLetter = w.toList := by
  simp only [IsWord, List.mem_singleton, exists_eq_left]

theorem findBearer_eq_some_iff : findBearer cs = some p ↔
    ∃ o : bearer.Occurrence, o.text = cs ∧ o.masked = p.masked ∧ o.rest = p.rest := by
  simp only [findBearer, Option.bind_eq_bind, Option.bind_eq_some_iff, Prod.exists,
    word_eq_some_iff, atLeast_eq_some_iff]
  constructor
  · rintro ⟨name, _, ⟨rfl, small⟩, gap, _, ⟨rfl, blanks, nonempty, -⟩, value, rest,
      ⟨rfl, plain, long, ends⟩, found⟩
    cases found
    refine ⟨⟨name, gap, [], value, rest, isWord_singleton.2 small, .bearer nonempty blanks, plain,
      long, ends⟩, rfl, ?_, rfl⟩
    simp only [Occurrence.masked, joint, closing, List.nil_append, List.append_nil,
      List.append_assoc]
  · rintro ⟨⟨name, kept, _, value, _, isWord, joins, plain, long, ends⟩, rfl, masked, rfl⟩
    cases joins with
    | bearer nonempty blanks =>
      refine ⟨name, _, ⟨rfl, isWord_singleton.1 isWord⟩, kept, _, ⟨rfl, blanks, nonempty, ?_⟩,
        value, p.rest, ⟨rfl, plain, long, ends⟩, ?_⟩
      · exact head?_value long (by decide) fun c mem =>
          isBlank_of_isFiller (isFiller_of_token (plain c mem))
      · rw [List.append_assoc]
        exact congrArg (fun masked => some (⟨masked, p.rest⟩ : Passage)) masked

theorem findAddress_eq_some_iff : findAddress cs = some p ↔
    ∃ o : address.Occurrence, o.text = cs ∧ o.masked = p.masked ∧ o.rest = p.rest := by
  have free : PrefixFree ["http://", "https://"] := prefixFree_words address
  simp only [findAddress, Option.bind_eq_bind, Option.bind_eq_some_iff, Prod.exists,
    oneOf_eq_some_iff free, atLeast_eq_some_iff, single_eq_some_iff]
  constructor
  · rintro ⟨scheme, _, ⟨rfl, isWord⟩, user, _, ⟨rfl, users, nonempty, -⟩, _, _,
      ⟨c, colon, rfl, rfl⟩, value, _, ⟨rfl, plain, long, -⟩, _, rest, ⟨d, at', rfl, rfl⟩, found⟩
    cases found
    obtain rfl := of_decide_eq_true colon
    obtain rfl := of_decide_eq_true at'
    refine ⟨⟨scheme, user ++ [':'], [], value, rest, isWord, .address nonempty users, plain,
      long, ?_⟩, ?_, ?_, rfl⟩
    · rintro c ⟨⟩
      decide
    · simp only [Occurrence.text, closing, List.append_assoc, List.cons_append, List.nil_append]
    · simp [Occurrence.masked, joint, closing]
  · rintro ⟨⟨scheme, _, _, value, _, isWord, joins, plain, long, ends⟩, rfl, masked, rfl⟩
    cases joins with
    | @address user nonempty users =>
      refine ⟨scheme, _, ⟨rfl, isWord⟩, user, ':' :: (value ++ ('@' :: p.rest)),
        ⟨?_, users, nonempty, ?_⟩, _, _, ⟨':', by decide, rfl, rfl⟩, value, '@' :: p.rest,
        ⟨rfl, plain, long, ends⟩, _, p.rest, ⟨'@', by decide, rfl, rfl⟩, ?_⟩
      · simp only [closing, List.append_assoc, List.cons_append, List.nil_append]
      · rintro c ⟨⟩
        decide
      · simp only [Occurrence.masked, joint, closing, List.append_assoc] at masked ⊢
        exact congrArg (fun masked => some (⟨masked, p.rest⟩ : Passage)) masked

theorem blanks_append {a rest : List Char} (holds : ∀ c ∈ a, Text.isBlank c = true)
    (ends : ∀ c ∈ rest.head?, Text.isBlank c = false) : blanks (a ++ rest) = (a, rest) := by
  obtain ⟨taken, dropped⟩ := Text.span_front rest holds ends
  rw [blanks, taken, dropped]

theorem findAuthorization_append {name closing before behind opening value rest : List Char}
    {s : Char} (small : name.map Text.smallLetter = "authorization".toList)
    (few : closing.length ≤ 1) (quotes : ∀ c ∈ closing, isQuote c = true)
    (blank : ∀ c ∈ before, Text.isBlank c = true) (separator : isSeparator s = true)
    (blank' : ∀ c ∈ behind, Text.isBlank c = true) (few' : opening.length ≤ 1)
    (quotes' : ∀ c ∈ opening, isQuote c = true) (plain : ∀ c ∈ value, isCredentialChar c = true)
    (long : 8 ≤ value.length) (ends : ∀ c ∈ rest.head?, isCredentialChar c = false) :
    findAuthorization
        (name ++ (closing ++ (before ++ s :: (behind ++ (opening ++ (value ++ rest)))))) =
      some ⟨name ++ closing ++ before ++ [s] ++ behind ++ opening ++ mark, rest⟩ := by
  have first {q : Char → Bool} (other : ∀ {c}, isCredentialChar c = true → q c = false) :
      ∀ c ∈ (value ++ rest).head?, q c = false :=
    head?_value long (by decide) fun c mem => other (plain c mem)
  have named : word "authorization" (name ++ (closing ++ (before ++ s :: (behind ++ (opening ++
      (value ++ rest)))))) =
      some (name, closing ++ (before ++ s :: (behind ++ (opening ++ (value ++ rest))))) :=
    word_eq_some_iff.2 ⟨rfl, small⟩
  have closed : atMostOne isQuote (closing ++ (before ++ s :: (behind ++ (opening ++
      (value ++ rest))))) = (closing, before ++ s :: (behind ++ (opening ++ (value ++ rest)))) := by
    refine atMostOne_append few quotes fun _ => ?_
    cases before with
    | nil =>
      rintro c ⟨⟩
      exact isQuote_of_separator separator
    | cons d before =>
      rintro c ⟨⟩
      exact isQuote_of_blank (blank d List.mem_cons_self)
  have around : blanks (before ++ s :: (behind ++ (opening ++ (value ++ rest)))) =
      (before, s :: (behind ++ (opening ++ (value ++ rest)))) := by
    refine blanks_append blank ?_
    rintro c ⟨⟩
    exact isBlank_of_separator separator
  have separated : single isSeparator (s :: (behind ++ (opening ++ (value ++ rest)))) =
      some ([s], behind ++ (opening ++ (value ++ rest))) :=
    single_eq_some_iff.2 ⟨s, separator, rfl, rfl⟩
  have around' : blanks (behind ++ (opening ++ (value ++ rest))) =
      (behind, opening ++ (value ++ rest)) := by
    refine blanks_append blank' ?_
    cases opening with
    | nil => exact first isBlank_of_credential
    | cons d opening =>
      rintro c ⟨⟩
      exact isBlank_of_quote (quotes' d List.mem_cons_self)
  have opened := atMostOne_append few' quotes' fun _ => first isQuote_of_credential
  have taken : atLeast 8 isCredentialChar (value ++ rest) = some (value, rest) :=
    atLeast_eq_some_iff.2 ⟨rfl, plain, long, ends⟩
  have other : beginsWithBearer (value ++ rest) = false := beginsWithBearer_eq_false plain long
  simp only [findAuthorization, Option.bind_eq_bind, named, closed, around, separated, around',
    opened, other, taken, Option.bind_some, Bool.false_eq_true, if_false]
  rfl

theorem findAuthorization_eq_some_iff : findAuthorization cs = some p ↔
    ∃ o : authorization.Occurrence, o.text = cs ∧ o.masked = p.masked ∧ o.rest = p.rest := by
  constructor
  · intro found
    simp only [findAuthorization, Option.bind_eq_bind, Option.bind_eq_some_iff, Prod.exists,
      word_eq_some_iff, single_eq_some_iff, blanks] at found
    obtain ⟨name, later, ⟨rfl, small⟩, _, later', ⟨s, separator, rfl, there⟩, found⟩ := found
    obtain ⟨⟨value, rest⟩, found', made⟩ :=
      Option.bind_eq_some_iff.1 (Option.ite_none_left_eq_some.1 found).2
    obtain ⟨there', plain, long, ends⟩ := atLeast_eq_some_iff.1 found'
    cases made
    clear found found'
    obtain ⟨split, few, quotes⟩ := atMostOne_spec isQuote later
    obtain ⟨split', few', quotes'⟩ := atMostOne_spec isQuote (later'.dropWhile Text.isBlank)
    generalize (atMostOne isQuote later).1 = closing' at *
    generalize (atMostOne isQuote later).2 = around at *
    generalize (atMostOne isQuote (later'.dropWhile Text.isBlank)).1 = opening at *
    generalize (atMostOne isQuote (later'.dropWhile Text.isBlank)).2 = last at *
    have joins : authorization.Joins (closing' ++ (around.takeWhile Text.isBlank ++
        s :: (later'.takeWhile Text.isBlank ++ opening))) [] :=
      .authorization few quotes (fun _ => List.mem_takeWhile_imp) separator
        (fun _ => List.mem_takeWhile_imp) few' quotes'
    refine ⟨⟨name, _, [], value, rest, isWord_singleton.2 small, joins, plain, long, ends⟩, ?_, ?_,
      rfl⟩
    · calc
        _ = name ++ (closing' ++ (around.takeWhile Text.isBlank ++ s ::
              (later'.takeWhile Text.isBlank ++ (opening ++ (value ++ rest))))) := by
            simp only [Occurrence.text, closing, List.nil_append, List.append_assoc,
              List.cons_append]
        _ = name ++ later := by
            rw [← there', ← split', List.takeWhile_append_dropWhile, ← there,
              List.takeWhile_append_dropWhile, ← split]
    · simp only [Occurrence.masked, joint, closing, List.nil_append, List.append_nil,
        List.append_assoc, List.cons_append]
  · rintro ⟨⟨name, _, _, value, _, isWord, joins, plain, long, ends⟩, rfl, masked, rfl⟩
    cases joins with
    | @authorization closing' before behind opening s few quotes blank separator blank' few'
        quotes' =>
      simp only [Occurrence.masked, joint, closing, List.nil_append, List.append_nil,
        List.append_assoc, List.cons_append] at masked
      have found := findAuthorization_append (isWord_singleton.1 isWord) few quotes blank separator
        blank' few' quotes' plain long ends
      simp only [List.append_assoc, List.cons_append, List.nil_append, masked] at found
      simpa only [Occurrence.text, closing, List.nil_append, List.append_assoc, List.cons_append]
        using found

theorem find?_eq_some_iff : secret.find? cs = some p ↔
    ∃ o : secret.Occurrence, o.text = cs ∧ o.masked = p.masked ∧ o.rest = p.rest := by
  cases secret with
  | key => exact findKey_eq_some_iff
  | bearer => exact findBearer_eq_some_iff
  | authorization => exact findAuthorization_eq_some_iff
  | password => exact findPassword_eq_some_iff
  | address => exact findAddress_eq_some_iff

end Kinds

namespace Occurrence

variable (o : secret.Occurrence)

/-- An occurrence is found. -/
theorem found : secret.find? o.text = some ⟨o.masked, o.rest⟩ :=
  find?_eq_some_iff.2 ⟨o, rfl, rfl, rfl⟩

/-- Whatever stands behind a passage, one is found where it begins. -/
theorem isSome_find? (later : List Char) : (secret.find? (o.body ++ later)).isSome = true := by
  cases close : secret.closing with
  | nil =>
    rw [← o.text_widened close later, found]
    rfl
  | cons d ds =>
    have ends : ∀ c ∈ (secret.closing ++ later).head?, secret.takes c = false := by
      simpa [close] using o.ends
    have text : (o.before later ends).text = o.body ++ later := text_eq _
    rw [← text, found]
    rfl

theorem name_ne_nil : o.name ≠ [] := by
  intro empty
  obtain ⟨w, mem, small⟩ := o.word
  rw [empty, List.map_nil, eq_comm, String.toList_eq_nil_iff] at small
  have all : ∀ secret : Secret, "" ∉ secret.words := by
    intro secret
    cases secret <;> decide
  exact all secret (small ▸ mem)

theorem body_ne_nil : o.body ≠ [] := List.append_ne_nil_of_left_ne_nil o.name_ne_nil _

end Occurrence

/-- Nothing is found where no passage begins. -/
theorem find?_eq_none_iff :
    secret.find? cs = none ↔ ∀ o : secret.Occurrence, ¬ o.body <+: cs := by
  constructor
  · rintro none o ⟨later, rfl⟩
    rw [Option.eq_none_iff_forall_ne_some] at none
    exact absurd (o.isSome_find? later) (by simp [Option.isSome_iff_exists, none])
  · intro free
    rw [Option.eq_none_iff_forall_ne_some]
    intro p found
    obtain ⟨o, rfl, -, -⟩ := find?_eq_some_iff.1 found
    exact free o (o.text_eq ▸ List.prefix_append ..)

end Secret

end GraphClient
