import GraphClient.Proofs.Masking.Hiding

/-!
# Bearer tokens in a message

A token that stands behind the word for a bearer token is masked, so that nothing of it is left in
the message. Two passes touch it: the one for keys comes first and may find the end of the token as
a key word, and the one for bearer tokens finds the token itself.

* `Mask.hide_append_of_outside`: a text that ends outside of tokens is masked on its own.
* `Mask.hide_key_token`: the pass for keys leaves the token alone; what it makes of the text behind
  depends only on whether the token ends in a key word.
* `Mask.hide_bearer_token`: the pass for bearer tokens masks it.
* `Mask.apply_bearer_token`: the masked message does not depend on the token.
-/

namespace GraphClient

namespace Text

/-- Only the letters a to z have another small form. -/
theorem smallLetter_of_not_isLetter {c : Char} (other : isLetter c = false) :
    smallLetter c = c := by
  by_cases ascii : c.toNat < 128
  · have all : ∀ n < 128, isLetter (Char.ofNat n) = false →
        smallLetter (Char.ofNat n) = Char.ofNat n := by decide
    simpa only [Char.ofNat_toNat] using all c.toNat ascii (by rwa [Char.ofNat_toNat])
  · by_cases strange : c ∈ strangeLetters
    · have all : ∀ d ∈ strangeLetters, isLetter d = true := by decide
      rw [all c strange] at other
      cases other
    · simp only [strangeLetters, List.mem_cons, List.not_mem_nil, or_false, not_or] at strange
      obtain ⟨s, k, i, i'⟩ := strange
      have notUpper : ¬ (c.val ≥ 'A'.val ∧ c.val ≤ 'Z'.val) := by
        rintro ⟨-, high⟩
        have high : c.toNat ≤ 90 := UInt32.le_iff_toNat_le.1 high
        omega
      have small : c.toLower = c := dif_neg notUpper
      simp only [smallLetter, s, k, i, i', or_self, if_false, small]

end Text

namespace Secret

open Passage

variable {secret : Secret}

/-! ## Tokens and the words before them -/

/-- The kinds of secrets that are tokens. -/
def IsTokenKind (secret : Secret) : Prop := secret = key ∨ secret = bearer

theorem closing_of_kind (kind : IsTokenKind secret) : secret.closing = [] := by
  rcases kind with rfl | rfl <;> rfl

theorem isTokenChar_of_smallLetter {c : Char} (token : isTokenChar (Text.smallLetter c) = true) :
    isTokenChar c = true := by
  cases letter : Text.isLetter c with
  | true => simp only [isTokenChar, letter, Bool.true_or]
  | false => rwa [Text.smallLetter_of_not_isLetter letter] at token

theorem smallLetter_of_isSeparator {c : Char} (separator : isSeparator c = true) :
    Text.smallLetter c = c := by
  rcases isSeparator_cases separator with rfl | rfl <;> decide

/-- The characters of a word before a token are in tokens, and are no separators. -/
theorem isTokenChar_of_isWord (kind : IsTokenKind secret) {name : List Char}
    (word : IsWord secret.words name) {c : Char} (mem : c ∈ name) :
    isTokenChar c = true ∧ isSeparator c = false := by
  obtain ⟨w, listed, small⟩ := word
  have within : Text.smallLetter c ∈ w.toList := small ▸ List.mem_map_of_mem mem
  have all : ∀ w ∈ secret.words, ∀ d ∈ w.toList, isTokenChar d = true ∧ isSeparator d = false := by
    rcases kind with rfl | rfl <;> (unfold words; decide)
  obtain ⟨token, other⟩ := all w listed _ within
  refine ⟨isTokenChar_of_smallLetter token, ?_⟩
  cases separator : isSeparator c with
  | false => rfl
  | true =>
    rw [smallLetter_of_isSeparator separator, separator] at other
    cases other

/-- A text is empty or its last character is in no token. -/
def EndsOutside (cs : List Char) : Prop := ∀ c ∈ cs.getLast?, isTokenChar c = false

/-- A text is empty or its first character is in no token. -/
def StartsOutside (cs : List Char) : Prop := ∀ c ∈ cs.head?, isTokenChar c = false

instance (cs : List Char) : Decidable (EndsOutside cs) :=
  inferInstanceAs (Decidable (∀ c ∈ cs.getLast?, isTokenChar c = false))

instance (cs : List Char) : Decidable (StartsOutside cs) :=
  inferInstanceAs (Decidable (∀ c ∈ cs.head?, isTokenChar c = false))

theorem endsOutside_append_iff {a b : List Char} :
    EndsOutside (a ++ b) ↔ EndsOutside b ∧ (b = [] → EndsOutside a) :=
  Text.forall_getLast?_append_iff

/-- A text that ends outside of tokens ends in no token. -/
theorem EndsOutside.eq_nil {cs part : List Char} (outside : EndsOutside (cs ++ part))
    (tokens : ∀ c ∈ part, isTokenChar c = true) : part = [] := by
  induction part using List.reverseRecOn with
  | nil => rfl
  | append_singleton part c _ =>
    have token : isTokenChar c = true := tokens c (by simp)
    have other : isTokenChar c = false := outside c (by simp)
    rw [token] at other
    cases other

namespace Occurrence

variable (o : secret.Occurrence)

/-- What stands between a word and a token is made of fillers and separators. -/
theorem notMem_between (kind : IsTokenKind secret) {c : Char} (token : isTokenChar c = true)
    (other : isSeparator c = false) : c ∉ o.kept ++ o.gap := by
  intro mem
  have join := o.joins_between mem
  have filler := isFiller_of_token token
  rcases kind with rfl | rfl <;>
    simp only [Secret.joins, filler, other, isBlank_of_isFiller filler, Bool.or_self,
      Bool.false_eq_true] at join

theorem body_eq (kind : IsTokenKind secret) :
    o.body = o.name ++ ((o.kept ++ o.gap) ++ o.value) := by
  simp only [body, closing_of_kind kind, List.append_nil, List.append_assoc]

theorem isTokenChar_value (kind : IsTokenKind secret) {c : Char} (mem : c ∈ o.value) :
    isTokenChar c = true := by
  have taken := o.plain c mem
  rcases kind with rfl | rfl <;> exact taken

theorem twenty_le_value (kind : IsTokenKind secret) : 20 ≤ o.value.length := by
  have long := o.long
  rcases kind with rfl | rfl <;> exact long

/-- A passage that begins in a text that ends outside of tokens lies in it, if a short word
follows. -/
theorem body_prefix_front (kind : IsTokenKind secret) {front later : List Char} {c d : Char}
    {w : List Char} (nonempty : front ≠ []) (outside : EndsOutside front)
    (token : isTokenChar c = true) (other : isSeparator c = false) (short : w.length < 19)
    (stop : isTokenChar d = false) (begins : o.body <+: front ++ (c :: (w ++ d :: later))) :
    o.body <+: front := by
  obtain ⟨behind, split⟩ := begins
  rcases List.append_eq_append_iff.1 split with ⟨z, inside, -⟩ | ⟨z, across, rest⟩
  · exact ⟨z, inside.symm⟩
  -- The short word has no room for a value.
  have shorter : z ≠ o.value := by
    rintro rfl
    have without : d ∉ o.value := by
      intro mem
      rw [o.isTokenChar_value kind mem] at stop
      cases stop
    have few : o.value.length ≤ w.length + 1 :=
      (Text.prefix_of_notMem (a := c :: w) without ⟨behind, rest.symm⟩).length_le
    have long := o.twenty_le_value kind
    omega
  have suffix : o.value <:+ o.body := by
    rw [o.body_eq kind, ← List.append_assoc]
    exact List.suffix_append ..
  rcases List.suffix_or_suffix_of_suffix (across ▸ List.suffix_append front z) suffix with
    ⟨v, within⟩ | ⟨z', within⟩
  · -- The value begins in the front, which ends in its tokens then.
    rw [o.body_eq kind, ← within, ← List.append_assoc, ← List.append_assoc] at across
    rw [← List.append_cancel_right across] at outside
    have empty := outside.eq_nil fun x mem =>
      o.isTokenChar_value kind (within ▸ List.mem_append_left z mem)
    rw [empty, List.nil_append] at within
    exact absurd within shorter
  · -- The value begins behind the front, and the word or what follows it goes across.
    have across' : o.name ++ (o.kept ++ o.gap) = front ++ z' := by
      apply List.append_cancel_right
      rw [List.append_assoc, ← o.body_eq kind, across, List.append_assoc, within]
    cases z' with
    | nil => exact absurd within.symm shorter
    | cons c' z' =>
      rw [← within] at rest
      obtain ⟨rfl, -⟩ := List.cons.inj rest
      rcases List.append_eq_append_iff.1 across' with ⟨y, split', later'⟩ | ⟨y, split', -⟩
      · have mem : c ∈ o.kept ++ o.gap := later' ▸ List.mem_append_right y List.mem_cons_self
        exact absurd mem (o.notMem_between kind token other)
      · have outside' : EndsOutside ([] ++ front) := outside
        have empty := outside'.eq_nil fun x mem =>
          (isTokenChar_of_isWord kind o.word (split' ▸ List.mem_append_left y mem)).1
        exact absurd empty nonempty

end Occurrence

/-- What is found in a text that ends outside of tokens does not depend on what follows a short
word. -/
theorem find?_append_of_outside (kind : IsTokenKind secret) {front later w : List Char}
    {c d : Char} (nonempty : front ≠ []) (outside : EndsOutside front)
    (token : isTokenChar c = true) (other : isSeparator c = false) (short : w.length < 19)
    (stop : isTokenChar d = false) : secret.find? (front ++ (c :: (w ++ d :: later))) =
      (secret.find? front).map fun p => { p with rest := p.rest ++ (c :: (w ++ d :: later)) } := by
  cases found : secret.find? front with
  | none =>
    rw [Option.map_none, find?_eq_none_iff]
    intro o begins
    exact find?_eq_none_iff.1 found o
      (o.body_prefix_front kind nonempty outside token other short stop begins)
  | some p =>
    obtain ⟨o, rfl, masked, rest⟩ := find?_eq_some_iff.1 found
    have behind : o.rest ≠ [] := by
      intro empty
      rw [o.text_eq, empty, List.append_nil, o.body_eq kind, ← List.append_assoc] at outside
      have long := o.twenty_le_value kind
      rw [outside.eq_nil fun _ mem => o.isTokenChar_value kind mem, List.length_nil] at long
      omega
    have ends : ∀ x ∈ (secret.closing ++ (o.rest ++ (c :: (w ++ d :: later)))).head?,
        secret.takes x = false := by
      have ends := o.ends
      rw [closing_of_kind kind, List.nil_append] at ends ⊢
      rwa [List.head?_append_of_ne_nil _ behind]
    have found' := (o.before _ ends).found
    rw [Occurrence.text_eq] at found'
    rw [Option.map_some, ← masked, ← rest, o.text_eq, List.append_assoc]
    exact found'

end Secret

namespace Mask

open Secret

variable {secret : Secret}

/-- A text that ends outside of tokens is masked on its own, if a short word follows. -/
theorem hide_append_of_outside (kind : IsTokenKind secret) {front later w : List Char}
    {c d : Char} (outside : EndsOutside front) (token : isTokenChar c = true)
    (other : isSeparator c = false) (short : w.length < 19) (stop : isTokenChar d = false) :
    hide (front ++ (c :: (w ++ d :: later))) secret =
      hide front secret ++ hide (c :: (w ++ d :: later)) secret := by
  refine hide_append fun u nonempty within => ?_
  obtain ⟨x, rfl⟩ := within
  exact find?_append_of_outside kind nonempty (endsOutside_append_iff.1 outside).1 token other short
    stop

/-- A text that ends outside of tokens does so when it is masked. -/
theorem endsOutside_hide {cs : List Char} (outside : EndsOutside cs) :
    EndsOutside (hide cs secret) :=
  forall_getLast?_hide (by decide) (by decide) outside

end Mask

/-! ## The pass for keys -/

namespace Secret

open Passage

/-- What stands behind a value of a key, if a text goes on from a key word with one. -/
def behindKey (cs : List Char) : Option (List Char) :=
  (separated cs).bind fun cs => (atLeast 20 isTokenChar cs).map Prod.snd

theorem behindKey_eq_none {post : List Char}
    (apart : ∀ c ∈ (post.dropWhile isFiller).head?, isSeparator c = false) :
    behindKey post = none := by
  have none : single isSeparator (post.dropWhile isFiller) = none := by
    cases first : post.dropWhile isFiller with
    | nil => rfl
    | cons c cs =>
      have other : isSeparator c = false := apart c (by rw [first]; rfl)
      rw [single, other]
      rfl
  rw [behindKey, separated, none]
  rfl

theorem find?_key_append {name : List Char} (word : IsWord key.words name) (post : List Char) :
    key.find? (name ++ post) =
      (behindKey post).map fun rest => ⟨name ++ (": ".toList ++ mark), rest⟩ := by
  have named : oneOf key.words (name ++ post) = some (name, post) :=
    (oneOf_eq_some_iff (prefixFree_words key)).2 ⟨rfl, word⟩
  rw [words] at named
  cases after : separated post with
  | none =>
    simp only [find?, findKey, Option.bind_eq_bind, named, behindKey, after, Option.bind_some,
      Option.bind_none, Option.map_none]
  | some later =>
    cases taken : atLeast 20 isTokenChar later with
    | none =>
      simp only [find?, findKey, Option.bind_eq_bind, named, behindKey, after, taken,
        Option.bind_some, Option.bind_none, Option.map_none]
    | some part =>
      simp only [find?, findKey, Option.bind_eq_bind, named, behindKey, after, taken,
        Option.bind_some, Option.map_some, Option.pure_def, List.append_assoc]

/-- In the characters of a token a passage is found only at a key word that ends it. -/
theorem isWord_of_find?_key {front post : List Char}
    (tokens : ∀ c ∈ front, isTokenChar c = true ∧ isSeparator c = false)
    (outside : StartsOutside post) (found : key.find? (front ++ post) ≠ none) :
    IsWord key.words front := by
  obtain ⟨p, found⟩ := Option.ne_none_iff_exists'.1 found
  obtain ⟨o, text, -, -⟩ := find?_eq_some_iff.1 found
  have kind : IsTokenKind key := .inl rfl
  rw [o.text_eq, o.body_eq kind, List.append_assoc] at text
  rcases List.append_eq_append_iff.1 text with ⟨y, split, later⟩ | ⟨y, split, later⟩
  · cases y with
    | nil =>
      rw [List.append_nil] at split
      exact split ▸ o.word
    | cons c y =>
      obtain ⟨token, other⟩ := tokens c (split ▸ List.mem_append_right _ List.mem_cons_self)
      cases between : o.kept ++ o.gap with
      | nil => exact absurd between (o.between_filled)
      | cons d ds =>
        rw [between] at later
        obtain ⟨rfl, -⟩ := List.cons.inj later
        exact absurd (between ▸ List.mem_cons_self) (o.notMem_between kind token other)
  · cases y with
    | nil =>
      rw [List.append_nil] at split
      exact split ▸ o.word
    | cons c y =>
      have inName : c ∈ o.name := split ▸ List.mem_append_right front List.mem_cons_self
      have other : isTokenChar c = false := outside c (by rw [later]; rfl)
      rw [(isTokenChar_of_isWord kind o.word inName).1] at other
      cases other

/-- A text ends in one of some words, but for letter case. -/
def EndsInWord (words : List String) (cs : List Char) : Prop :=
  ∃ w ∈ words, w.toList <:+ cs.map Text.smallLetter

instance (words : List String) (cs : List Char) : Decidable (EndsInWord words cs) :=
  inferInstanceAs (Decidable (∃ w ∈ words, w.toList <:+ cs.map Text.smallLetter))

theorem endsInWord_iff {words : List String} {cs : List Char} :
    EndsInWord words cs ↔ ∃ front name, cs = front ++ name ∧ IsWord words name := by
  constructor
  · rintro ⟨w, mem, front, split⟩
    obtain ⟨a, b, rfl, -, small⟩ := List.map_eq_append_iff.1 split.symm
    exact ⟨a, b, rfl, w, mem, small⟩
  · rintro ⟨front, name, rfl, w, mem, small⟩
    exact ⟨w, mem, front.map Text.smallLetter, by rw [List.map_append, small]⟩

/-- No word of a key ends another one. -/
theorem eq_nil_of_isWord_append {front name : List Char} (word : IsWord key.words name)
    (longer : IsWord key.words (front ++ name)) : front = [] := by
  obtain ⟨w, mem, small⟩ := word
  obtain ⟨w', mem', small'⟩ := longer
  rw [List.map_append, small] at small'
  have all : ∀ w ∈ key.words, ∀ w' ∈ key.words, w.toList <:+ w'.toList → w = w' := by
    unfold words
    decide
  obtain rfl := all w mem w' mem' ⟨_, small'⟩
  exact List.map_eq_nil_iff.1 (List.append_left_eq_self.1 small')

end Secret

namespace Mask

open Secret Passage

/-- What the pass for keys makes of the text behind a token. -/
def behindToken (token post : List Char) : List Char :=
  match behindKey post with
  | some rest => if EndsInWord key.words token then ": ".toList ++ (mark ++ hide rest key)
    else hide post key
  | none => hide post key

/-- The pass for keys leaves a token as it is. -/
theorem hide_key_token {token post : List Char}
    (tokens : ∀ c ∈ token, isTokenChar c = true ∧ isSeparator c = false)
    (outside : StartsOutside post) :
    hide (token ++ post) key = token ++ behindToken token post := by
  have word : ∀ u, u <:+ token → key.find? (u ++ post) ≠ none → IsWord key.words u :=
    fun u within => isWord_of_find?_key (fun c mem => tokens c (within.mem mem)) outside
  cases behind : behindKey post with
  | none =>
    rw [behindToken, behind]
    refine hide_append_of_none fun u _ within => ?_
    by_contra found
    rw [find?_key_append (word u within found), behind] at found
    exact found rfl
  | some rest =>
    rw [behindToken, behind]
    by_cases ends : EndsInWord key.words token
    · obtain ⟨front, name, rfl, isWord⟩ := endsInWord_iff.1 ends
      have found := find?_key_append isWord post
      rw [behind, Option.map_some] at found
      have passed : hide (front ++ (name ++ post)) key = front ++ hide (name ++ post) key := by
        refine hide_append_of_none fun u nonempty within => ?_
        by_contra longer
        rw [← List.append_assoc] at longer
        have within' : u ++ name <:+ front ++ name := by
          obtain ⟨x, rfl⟩ := within
          exact ⟨x, by rw [List.append_assoc]⟩
        exact nonempty (eq_nil_of_isWord_append isWord (word _ within' longer))
      rw [List.append_assoc, passed, hide_of_find found]
      simp only [ends, if_true, List.append_assoc]
    · simp only [ends, if_false]
      refine hide_append_of_none fun u _ within => ?_
      by_contra found
      obtain ⟨front, split⟩ := within
      exact ends (endsInWord_iff.2 ⟨front, u, split.symm, word u ⟨front, split⟩ found⟩)

theorem startsOutside_behindToken {token post : List Char} (outside : StartsOutside post) :
    StartsOutside (behindToken token post) := by
  have kept : StartsOutside (hide post key) := by
    rw [StartsOutside, head?_hide]
    exact outside
  unfold behindToken
  split
  · split
    · rintro c ⟨⟩
      decide
    · exact kept
  · exact kept

/-! ## The pass for bearer tokens -/

/-- A token behind the word for it is masked. -/
theorem hide_bearer_token {name token post : List Char} (word : IsWord bearer.words name)
    (tokens : ∀ c ∈ token, isTokenChar c = true) (long : 20 ≤ token.length)
    (outside : StartsOutside post) : hide (name ++ ' ' :: (token ++ post)) bearer =
      name ++ ' ' :: (mark ++ hide post bearer) := by
  have joins : bearer.Joins [' '] [] := .bearer (Nat.le_refl 1) (by decide)
  have masked := hide_text ⟨name, _, _, token, post, word, joins, tokens, long, outside⟩
  simpa only [Occurrence.text, Occurrence.masked, closing, joint, List.nil_append, List.append_nil,
    List.append_assoc, List.cons_append] using masked

/-! ## Both passes -/

/-- No key word begins in the word for a bearer token. -/
theorem hide_key_bearer (later : List Char) :
    hide ("Bearer ".toList ++ later) key = "Bearer ".toList ++ hide later key :=
  hide_before (wordless_space key) "Bearer".toList later (by unfold words; decide)

/-- What the passes for keys and bearer tokens make of a token: nothing of it is left, but that it
may end in a key word. -/
theorem hide_bearer_hide_key {pre token post : List Char} (before : EndsOutside pre)
    (tokens : ∀ c ∈ token, isTokenChar c = true ∧ isSeparator c = false)
    (long : 20 ≤ token.length) (behind : StartsOutside post) :
    hide (hide (pre ++ ("Bearer ".toList ++ (token ++ post))) key) bearer =
      hide (hide pre key) bearer ++
        ("Bearer ".toList ++ (mark ++ hide (behindToken token post) bearer)) := by
  have keyed : hide (pre ++ ("Bearer ".toList ++ (token ++ post))) key =
      hide pre key ++ ("Bearer ".toList ++ (token ++ behindToken token post)) := by
    rw [← hide_key_token tokens behind, ← hide_key_bearer]
    exact hide_append_of_outside (w := "earer".toList) (.inl rfl) before (by decide) (by decide)
      (by decide) (by decide)
  have word : IsWord bearer.words "Bearer".toList := ⟨"bearer", List.mem_cons_self, by decide⟩
  have masked : hide ("Bearer ".toList ++ (token ++ behindToken token post)) bearer =
      "Bearer ".toList ++ (mark ++ hide (behindToken token post) bearer) :=
    hide_bearer_token word (fun c mem => (tokens c mem).1) long (startsOutside_behindToken behind)
  rw [keyed, ← masked]
  exact hide_append_of_outside (w := "earer".toList) (.inr rfl) (endsOutside_hide before)
    (by decide) (by decide) (by decide) (by decide)

/-- A token as it is issued: twenty characters or more, letters, digits and a few signs. -/
structure IsCredential (t : String) : Prop where
  long : 20 ≤ t.length
  plain : ∀ c ∈ t.toList, c.isAlphanum = true ∨ c ∈ "+/._-".toList

theorem le_of_isAlphanum {c : Char} (alphanum : c.isAlphanum = true) : c.toNat ≤ 122 := by
  have kinds : (decide (c.val ≥ 'A'.val ∧ c.val ≤ 'Z'.val) ||
      decide (c.val ≥ 'a'.val) && decide (c.val ≤ 'z'.val) ||
      decide (c.val ≥ '0'.val) && decide (c.val ≤ '9'.val)) = true := alphanum
  simp only [Bool.or_eq_true, Bool.and_eq_true, decide_eq_true_eq] at kinds
  rcases kinds with (⟨-, high⟩ | ⟨-, high⟩) | ⟨-, high⟩ <;>
    exact (UInt32.le_iff_toNat_le.1 high).trans (by decide)

theorem isCredential_letters : IsCredential "abcdefghijklmnopqrst" := ⟨by decide, by decide⟩

theorem isCredential_signs : IsCredential "0123456789+/._-token" := ⟨by decide, by decide⟩

/-- What holds of all ASCII characters of a kind holds of a token. -/
theorem IsCredential.forall {t : String} (credential : IsCredential t) {P : Char → Prop}
    (ascii : ∀ n < 128, (Char.ofNat n).isAlphanum = true ∨ Char.ofNat n ∈ "+/._-".toList →
      P (Char.ofNat n)) : ∀ c ∈ t.toList, P c := by
  intro c mem
  have plain := credential.plain c mem
  have low : c.toNat < 128 := by
    rcases plain with alphanum | sign
    · exact Nat.lt_of_le_of_lt (le_of_isAlphanum alphanum) (by decide)
    · have all : ∀ d ∈ "+/._-".toList, d.toNat < 128 := by decide
      exact all c sign
  simpa only [Char.ofNat_toNat] using ascii c.toNat low (by rwa [Char.ofNat_toNat])

theorem IsCredential.tokens {t : String} (credential : IsCredential t) :
    ∀ c ∈ t.toList, isTokenChar c = true ∧ isSeparator c = false :=
  credential.forall (by decide)

/-- Masking goes on from the passes for keys and bearer tokens. -/
theorem apply_eq (message : String) :
    Mask.apply message = String.ofList ([authorization, password, address].foldl hide
      (hide (hide message.toList key) bearer)) := rfl

section Tokens

variable {t t₁ t₂ pre post : String}

/-- Of a bearer token only its end can matter, by what the pass for keys makes of the text behind
it. -/
theorem apply_eq_of_behindToken (credential₁ : IsCredential t₁) (credential₂ : IsCredential t₂)
    (before : EndsOutside pre.toList) (behind : StartsOutside post.toList)
    (same : behindToken t₁.toList post.toList = behindToken t₂.toList post.toList) :
    Mask.apply (pre ++ "Bearer " ++ t₁ ++ post) = Mask.apply (pre ++ "Bearer " ++ t₂ ++ post) := by
  have masked : ∀ t, IsCredential t →
      hide (hide (pre ++ "Bearer " ++ t ++ post).toList key) bearer =
        hide (hide pre.toList key) bearer ++
          ("Bearer ".toList ++ (mark ++ hide (behindToken t.toList post.toList) bearer)) := by
    intro t credential
    have passes := hide_bearer_hide_key before credential.tokens
      (by rw [String.length_toList]; exact credential.long) behind
    simpa only [String.toList_append, List.append_assoc] using passes
  rw [apply_eq, apply_eq, masked t₁ credential₁, masked t₂ credential₂, same]

theorem behindToken_eq
    (apart : ∀ c ∈ (post.toList.dropWhile isFiller).head?, isSeparator c = false) :
    behindToken t.toList post.toList = hide post.toList key := by
  rw [behindToken, behindKey_eq_none apart]

/-- Nothing of a bearer token is left in a masked message. -/
theorem apply_bearer_token (credential₁ : IsCredential t₁) (credential₂ : IsCredential t₂)
    (before : EndsOutside pre.toList) (behind : StartsOutside post.toList)
    (apart : ∀ c ∈ (post.toList.dropWhile isFiller).head?, isSeparator c = false) :
    Mask.apply (pre ++ "Bearer " ++ t₁ ++ post) = Mask.apply (pre ++ "Bearer " ++ t₂ ++ post) :=
  apply_eq_of_behindToken credential₁ credential₂ before behind
    (by rw [behindToken_eq apart, behindToken_eq apart])

theorem apply_bearer_token_in_header :
    IsCredential "abcdefghijklmnopqrst" ∧ IsCredential "0123456789+/._-token" ∧
      Mask.apply ("\"Authorization\": \"" ++ "Bearer " ++ "abcdefghijklmnopqrst" ++ "\", sent") =
        Mask.apply ("\"Authorization\": \"" ++ "Bearer " ++ "0123456789+/._-token" ++ "\", sent") :=
  ⟨isCredential_letters, isCredential_signs,
    apply_bearer_token isCredential_letters isCredential_signs (by decide) (by decide) (by decide)⟩

-- Behind a separator the end of a token counts: as a key word it takes the blank before the colon.
example : Mask.apply "Bearer abcdefghijklmnotoken : abcdefghijklmnopqrst" =
    "Bearer ***MASKED***: ***MASKED***" := by decide +kernel

example : Mask.apply "Bearer abcdefghijklmnopqrst : abcdefghijklmnopqrst" =
    "Bearer ***MASKED*** : abcdefghijklmnopqrst" := by decide +kernel

end Tokens

end Mask

end GraphClient
