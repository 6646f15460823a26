import GraphClient.Proofs.Json.Tokens
import GraphClient.Proofs.Selection.Builders

/-!
# Arguments as literals of the query language

What the values of arguments are, to who reads the text of a map of arguments.

* `Arguments.readArguments?` reads a text of names with literals in one pass over its characters,
  `readLiteral?` a single literal.
* `Reads`: what the reader comes to behind a piece of text (`Reads.followedBy`, `Reads.skip`).
* `reads_shown`: a value inside a list is read as it is shown. Integers and lists are what they were;
  a truth value and null are read as names.
* `Arguments.render_literals`: so each argument is read back as it was given exactly if no truth
  value and no null stand inside a list.
-/

namespace GraphClient.Arguments

/-! ## Literals -/

/-- A literal of the query language. Numbers with a point, strings, objects and variables are left
out. -/
inductive Literal where
  | null
  | bool (b : Bool)
  | int (n : Int)
  | name (s : String)
  | list (items : List Literal)

/-- Names stand for themselves, but for three of them. -/
def Literal.ofName (s : String) : Literal :=
  if s = "null" then .null
  else if s = "true" then .bool true
  else if s = "false" then .bool false
  else .name s

/-- What separates words and means nothing else. -/
def isIgnored (c : Char) : Bool := c = ' ' || c = '\t' || c = '\n' || c = '\r' || c = ','

/-- The characters of names and of numbers, but for a sign. -/
def isWordChar (c : Char) : Bool := c.isAlphanum || c = '_'

/-- A name does not begin with a digit. -/
def isName : List Char → Bool
  | [] => false
  | c :: cs => !Decimal.isPlainDigit c && (c :: cs).all isWordChar

/-- The number of some digits, which have no zero in front. -/
def natural? (digits : List Char) : Option Nat :=
  if digits ≠ [] ∧ digits.all Decimal.isPlainDigit ∧ (digits.head? = some '0' → digits = ['0']) then
    some (Decimal.digitsValue digits)
  else none

/-- The literal of a word: a name or an integer. -/
def literal? : List Char → Option Literal
  | '-' :: digits => (natural? digits).map fun (n : Nat) => .int (-n)
  | cs =>
    if isName cs then some (.ofName (String.ofList cs))
    else (natural? cs).map fun (n : Nat) => .int n

/-! ## Reading -/

/-- Where a reader of arguments is: before a name, behind one, or in a value inside some open lists,
each with the literals in it so far, the innermost list first. -/
inductive Place where
  | name
  | colon (key : String)
  | value (key : String) (outer : List (List Literal))

/-- Arguments read in part: those that are complete, the place, and the word that has begun. -/
structure Reading where
  complete : List (String × Literal)
  place : Place
  word : List Char

namespace Reading

/-- A literal is complete. -/
def put (complete : List (String × Literal)) (key : String) : List (List Literal) → Literal → Reading
  | [], l => ⟨complete ++ [(key, l)], .name, []⟩
  | items :: outer, l => ⟨complete, .value key ((items ++ [l]) :: outer), []⟩

/-- Ends the word that has begun. -/
def endWord (r : Reading) : Option Reading :=
  if r.word = [] then some r
  else match r.place with
    | .name =>
      if isName r.word then some { r with place := .colon (String.ofList r.word), word := [] } else none
    | .colon _ => none
    | .value key outer => (literal? r.word).map (put r.complete key outer)

/-- Reads a mark. -/
def mark (r : Reading) (c : Char) : Option Reading :=
  match c, r.place with
  | ':', .colon key => some { r with place := .value key [] }
  | '[', .value key outer => some { r with place := .value key ([] :: outer) }
  | ']', .value key (items :: outer) => some (put r.complete key outer (.list items))
  | _, _ => none

/-- Reads one more character. A sign begins a word. -/
def step (r : Reading) (c : Char) : Option Reading :=
  if isWordChar c then some { r with word := r.word ++ [c] }
  else r.endWord.bind fun r =>
    if c = '-' then some { r with word := [c] }
    else if isIgnored c then some r
    else r.mark c

/-- Reads a text to its end. -/
def readAll (r : Reading) (cs : List Char) : Option Reading := (cs.foldlM step r).bind endWord

end Reading

/-- The arguments that a text tells. -/
def readArguments? (s : String) : Option (List (String × Literal)) :=
  (Reading.readAll ⟨[], .name, []⟩ s.toList).bind fun
    | ⟨complete, .name, _⟩ => some complete
    | _ => none

/-- The literal that a text is. -/
def readLiteral? (s : String) : Option Literal :=
  (Reading.readAll ⟨[], .value "" [], []⟩ s.toList).bind fun
    | ⟨[(_, l)], .name, _⟩ => some l
    | _ => none

/-! ## Values -/

/-- Values built from null, truth values, integers and lists. -/
inductive Plain : Value → Prop
  | null : Plain .null
  | bool (b : Bool) : Plain (.bool b)
  | int (n : Int) : Plain (.int n)
  | list {items : List Value} : (∀ v ∈ items, Plain v) → Plain (.list items)

/-- Values built from integers and lists. -/
inductive Numbers : Value → Prop
  | int (n : Int) : Numbers (.int n)
  | list {items : List Value} : (∀ v ∈ items, Numbers v) → Numbers (.list items)

mutual

/-- The literal that a value stands for. -/
def meant : Value → Literal
  | .null => .null
  | .bool b => .bool b
  | .int n => .int n
  | .list items => .list (allMeant items)
  | v => .name v.display

/-- The literals that values stand for, one by one. -/
def allMeant : List Value → List Literal
  | [] => []
  | v :: vs => meant v :: allMeant vs

end

mutual

/-- What a value inside a list is read as. -/
def shownAs : Value → Literal
  | .int n => .int n
  | .list items => .list (allShownAs items)
  | v => .name v.shown

/-- What the values inside a list are read as, one by one. -/
def allShownAs : List Value → List Literal
  | [] => []
  | v :: vs => shownAs v :: allShownAs vs

end

/-- What an argument is read as. -/
def writtenAs : Value → Literal
  | .list items => .list (allShownAs items)
  | v => meant v

theorem allMeant_eq_map (vs : List Value) : allMeant vs = vs.map meant := by
  induction vs with
  | nil => rfl
  | cons v vs ih => rw [allMeant, ih, List.map_cons]

theorem allShownAs_eq_map (vs : List Value) : allShownAs vs = vs.map shownAs := by
  induction vs with
  | nil => rfl
  | cons v vs ih => rw [allShownAs, ih, List.map_cons]

/-- Inside a list, a value is read as it was given exactly if it is built from integers. -/
theorem shownAs_eq_iff {v : Value} (plain : Plain v) : shownAs v = meant v ↔ Numbers v := by
  induction plain with
  | null => exact iff_of_false nofun nofun
  | bool b => exact iff_of_false nofun nofun
  | int n => exact iff_of_true rfl (.int n)
  | @list items _ ih =>
    rw [shownAs, meant, Literal.list.injEq, allShownAs_eq_map, allMeant_eq_map, List.map_inj_left]
    constructor
    · exact fun same => .list fun v mem => (ih v mem).1 (same v mem)
    · rintro (_ | numbers)
      exact fun v mem => (ih v mem).2 (numbers v mem)

/-- An argument is read as it was given exactly if every list in it is built from integers. -/
theorem writtenAs_eq_iff {v : Value} (plain : Plain v) :
    writtenAs v = meant v ↔ ∀ items, v = .list items → Numbers v := by
  cases plain with
  | list plain =>
    rw [← shownAs_eq_iff (.list plain)]
    exact ⟨fun same _ _ => same, fun same => same _ rfl⟩
  | _ => exact iff_of_true rfl nofun

/-! ## Reading what is written -/

namespace Reading

variable {r r' : Reading} {cs rest : List Char} {c : Char}

theorem put_word (complete : List (String × Literal)) (key : String) (outer : List (List Literal))
    (l : Literal) : (put complete key outer l).word = [] := by
  cases outer <;> rfl

theorem endWord_of_word_nil (idle : r.word = []) : r.endWord = some r := if_pos idle

/-- Behind a word no other one has begun. -/
theorem word_of_endWord (ended : r.endWord = some r') : r'.word = [] := by
  unfold endWord at ended
  split at ended
  · rename_i idle
    exact Option.some.inj ended ▸ idle
  · split at ended
    · split at ended
      · exact Option.some.inj ended ▸ rfl
      · cases ended
    · cases ended
    · obtain ⟨l, -, rfl⟩ := Option.map_eq_some_iff.1 ended
      exact put_word ..

theorem readAll_nil (idle : r.word = []) : r.readAll [] = some r := endWord_of_word_nil idle

/-- A character that belongs to no word ends the one before it. -/
theorem readAll_append (read : r.readAll cs = some r') (ends : isWordChar c = false) :
    r.readAll (cs ++ c :: rest) = r'.readAll (c :: rest) := by
  obtain ⟨r₁, front, ended⟩ := Option.bind_eq_some_iff.1 read
  have same : step r₁ c = step r' c := by
    simp only [step, ends, Bool.false_eq_true, if_false, ended,
      endWord_of_word_nil (word_of_endWord ended)]
  have folded : (cs ++ c :: rest).foldlM step r = (c :: rest).foldlM step r' := by
    rw [List.foldlM_append, front]
    show (c :: rest).foldlM step r₁ = _
    rw [List.foldlM_cons, List.foldlM_cons, same]
  rw [readAll, folded, readAll]

theorem readAll_cons (next : step r c = some r') : r.readAll (c :: rest) = r'.readAll rest := by
  rw [readAll, List.foldlM_cons, next]
  rfl

theorem readAll_ignored (idle : r.word = []) (ignored : isIgnored c = true) :
    r.readAll (c :: rest) = r.readAll rest := by
  refine readAll_cons ?_
  have apart : isWordChar c = false ∧ c ≠ '-' := by
    simp only [isIgnored, Bool.or_eq_true, decide_eq_true_eq] at ignored
    rcases ignored with (((rfl | rfl) | rfl) | rfl) | rfl <;> decide
  simp only [step, apart.1, Bool.false_eq_true, if_false, endWord_of_word_nil idle, Option.bind_some,
    if_neg apart.2, ignored, if_true]

/-- The characters of a word are collected. -/
theorem foldlM_wordChars (chars : ∀ c ∈ cs, isWordChar c = true) (r : Reading) :
    cs.foldlM step r = some { r with word := r.word ++ cs } := by
  induction cs generalizing r with
  | nil => simp
  | cons c cs ih =>
    obtain ⟨here, later⟩ := List.forall_mem_cons.1 chars
    have next : step r c = some { r with word := r.word ++ [c] } := if_pos here
    rw [List.foldlM_cons, next]
    show cs.foldlM step _ = _
    rw [ih later, List.append_assoc]
    rfl

/-- The characters of a word, which may begin with a sign. -/
def IsWord (cs : List Char) : Prop :=
  ∃ body, (cs = body ∨ cs = '-' :: body) ∧ ∀ c ∈ body, isWordChar c = true

variable {complete : List (String × Literal)} {key : String} {outer : List (List Literal)}
  {l : Literal}

/-- A word is read as the literal that it is. -/
theorem readAll_word (word : IsWord cs) (means : literal? cs = some l) :
    readAll ⟨complete, .value key outer, []⟩ cs = some (put complete key outer l) := by
  have collected : cs.foldlM step ⟨complete, .value key outer, []⟩ =
      some ⟨complete, .value key outer, cs⟩ := by
    obtain ⟨body, rfl | rfl, chars⟩ := word
    · exact foldlM_wordChars chars _
    · exact foldlM_wordChars chars ⟨complete, .value key outer, ['-']⟩
  have filled : cs ≠ [] := by
    rintro rfl
    cases means
  rw [readAll, collected]
  simp only [Option.bind_some, endWord, if_neg filled, means, Option.map_some]

end Reading

/-! ### Integers -/

theorem natural?_toDigits (n : Nat) : natural? (Nat.toDigits 10 n) = some n := by
  have zero : (Nat.toDigits 10 n).head? = some '0' → Nat.toDigits 10 n = ['0'] := fun first => by
    obtain ⟨more, same⟩ := List.head?_eq_some_iff.1 first
    exact Json.toDigits_eq_zero_cons same
  rw [natural?, if_pos ⟨Nat.toDigits_ne_nil, List.all_eq_true.2 Json.isPlainDigit_toDigits, zero⟩,
    Json.digitsValue_toDigits]

theorem isWordChar_of_isPlainDigit {c : Char} (digit : Decimal.isPlainDigit c = true) :
    isWordChar c = true := by
  have isDigit : c.isDigit = true := digit
  rw [isWordChar, Char.isAlphanum, isDigit, Bool.or_true, Bool.true_or]

/-- An integer is written as a word that is it. -/
theorem literal?_int (n : Int) : Reading.IsWord (toString n).toList ∧
    literal? (toString n).toList = some (.int n) := by
  have chars : ∀ c ∈ Nat.toDigits 10 n.natAbs, isWordChar c = true := fun c mem =>
    isWordChar_of_isPlainDigit (Json.isPlainDigit_toDigits c mem)
  have value := natural?_toDigits n.natAbs
  rw [Json.toList_toString_int]
  split
  · rename_i negative
    have same : -(n.natAbs : Int) = n := by omega
    refine ⟨⟨_, .inr rfl, chars⟩, ?_⟩
    rw [List.singleton_append, literal?, value, Option.map_some, same]
  · rename_i natural
    have same : (n.natAbs : Int) = n := by omega
    refine ⟨⟨_, .inl rfl, chars⟩, ?_⟩
    obtain ⟨d, ds, split⟩ :=
      List.exists_cons_of_ne_nil (Nat.toDigits_ne_nil (b := 10) (n := n.natAbs))
    have digit : Decimal.isPlainDigit d = true :=
      Json.isPlainDigit_toDigits (n := n.natAbs) d (split ▸ List.mem_cons_self)
    have unnamed : isName (d :: ds) = false := by rw [isName, digit]; rfl
    rw [split] at value
    rw [List.nil_append, split, literal?, unnamed, value]
    · simp only [Bool.false_eq_true, if_false, Option.map_some, same]
    · rintro digits signed
      rw [(List.cons.inj signed).1] at digit
      exact absurd digit (by decide)

/-! ### Values and arguments -/

/-- A text is read as a literal, whatever stands before it and whatever lists it is in. -/
def Reads (s : String) (l : Literal) : Prop :=
  ∀ complete key outer, Reading.readAll ⟨complete, .value key outer, []⟩ s.toList =
    some (Reading.put complete key outer l)

section

variable {complete : List (String × Literal)} {key : String} {v : Value}

theorem reads_word {s : String} {l : Literal} (word : Reading.IsWord s.toList)
    (means : literal? s.toList = some l) : Reads s l :=
  fun _ _ _ => Reading.readAll_word word means

theorem reads_int (n : Int) : Reads (toString n) (.int n) :=
  reads_word (literal?_int n).1 (literal?_int n).2

theorem toList_shown_list (items : List Value) : (Value.list items).shown.toList =
    '[' :: ((Value.shownItems items).toList ++ [']']) := by
  rw [show (Value.list items).shown = "[" ++ Value.shownItems items ++ "]" from rfl,
    String.toList_append, String.toList_append]
  rfl

theorem toList_shownItems (v next : Value) (items : List Value) :
    (Value.shownItems (v :: next :: items)).toList =
      v.shown.toList ++ ',' :: ' ' :: (Value.shownItems (next :: items)).toList := by
  rw [show Value.shownItems (v :: next :: items) =
      v.shown ++ ", " ++ Value.shownItems (next :: items) from rfl,
    String.toList_append, String.toList_append, List.append_assoc]
  rfl

/-- The items of a list join those before them. -/
theorem reads_items {items : List Value} (each : ∀ v ∈ items, Reads v.shown (shownAs v))
    (before : List Literal) (outer : List (List Literal)) :
    Reading.readAll ⟨complete, .value key (before :: outer), []⟩ (Value.shownItems items).toList =
      some ⟨complete, .value key ((before ++ allShownAs items) :: outer), []⟩ := by
  induction items generalizing before with
  | nil =>
    rw [allShownAs, List.append_nil]
    exact Reading.readAll_nil rfl
  | cons v items ih =>
    obtain ⟨here, later⟩ := List.forall_mem_cons.1 each
    have first := here complete key (before :: outer)
    cases items with
    | nil => exact first
    | cons next items =>
      have rest := ih later (before ++ [shownAs v])
      rw [toList_shownItems, Reading.readAll_append first rfl, Reading.readAll_ignored rfl rfl,
        Reading.readAll_ignored rfl rfl]
      show Reading.readAll ⟨complete, .value key ((before ++ [shownAs v]) :: outer), []⟩ _ = _
      rw [rest, List.append_assoc]
      rfl

theorem reads_list {items : List Value} (each : ∀ v ∈ items, Reads v.shown (shownAs v)) :
    Reads (Value.list items).shown (.list (allShownAs items)) := by
  intro complete key outer
  have opened : Reading.step ⟨complete, .value key outer, []⟩ '[' =
      some ⟨complete, .value key ([] :: outer), []⟩ := rfl
  have closed : Reading.step ⟨complete, .value key (allShownAs items :: outer), []⟩ ']' =
      some (Reading.put complete key outer (.list (allShownAs items))) := rfl
  rw [toList_shown_list, Reading.readAll_cons opened,
    Reading.readAll_append (reads_items each [] outer) rfl, List.nil_append,
    Reading.readAll_cons closed]
  exact Reading.readAll_nil (Reading.put_word ..)

/-- A value inside a list is read as it is shown. -/
theorem reads_shown (plain : Plain v) : Reads v.shown (shownAs v) := by
  induction plain with
  | null => exact reads_word ⟨_, .inl rfl, by decide⟩ rfl
  | bool b => cases b <;> exact reads_word ⟨_, .inl rfl, by decide⟩ rfl
  | int n => exact reads_int n
  | list _ ih => exact reads_list ih

/-- An argument is read as it is written. -/
theorem reads_literal (plain : Plain v) : Reads (literal v) (writtenAs v) := by
  cases plain with
  | null => exact reads_word ⟨_, .inl rfl, by decide⟩ rfl
  | bool b => cases b <;> exact reads_word ⟨_, .inl rfl, by decide⟩ rfl
  | int n => exact reads_int n
  | list plain => exact reads_shown (.list plain)

/-- The text of an argument. -/
def argumentText (key : String) (v : Value) : String := key ++ ":" ++ literal v

theorem entryText_eq (plain : Plain v) (key : String) : entryText key v = argumentText key v := by
  cases plain <;> rfl

theorem toList_argumentText (key : String) (v : Value) :
    (argumentText key v).toList = key.toList ++ ':' :: (literal v).toList := by
  rw [argumentText, String.toList_append, String.toList_append, List.append_assoc]
  rfl

theorem readAll_key (named : isName key.toList = true) :
    Reading.readAll ⟨complete, .name, []⟩ key.toList = some ⟨complete, .colon key, []⟩ := by
  have filled : key.toList ≠ [] := fun empty => by rw [empty] at named; cases named
  have chars : ∀ c ∈ key.toList, isWordChar c = true := by
    obtain ⟨c, cs, split⟩ := List.exists_cons_of_ne_nil filled
    rw [split, isName, Bool.and_eq_true] at named
    exact split ▸ List.all_eq_true.1 named.2
  rw [Reading.readAll, Reading.foldlM_wordChars chars]
  simp only [List.nil_append, Option.bind_some, Reading.endWord, if_neg filled, named, if_true,
    String.ofList_toList]

theorem readAll_argument (plain : Plain v) (named : isName key.toList = true)
    (complete : List (String × Literal)) :
    Reading.readAll ⟨complete, .name, []⟩ (argumentText key v).toList =
      some ⟨complete ++ [(key, writtenAs v)], .name, []⟩ := by
  have colon : Reading.step ⟨complete, .colon key, []⟩ ':' = some ⟨complete, .value key [], []⟩ := rfl
  rw [toList_argumentText, Reading.readAll_append (readAll_key named) rfl, Reading.readAll_cons colon]
  exact reads_literal plain complete key []

theorem readAll_arguments {entries : List (String × Value)} (plain : ∀ entry ∈ entries, Plain entry.2)
    (named : ∀ entry ∈ entries, isName entry.1.toList = true) (complete : List (String × Literal)) :
    Reading.readAll ⟨complete, .name, []⟩
        (",".intercalate (entries.map fun entry => argumentText entry.1 entry.2)).toList =
      some ⟨complete ++ entries.map fun entry => (entry.1, writtenAs entry.2), .name, []⟩ := by
  induction entries generalizing complete with
  | nil =>
    simp only [List.map_nil, List.append_nil]
    exact Reading.readAll_nil rfl
  | cons entry entries ih =>
    obtain ⟨plainHere, plainLater⟩ := List.forall_mem_cons.1 plain
    obtain ⟨namedHere, namedLater⟩ := List.forall_mem_cons.1 named
    have first := readAll_argument plainHere namedHere complete
    cases entries with
    | nil => exact first
    | cons next entries =>
      have split : (",".intercalate ((entry :: next :: entries).map fun entry =>
          argumentText entry.1 entry.2)).toList = (argumentText entry.1 entry.2).toList ++ ',' ::
            (",".intercalate ((next :: entries).map fun entry =>
              argumentText entry.1 entry.2)).toList := by
        simp only [List.map_cons, String.intercalate_cons_cons, String.toList_append,
          List.append_assoc]
        rfl
      rw [split, Reading.readAll_append first rfl, Reading.readAll_ignored rfl rfl,
        ih plainLater namedLater, List.append_assoc]
      rfl

end

/-- **Arguments as literals.** A map of arguments that are built from null, truth values, integers
and lists is written as its names and literals with commas between them. The literal of each is
read as it is written: exactly if no null and no truth value stands inside a list, this is what it
was given as. If the names are names, the text is read as all of the arguments. -/
theorem render_literals (entries : List (String × Value)) (plain : ∀ entry ∈ entries, Plain entry.2) :
    render (.ofPairs entries) =
      .ok (",".intercalate (entries.map fun entry => argumentText entry.1 entry.2)) ∧
    (∀ entry ∈ entries, readLiteral? (literal entry.2) = some (writtenAs entry.2) ∧
      (readLiteral? (literal entry.2) = some (meant entry.2) ↔
        ∀ items, entry.2 = .list items → Numbers entry.2)) ∧
    ((∀ entry ∈ entries, isName entry.1.toList = true) →
      readArguments? (",".intercalate (entries.map fun entry => argumentText entry.1 entry.2)) =
        some (entries.map fun entry => (entry.1, writtenAs entry.2))) := by
  refine ⟨?_, fun entry mem => ?_, fun named => ?_⟩
  · have texts : (entries.map fun entry => entryText entry.1 entry.2) =
        entries.map fun entry => argumentText entry.1 entry.2 :=
      List.map_congr_left fun entry mem => entryText_eq (plain entry mem) entry.1
    rw [render_ofPairs, texts]
  · have read : readLiteral? (literal entry.2) = some (writtenAs entry.2) := by
      rw [readLiteral?, reads_literal (plain entry mem) [] "" []]
      rfl
    refine ⟨read, ?_⟩
    rw [read, Option.some.injEq]
    exact writtenAs_eq_iff (plain entry mem)
  · rw [readArguments?, readAll_arguments plain named [], List.nil_append]
    rfl

/-- Arguments with a list inside another one. -/
def searchArguments : List (String × Value) :=
  [("first", .int 10), ("only", .bool false), ("ids", .list [.int 1, .list [.int (-2)], .list []])]

theorem render_literals_search :
    ((∀ entry ∈ searchArguments, Plain entry.2) ∧
      ∀ entry ∈ searchArguments, isName entry.1.toList = true) ∧
    render (.ofPairs searchArguments) = .ok "first:10,only:false,ids:[1, [-2], []]" ∧
    readArguments? "first:10,only:false,ids:[1, [-2], []]" =
      some (searchArguments.map fun entry => (entry.1, meant entry.2)) := by
  have nested : Plain (.list [.int 1, .list [.int (-2)], .list []]) := by
    refine .list fun v mem => ?_
    simp only [List.mem_cons, List.not_mem_nil, or_false] at mem
    rcases mem with rfl | rfl | rfl
    · exact .int 1
    · exact .list fun v mem => List.mem_singleton.1 mem ▸ .int (-2)
    · exact .list nofun
  have plain : ∀ entry ∈ searchArguments, Plain entry.2 := by
    intro entry mem
    simp only [searchArguments, List.mem_cons, List.not_mem_nil, or_false] at mem
    rcases mem with rfl | rfl | rfl
    · exact .int 10
    · exact .bool false
    · exact nested
  have named : ∀ entry ∈ searchArguments, isName entry.1.toList = true := by decide
  obtain ⟨written, -, read⟩ := render_literals searchArguments plain
  exact ⟨⟨plain, named⟩, written, read named⟩

/-- A truth value inside a list is read as a name. -/
theorem render_flag_in_list :
    let entries : List (String × Value) := [("a", .list [.bool true])]
    (∀ entry ∈ entries, Plain entry.2) ∧ render (.ofPairs entries) = .ok "a:[True]" ∧
      readArguments? "a:[True]" ≠ some [("a", .list [.bool true])] := by
  refine ⟨?_, by rfl, ?_⟩
  · refine List.forall_mem_singleton.2 (.list fun v mem => ?_)
    exact List.mem_singleton.1 mem ▸ .bool true
  · rw [show readArguments? "a:[True]" = some [("a", .list [.name "True"])] from rfl]
    intro same
    cases same

end GraphClient.Arguments
