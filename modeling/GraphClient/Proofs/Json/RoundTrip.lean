import GraphClient.Proofs.Json.Tokens
import GraphClient.Proofs.Pairs

/-!
# Reading back what was written

* `Plain` documents have neither doubles nor repeated members.
* `Plain.reads`: the reader takes a plain document whose integers fit from the front of a text,
  whichever alphabet it is written in, up to what ends a value.
* `read?_write`: a written plain document is read as that document, and so it is with a limit on the
  digits of integers if its integers fit (`load_write`).
-/

namespace GraphClient.Json

variable {limit? : Option Nat} {alphabet : Alphabet} {bound : Nat} {rest : List Char} {d : Json}

/-- A document without doubles, in which no object repeats a member. -/
inductive Plain : Json → Prop where
  | null : Plain null
  | bool (b : Bool) : Plain (bool b)
  | int (n : Int) : Plain (int n)
  | text (s : String) : Plain (text s)
  | array {items : List Json} (all : ∀ item ∈ items, Plain item) : Plain (array items)
  | object {members : List (String × Json)} (distinct : (members.map Prod.fst).Nodup)
      (all : ∀ member ∈ members, Plain member.2) : Plain (object members)

/-! ## Integers that fit -/

/-- Without a limit everything fits. -/
theorem Plain.fits_none (plain : Plain d) : d.fits none := by
  induction plain with
  | null => rfl
  | bool b => rfl
  | int n => rfl
  | text s => rfl
  | array _ ih => rwa [fits_array, List.all_eq_true]
  | object _ _ ih => rwa [fits_object, List.all_eq_true]

/-! ## The written text -/

section

variable (alphabet : Alphabet)

theorem toList_null : (write alphabet null).toList = ['n', 'u', 'l', 'l'] := by
  rw [write]
  rfl

theorem toList_bool (b : Bool) : (write alphabet (bool b)).toList =
    if b then ['t', 'r', 'u', 'e'] else ['f', 'a', 'l', 's', 'e'] := by
  rw [write]
  cases b <;> rfl

theorem toList_array (items : List Json) (rest : List Char) :
    (write alphabet (array items)).toList ++ rest =
      '[' :: ((writeItems alphabet items).toList ++ ']' :: rest) := by
  rw [write, String.toList_append, String.toList_append, List.append_assoc, List.append_assoc]
  rfl

theorem length_array (items : List Json) :
    (write alphabet (array items)).length = (writeItems alphabet items).length + 2 := by
  rw [write, String.length_append, String.length_append, Nat.add_comm "[".length, Nat.add_assoc]
  rfl

theorem toList_object (members : List (String × Json)) (rest : List Char) :
    (write alphabet (object members)).toList ++ rest =
      '{' :: ((writeMembers alphabet members).toList ++ '}' :: rest) := by
  rw [write, String.toList_append, String.toList_append, List.append_assoc, List.append_assoc]
  rfl

theorem length_object (members : List (String × Json)) :
    (write alphabet (object members)).length = (writeMembers alphabet members).length + 2 := by
  rw [write, String.length_append, String.length_append, Nat.add_comm "\x7b".length, Nat.add_assoc]
  rfl

theorem writeItems_one (item : Json) : writeItems alphabet [item] = write alphabet item := by
  rw [writeItems]

theorem writeItems_cons (item next : Json) (items : List Json) :
    writeItems alphabet (item :: next :: items) =
      write alphabet item ++ ", " ++ writeItems alphabet (next :: items) := by
  rw [writeItems]
  exact List.cons_ne_nil _ _

theorem toList_items (item next : Json) (items : List Json) (rest : List Char) :
    (writeItems alphabet (item :: next :: items)).toList ++ rest = (write alphabet item).toList ++
      ',' :: ' ' :: ((writeItems alphabet (next :: items)).toList ++ rest) := by
  rw [writeItems_cons, String.toList_append, String.toList_append, List.append_assoc,
    List.append_assoc]
  rfl

theorem length_items (item next : Json) (items : List Json) :
    (writeItems alphabet (item :: next :: items)).length =
      (write alphabet item).length + 2 + (writeItems alphabet (next :: items)).length := by
  rw [writeItems_cons, String.length_append, String.length_append]
  rfl

theorem toList_items_front (item : Json) (items : List Json) (rest : List Char) :
    ∃ more, (writeItems alphabet (item :: items)).toList ++ rest =
      (write alphabet item).toList ++ more := by
  cases items with
  | nil => exact ⟨rest, by rw [writeItems_one]⟩
  | cons next items => exact ⟨_, toList_items alphabet item next items rest⟩

/-- A member of an object. -/
def writeMember (member : String × Json) : String :=
  quote alphabet member.1 ++ ": " ++ write alphabet member.2

theorem writeMembers_one (member : String × Json) :
    writeMembers alphabet [member] = writeMember alphabet member := by
  rw [writeMembers, writeMember]

theorem writeMembers_cons_cons (member next : String × Json) (members : List (String × Json)) :
    writeMembers alphabet (member :: next :: members) =
      writeMember alphabet member ++ ", " ++ writeMembers alphabet (next :: members) := by
  rw [writeMembers, writeMember]
  exact List.cons_ne_nil _ _

theorem toList_member (member : String × Json) (rest : List Char) :
    (writeMember alphabet member).toList ++ rest = (quote alphabet member.1).toList ++
      ':' :: ' ' :: ((write alphabet member.2).toList ++ rest) := by
  rw [writeMember, String.toList_append, String.toList_append, List.append_assoc,
    List.append_assoc]
  rfl

theorem length_member (member : String × Json) :
    (write alphabet member.2).length ≤ (writeMember alphabet member).length := by
  rw [writeMember, String.length_append]
  exact Nat.le_add_left _ _

theorem toList_members (member next : String × Json) (members : List (String × Json))
    (rest : List Char) : (writeMembers alphabet (member :: next :: members)).toList ++ rest =
      (writeMember alphabet member).toList ++
        ',' :: ' ' :: ((writeMembers alphabet (next :: members)).toList ++ rest) := by
  rw [writeMembers_cons_cons, String.toList_append, String.toList_append, List.append_assoc,
    List.append_assoc]
  rfl

theorem length_members (member next : String × Json) (members : List (String × Json)) :
    (writeMembers alphabet (member :: next :: members)).length =
      (writeMember alphabet member).length + 2 + (writeMembers alphabet (next :: members)).length := by
  rw [writeMembers_cons_cons, String.length_append, String.length_append]
  rfl

theorem toList_members_front (member : String × Json) (members : List (String × Json))
    (rest : List Char) :
    ∃ more, (writeMembers alphabet (member :: members)).toList ++ rest = '"' :: more := by
  cases members with
  | nil => exact ⟨_, by rw [writeMembers_one, toList_member, quote_append]⟩
  | cons next members => exact ⟨_, by rw [toList_members, toList_member, quote_append]⟩

end

theorem toString_int_head (n : Int) :
    ∃ c cs, (toString n).toList = c :: cs ∧ (c = '-' ∨ Decimal.isPlainDigit c = true) := by
  rw [toList_toString_int]
  by_cases negative : n < 0
  · exact ⟨_, _, by rw [if_pos negative]; rfl, .inl rfl⟩
  · obtain ⟨c, cs, digits⟩ :=
      List.exists_cons_of_ne_nil (Nat.toDigits_ne_nil (b := 10) (n := n.natAbs))
    exact ⟨c, cs, by rw [if_neg negative, digits]; rfl,
      .inr (isPlainDigit_toDigits c (digits ▸ List.mem_cons_self))⟩

/-- A written document begins with a character that is no space and does not close an array. -/
theorem Plain.head (plain : Plain d) (alphabet : Alphabet) (rest : List Char) :
    ∃ c cs, (write alphabet d).toList ++ rest = c :: cs ∧ isSpace c = false ∧ c ≠ ']' := by
  cases plain with
  | null => exact ⟨_, _, by rw [toList_null]; rfl, by decide⟩
  | bool b =>
    cases b with
    | false => exact ⟨_, _, by rw [toList_bool]; rfl, by decide⟩
    | true => exact ⟨_, _, by rw [toList_bool]; rfl, by decide⟩
  | int n =>
    obtain ⟨c, cs, written, sign | digit⟩ := toString_int_head n
    · exact ⟨_, _, by rw [write, written]; rfl, by rw [sign]; decide⟩
    · refine ⟨_, _, by rw [write, written]; rfl, ?_, by rintro rfl; cases digit⟩
      rw [Bool.eq_false_iff]
      intro space
      simp only [isSpace, Bool.or_eq_true, decide_eq_true_eq] at space
      rcases space with ((rfl | rfl) | rfl) | rfl <;> cases digit
  | text s => exact ⟨_, _, by rw [write, quote_append], by decide⟩
  | array => exact ⟨_, _, toList_array alphabet _ _, by decide⟩
  | object => exact ⟨_, _, toList_object alphabet _ _, by decide⟩

theorem Plain.length_pos (plain : Plain d) (alphabet : Alphabet) : 0 < (write alphabet d).length := by
  obtain ⟨c, cs, written, -, -⟩ := plain.head alphabet []
  rw [List.append_nil] at written
  rw [← String.length_toList, written]
  exact Nat.succ_pos _

/-! ## Reading -/

theorem skipSpace_cons {c : Char} (visible : isSpace c = false) (cs : List Char) :
    skipSpace (c :: cs) = c :: cs := by
  rw [skipSpace, List.dropWhile_cons_of_neg (by rw [visible]; decide)]

theorem Plain.skipSpace (plain : Plain d) (alphabet : Alphabet) (rest : List Char) :
    skipSpace ((write alphabet d).toList ++ rest) = (write alphabet d).toList ++ rest := by
  obtain ⟨c, cs, written, visible, -⟩ := plain.head alphabet rest
  rw [written, skipSpace_cons visible]

/-- What begins like no string, array or object is a scalar. -/
theorem readValue_scalar {c : Char} (string : c ≠ '"') (array : c ≠ '[') (object : c ≠ '{')
    (cs : List Char) : readValue limit? (bound + 1) (c :: cs) = readScalar limit? (c :: cs) := by
  rw [readValue]
  · exact fun _ same => string (List.cons.inj same).1
  · exact fun _ same => array (List.cons.inj same).1
  · exact fun _ same => object (List.cons.inj same).1

theorem readText_quote (s : String) (cs : List Char)
    (quoted : (quote alphabet s).toList ++ rest = '"' :: cs) :
    readText cs = .ok (s, rest) := by
  have length := length_le_escaped alphabet s.toList
  rw [quote_append] at quoted
  obtain rfl := (List.cons.inj quoted).2
  have room : s.toList.length < (escaped alphabet s.toList ++ '"' :: rest).length.succ := by
    rw [List.length_append]
    omega
  rw [readText, readString_escaped alphabet s.toList room]
  exact congrArg (fun s => Except.ok (s, rest)) String.ofList_toList

theorem ended_cons {c : Char} (ends : c = ',' ∨ c = ']' ∨ c = '}') (cs : List Char) :
    Ended (c :: cs) := by
  intro c' mem
  obtain rfl := Option.some.inj mem
  exact ends

/-- A document is read back wherever it stands, given room for its parts. -/
def Reads (limit? : Option Nat) (alphabet : Alphabet) (d : Json) : Prop :=
  ∀ (bound : Nat) (rest : List Char), 2 * (write alphabet d).length ≤ bound → Ended rest →
    readValue limit? bound ((write alphabet d).toList ++ rest) = .ok (d, rest)

/-- Items are read up to the closing bracket, with or without a space in front of them. -/
theorem readItems_written {item : Json} {items : List Json} {cs : List Char}
    (plain : ∀ item' ∈ item :: items, Plain item')
    (all : ∀ item' ∈ item :: items, Reads limit? alphabet item')
    (room : 2 * (writeItems alphabet (item :: items)).length < bound)
    (written : skipSpace cs =
      skipSpace ((writeItems alphabet (item :: items)).toList ++ ']' :: rest)) :
    readItems limit? bound cs = .ok (item :: items, rest) := by
  have here : item ∈ item :: items := List.mem_cons_self
  obtain ⟨bound, rfl⟩ := Nat.exists_eq_succ_of_ne_zero (Nat.ne_zero_of_lt room)
  induction items generalizing item bound cs with
  | nil =>
    rw [writeItems_one] at written room
    rw [(plain item here).skipSpace] at written
    have read := all item here bound (']' :: rest) (by omega) (ended_cons (.inr (.inl rfl)) rest)
    rw [readItems, written, read]
    simp only [skipSpace_cons (show isSpace ']' = false from rfl)]
  | cons next items ih =>
    rw [toList_items, (plain item here).skipSpace] at written
    rw [length_items] at room
    obtain ⟨bound, rfl⟩ := Nat.exists_eq_succ_of_ne_zero (show bound ≠ 0 by omega)
    have read := all item here (bound + 1) _ (by omega)
      (ended_cons (.inl rfl) (' ' :: ((writeItems alphabet (next :: items)).toList ++ ']' :: rest)))
    have others : readItems limit? (bound + 1)
        (' ' :: ((writeItems alphabet (next :: items)).toList ++ ']' :: rest)) =
          .ok (next :: items, rest) :=
      ih (fun item' mem => plain item' (List.mem_cons_of_mem _ mem))
        (fun item' mem => all item' (List.mem_cons_of_mem _ mem)) rfl List.mem_cons_self bound
        (by omega)
    rw [readItems, written, read]
    simp only [skipSpace_cons (show isSpace ',' = false from rfl), others]
    rfl

/-- A member is read up to what follows its value. -/
theorem readMembers_member {member : String × Json} {cs after : List Char}
    (plain : Plain member.2)
    (read : readValue limit? bound ((write alphabet member.2).toList ++ after) =
      .ok (member.2, after))
    (written : skipSpace cs = skipSpace ((writeMember alphabet member).toList ++ after)) :
    readMembers limit? (bound + 1) cs = match skipSpace after with
      | ',' :: rest =>
        (readMembers limit? bound rest).map fun (members, rest) => (member :: members, rest)
      | '}' :: rest => .ok ([member], rest)
      | _ => .error .malformed := by
  have quoted := quote_append alphabet member.1
    (':' :: ' ' :: ((write alphabet member.2).toList ++ after))
  have colon (cs : List Char) : skipSpace (':' :: cs) = ':' :: cs := skipSpace_cons rfl cs
  have space : skipSpace (' ' :: ((write alphabet member.2).toList ++ after)) =
      (write alphabet member.2).toList ++ after := plain.skipSpace alphabet after
  rw [toList_member, quoted, skipSpace_cons rfl] at written
  simp only [readMembers, written, readText_quote member.1 _ quoted, colon, space]
  rewrite [read]
  rfl

/-- Members are read up to the closing brace. -/
theorem readMembers_written {member : String × Json} {members : List (String × Json)}
    {cs : List Char} (plain : ∀ m ∈ member :: members, Plain m.2)
    (all : ∀ m ∈ member :: members, Reads limit? alphabet m.2)
    (room : 2 * (writeMembers alphabet (member :: members)).length < bound)
    (written : skipSpace cs =
      skipSpace ((writeMembers alphabet (member :: members)).toList ++ '}' :: rest)) :
    readMembers limit? bound cs = .ok (member :: members, rest) := by
  have here : member ∈ member :: members := List.mem_cons_self
  have shorter := length_member alphabet member
  obtain ⟨bound, rfl⟩ := Nat.exists_eq_succ_of_ne_zero (Nat.ne_zero_of_lt room)
  induction members generalizing member bound cs with
  | nil =>
    rw [writeMembers_one] at written room
    have read := all member here bound _ (by omega) (ended_cons (.inr (.inr rfl)) rest)
    rw [readMembers_member (plain member here) read written, skipSpace_cons rfl]
    rfl
  | cons next members ih =>
    rw [toList_members] at written
    rw [length_members] at room
    obtain ⟨bound, rfl⟩ := Nat.exists_eq_succ_of_ne_zero (show bound ≠ 0 by omega)
    have read := all member here (bound + 1) _ (by omega) (ended_cons (.inl rfl)
      (' ' :: ((writeMembers alphabet (next :: members)).toList ++ '}' :: rest)))
    have others : readMembers limit? (bound + 1)
        (' ' :: ((writeMembers alphabet (next :: members)).toList ++ '}' :: rest)) =
          .ok (next :: members, rest) :=
      ih (fun m mem => plain m (List.mem_cons_of_mem _ mem))
        (fun m mem => all m (List.mem_cons_of_mem _ mem)) rfl List.mem_cons_self
        (length_member alphabet next) bound (by omega)
    rw [readMembers_member (plain member here) read written, skipSpace_cons rfl]
    show (readMembers limit? (bound + 1) _).map _ = _
    rw [others]
    rfl

/-- What is written of an integer is read as a number. -/
theorem readValue_toString (n : Int) : readValue limit? (bound + 1) ((toString n).toList ++ rest) =
    readScalar limit? ((toString n).toList ++ rest) := by
  obtain ⟨c, cs, written, first⟩ := toString_int_head n
  have other {c' : Char} (sign : c' ≠ '-') (letter : Decimal.isPlainDigit c' = false) : c ≠ c' := by
    rintro rfl
    rw [letter] at first
    exact first.elim sign Bool.noConfusion
  rw [written, List.cons_append]
  exact readValue_scalar (other (by decide) rfl) (other (by decide) rfl) (other (by decide) rfl) _

theorem readValue_int {n : Int} (fits : (int n).fits limit?) (ended : Ended rest) :
    readValue limit? (bound + 1) ((toString n).toList ++ rest) = .ok (int n, rest) := by
  rw [readValue_toString, readScalar_int ended fits]

theorem readValue_tooManyDigits {n : Int} (long : (int n).fits limit? = false)
    (ended : Ended rest) : readValue limit? (bound + 1) ((toString n).toList ++ rest) =
      .error (.tooManyDigits (Nat.toDigits 10 n.natAbs).length) := by
  rw [readValue_toString, readScalar_tooManyDigits ended long]

theorem readValue_text (s : String) :
    readValue limit? (bound + 1) ((quote alphabet s).toList ++ rest) = .ok (text s, rest) := by
  have quoted := quote_append alphabet s rest
  rw [quoted, readValue, readText_quote s _ quoted]
  rfl

theorem readValue_array {items : List Json} (plain : ∀ item ∈ items, Plain item)
    (all : ∀ item ∈ items, Reads limit? alphabet item)
    (room : 2 * (write alphabet (array items)).length ≤ bound + 1) :
    readValue limit? (bound + 1) ((write alphabet (array items)).toList ++ rest) =
      .ok (array items, rest) := by
  rw [toList_array]
  cases items with
  | nil => rw [writeItems]; rfl
  | cons item items =>
    rw [length_array] at room
    have read : readItems limit? bound
        ((writeItems alphabet (item :: items)).toList ++ ']' :: rest) = .ok (item :: items, rest) :=
      readItems_written plain all (by omega) rfl
    obtain ⟨more, front⟩ := toList_items_front alphabet item items (']' :: rest)
    obtain ⟨c, cs, written, visible, other⟩ := (plain item List.mem_cons_self).head alphabet more
    rw [front, written] at read ⊢
    rw [readValue, skipSpace_cons visible]
    split
    · rename_i same
      exact absurd (List.cons.inj same).1 other
    · rw [read]
      rfl

theorem readValue_object {members : List (String × Json)}
    (distinct : (members.map Prod.fst).Nodup) (plain : ∀ m ∈ members, Plain m.2)
    (all : ∀ m ∈ members, Reads limit? alphabet m.2)
    (room : 2 * (write alphabet (object members)).length ≤ bound + 1) :
    readValue limit? (bound + 1) ((write alphabet (object members)).toList ++ rest) =
      .ok (object members, rest) := by
  rw [toList_object]
  cases members with
  | nil => rw [writeMembers]; rfl
  | cons member members =>
    rw [length_object] at room
    have read : readMembers limit? bound
        ((writeMembers alphabet (member :: members)).toList ++ '}' :: rest) =
          .ok (member :: members, rest) := readMembers_written plain all (by omega) rfl
    obtain ⟨more, front⟩ := toList_members_front alphabet member members ('}' :: rest)
    rw [front] at read ⊢
    rw [readValue, skipSpace_cons rfl]
    show (readMembers limit? bound _).map _ = _
    rw [read]
    exact congrArg (fun members => Except.ok (object members, rest)) (Pairs.ofList_eq_self distinct)

/-- The text of a document is not empty, so the reader has room for a part at least. -/
theorem Plain.reads_of (plain : Plain d)
    (read : ∀ bound rest, 2 * (write alphabet d).length ≤ bound + 1 → Ended rest →
      readValue limit? (bound + 1) ((write alphabet d).toList ++ rest) = .ok (d, rest)) :
    Reads limit? alphabet d := by
  intro bound rest room ended
  have nonempty := plain.length_pos alphabet
  obtain ⟨bound, rfl⟩ := Nat.exists_eq_succ_of_ne_zero (show bound ≠ 0 by omega)
  exact read bound rest room ended

/-- A plain document whose integers fit is read back wherever it stands. -/
theorem Plain.reads (plain : Plain d) (fits : d.fits limit?) (alphabet : Alphabet) :
    Reads limit? alphabet d := by
  induction plain with
  | null => exact Plain.null.reads_of fun bound rest _ _ => by rw [toList_null]; rfl
  | bool b =>
    exact (Plain.bool b).reads_of fun bound rest _ _ => by rw [toList_bool]; cases b <;> rfl
  | int n =>
    exact (Plain.int n).reads_of fun bound rest _ ended => by rw [write, readValue_int fits ended]
  | text s => exact (Plain.text s).reads_of fun bound rest _ _ => by rw [write, readValue_text]
  | array all ih =>
    rw [fits_array, List.all_eq_true] at fits
    exact (Plain.array all).reads_of fun bound rest room _ =>
      readValue_array all (fun item mem => ih item mem (fits item mem)) room
  | object distinct all ih =>
    rw [fits_object, List.all_eq_true] at fits
    exact (Plain.object distinct all).reads_of fun bound rest room _ =>
      readValue_object distinct all (fun m mem => ih m mem (fits m mem)) room

theorem ended_nil : Ended [] := fun _ none => nomatch none

theorem parse_write (plain : Plain d) (fits : d.fits limit?) (alphabet : Alphabet) :
    parse limit? (write alphabet d) = .ok d := by
  have space := plain.skipSpace alphabet []
  have read := plain.reads fits alphabet _ [] (Nat.le_add_right _ 2) ended_nil
  rw [List.append_nil] at space read
  rw [parse, space, read]
  rfl

/-- A written plain document is read as that document. -/
theorem read?_write (plain : Plain d) (alphabet : Alphabet) : read? (write alphabet d) = some d := by
  rw [read?, parse_write plain plain.fits_none]
  rfl

/-- A plain document whose integers can be converted is read as that document. -/
theorem load_write (plain : Plain d) (fits : d.fits (some Decimal.digitLimit))
    (alphabet : Alphabet) : load (write alphabet d) = .ok d := parse_write plain fits alphabet

/-- The least integer that cannot be converted. -/
theorem not_fits_tenPow : (int (10 ^ 4300)).fits (some Decimal.digitLimit) = false := by
  decide +kernel

/-- An integer that cannot be converted is refused. -/
theorem load_tooManyDigits {n : Int} (long : (int n).fits (some Decimal.digitLimit) = false) :
    load (toString n) = .error (.tooManyDigits (Nat.toDigits 10 n.natAbs).length) := by
  have space := (Plain.int n).skipSpace .unicode []
  have read : readValue _ (2 * (toString n).length + 2) ((toString n).toList ++ []) = _ :=
    readValue_tooManyDigits long ended_nil
  rw [write, List.append_nil] at space
  rw [List.append_nil] at read
  rw [load, parse, space, read]

end GraphClient.Json
