import Mathlib.Data.Nat.Digits.Defs
import GraphClient.Json.Reader
import GraphClient.Json.Writer
import GraphClient.Proofs.Numerals
import GraphClient.Proofs.Text

/-!
# Strings and whole numbers in JSON text

* `readString_escaped`: a string is read back up to its closing quote, whichever alphabet it is
  written in. A character beyond the first plane is written as two units, and read as a pair.
* `readScalar_int`: the digits of an integer are read back, up to a character that ends a value
  (`Ended`), if there are no more of them than the limit of the reader.
-/

namespace GraphClient.Json

/-! ## Escapes -/

theorem hexDigit?_digitChar {d : Nat} (small : d < 16) : hexDigit? d.digitChar = some d := by
  revert d
  decide

/-- A unit has four hexadecimal digits. -/
theorem toList_hex {n : Nat} (small : n < 65536) :
    (Text.hex 4 n).toList = [(n / 4096).digitChar, (n / 256 % 16).digitChar,
      (n / 16 % 16).digitChar, (n % 16).digitChar] := by
  have split {m : Nat} (large : 16 ≤ m) :
      Nat.toDigits 16 m = Nat.toDigits 16 (m / 16) ++ [(m % 16).digitChar] :=
    Nat.toDigits_of_base_le (by decide) large
  have zero : Nat.digitChar 0 = '0' := rfl
  rw [Text.hex, String.toList_ofList]
  rcases Nat.lt_or_ge n 16 with one | two
  · rw [Nat.toDigits_of_lt_base one, Nat.mod_eq_of_lt one, Nat.div_eq_of_lt (by omega : n < 4096),
      Nat.div_eq_of_lt (by omega : n < 256), Nat.div_eq_of_lt one]
    rfl
  rw [split two]
  rcases Nat.lt_or_ge (n / 16) 16 with two | three
  · rw [Nat.toDigits_of_lt_base two, Nat.mod_eq_of_lt two, Nat.div_eq_of_lt (by omega : n < 4096),
      Nat.div_eq_of_lt (by omega : n < 256)]
    rfl
  rw [split three, show n / 16 / 16 = n / 256 by omega]
  rcases Nat.lt_or_ge (n / 256) 16 with three | four
  · rw [Nat.toDigits_of_lt_base three, Nat.mod_eq_of_lt three,
      Nat.div_eq_of_lt (by omega : n < 4096)]
    rfl
  · rw [split four, show n / 256 / 16 = n / 4096 by omega,
      Nat.toDigits_of_lt_base (by omega : n / 4096 < 16)]
    rfl

theorem hexUnit?_hex {n : Nat} (small : n < 65536) (rest : List Char) :
    hexUnit? ((Text.hex 4 n).toList ++ rest) = some (n, rest) := by
  rw [toList_hex small]
  simp only [List.cons_append, List.nil_append, hexUnit?,
    hexDigit?_digitChar (by omega : n / 4096 < 16),
    hexDigit?_digitChar (Nat.mod_lt _ (by decide : 16 > 0))]
  rw [show ((n / 4096 * 16 + n / 256 % 16) * 16 + n / 16 % 16) * 16 + n % 16 = n by omega]

theorem toList_unitEscape (n : Nat) (rest : List Char) :
    (unitEscape n).toList ++ rest = '\\' :: 'u' :: ((Text.hex 4 n).toList ++ rest) := by
  rw [unitEscape, String.toList_append, List.append_assoc]
  rfl

/-- A unit that is no surrogate stands for a character, whatever follows. -/
theorem unitChar_alone {unit : Nat} (single : ¬ (0xd800 ≤ unit ∧ unit < 0xe000)) (rest : List Char) :
    unitChar unit rest = (Char.ofNat unit, rest) := by
  have noPair (low : Nat) : pairChar? unit low = none := if_neg (by omega)
  unfold unitChar
  simp only [if_neg single, noPair]
  split
  · split <;> rfl
  · rfl

/-- A high surrogate and the unit after it stand for one character. -/
theorem unitChar_pair {high low : Nat} {c : Char} (pair : pairChar? high low = some c)
    (small : low < 65536) (rest : List Char) :
    unitChar high ((unitEscape low).toList ++ rest) = (c, rest) := by
  rw [toList_unitEscape]
  simp only [unitChar, hexUnit?_hex small, pair]

/-! ## Strings -/

/-- The characters of a string between its quotes. -/
def escaped (alphabet : Alphabet) (cs : List Char) : List Char :=
  cs.flatMap fun c => (escapeChar alphabet c).toList

theorem toList_quote (alphabet : Alphabet) (s : String) : (quote alphabet s).toList =
    '"' :: (s.toList.flatMap (fun c => (escapeChar alphabet c).toList) ++ ['"']) := by
  simp only [quote, String.toList_append, String.toList_join, List.flatMap_map]
  rfl

theorem quote_append (alphabet : Alphabet) (s : String) (rest : List Char) :
    (quote alphabet s).toList ++ rest = '"' :: (escaped alphabet s.toList ++ '"' :: rest) := by
  rw [toList_quote, List.cons_append, List.append_assoc]
  rfl

variable {bound : Nat} {rest : List Char}

theorem readString_unit {n : Nat} (small : n < 65536) :
    readString (bound + 1) ((unitEscape n).toList ++ rest) =
      (readString bound (unitChar n rest).2).map
        fun (cs, rest') => ((unitChar n rest).1 :: cs, rest') := by
  rw [toList_unitEscape, readString]
  simp only [hexUnit?_hex small]

theorem readString_charEscape (c : Char) :
    readString (bound + 1) ((charEscape c).toList ++ rest) =
      (readString bound rest).map fun (cs, rest) => (c :: cs, rest) := by
  have valid : c.toNat < 0xd800 ∨ 0xdfff < c.toNat ∧ c.toNat < 0x110000 := c.valid
  rw [charEscape]
  split
  · rename_i small
    have single : ¬ (0xd800 ≤ c.toNat ∧ c.toNat < 0xe000) := by omega
    rw [readString_unit small, unitChar_alone single, Char.ofNat_toNat]
  · rename_i large
    have pair : pairChar? (0xd800 + (c.toNat - 0x10000) / 0x400)
        (0xdc00 + (c.toNat - 0x10000) % 0x400) = some c := by
      have number : 0x10000 + (0xd800 + (c.toNat - 0x10000) / 0x400 - 0xd800) * 0x400 +
          (0xdc00 + (c.toNat - 0x10000) % 0x400 - 0xdc00) = c.toNat := by omega
      rw [pairChar?, if_pos (by omega), number, Char.ofNat_toNat]
    rw [String.toList_append, List.append_assoc, readString_unit (by omega),
      unitChar_pair pair (by omega)]

theorem readString_letter {e c : Char} (known : letterEscape? e = some c) (other : e ≠ 'u') :
    readString (bound + 1) ('\\' :: e :: rest) =
      (readString bound rest).map fun (cs, rest) => (c :: cs, rest) := by
  rw [readString]
  · simp only [known]
  · exact other

theorem readString_plain {c : Char} (visible : ¬ c.toNat < 0x20) (quoteMark : c ≠ '"')
    (backslash : c ≠ '\\') : readString (bound + 1) (c :: rest) =
      (readString bound rest).map fun (cs, rest) => (c :: cs, rest) := by
  rw [readString]
  · rw [if_neg (not_or.mpr ⟨visible, backslash⟩)]
  · exact quoteMark
  · exact fun _ same _ => backslash same
  · exact fun _ _ same _ => backslash same

/-- One character is read back from what it is written as. -/
theorem readString_escapeChar (alphabet : Alphabet) (c : Char) :
    readString (bound + 1) ((escapeChar alphabet c).toList ++ rest) =
      (readString bound rest).map fun (cs, rest) => (c :: cs, rest) := by
  have named {n : Nat} (same : c.toNat = n) : Char.ofNat n = c := by rw [← same, Char.ofNat_toNat]
  rw [escapeChar]
  split_ifs with quoteMark backslash newline cr tab backspace feed low shown
  · exact quoteMark ▸ readString_letter rfl (by decide)
  · exact backslash ▸ readString_letter rfl (by decide)
  · exact newline ▸ readString_letter rfl (by decide)
  · exact cr ▸ readString_letter rfl (by decide)
  · exact tab ▸ readString_letter rfl (by decide)
  · exact named backspace ▸ readString_letter rfl (by decide)
  · exact named feed ▸ readString_letter rfl (by decide)
  · have unit : unitEscape c.toNat = charEscape c := by rw [charEscape, if_pos (by omega)]
    rw [unit]
    exact readString_charEscape c
  · rw [String.toList_singleton]
    exact readString_plain low quoteMark backslash
  · exact readString_charEscape c

/-- A string is read back up to its closing quote. -/
theorem readString_escaped (alphabet : Alphabet) (cs : List Char) (room : cs.length < bound) :
    readString bound (escaped alphabet cs ++ '"' :: rest) = some (cs, rest) := by
  induction cs generalizing bound with
  | nil =>
    obtain ⟨bound, rfl⟩ := Nat.exists_eq_add_of_lt room
    rfl
  | cons c cs ih =>
    obtain ⟨bound, rfl⟩ := Nat.exists_eq_add_of_lt room
    have split : escaped alphabet (c :: cs) = (escapeChar alphabet c).toList ++ escaped alphabet cs :=
      List.flatMap_cons
    rw [split, List.append_assoc, readString_escapeChar, ih (by simp only [List.length_cons]; omega)]
    rfl

/-- The reader has room for a string: each of its characters is written as one at least. -/
theorem length_le_escaped (alphabet : Alphabet) (cs : List Char) :
    cs.length ≤ (escaped alphabet cs).length := by
  induction cs with
  | nil => exact Nat.le_refl 0
  | cons c cs ih =>
    have nonempty : (escapeChar alphabet c).toList ≠ [] := by
      intro empty
      -- Otherwise a closing quote would be read as the character.
      have read : readString 2 ((escapeChar alphabet c).toList ++ ['"']) = some ([c], []) :=
        readString_escapeChar alphabet c
      rw [empty] at read
      cases read
    have first := List.length_pos_of_ne_nil nonempty
    rw [escaped, List.flatMap_cons, List.length_append, List.length_cons]
    exact Nat.add_comm .. ▸ Nat.add_le_add first ih

/-! ## Whole numbers -/

/-- A text goes on with what ends a value, if it goes on. -/
def Ended (rest : List Char) : Prop := ∀ c ∈ rest.head?, c = ',' ∨ c = ']' ∨ c = '}'

theorem isPlainDigit_toDigits {n : Nat} : ∀ c ∈ Nat.toDigits 10 n, Decimal.isPlainDigit c = true := by
  intro c mem
  have digit := Nat.isDigit_of_mem_toDigits (by decide) (by decide) mem
  rw [Char.isDigit] at digit
  exact digit

theorem digitsValue_toDigits (n : Nat) : Decimal.digitsValue (Nat.toDigits 10 n) = n := by
  rw [Decimal.digitsValue_eq, Nat.ofDigitChars_ten_toDigits]

/-- Only zero is written with a zero in front. -/
theorem toDigits_eq_zero_cons {n : Nat} {more : List Char} (zero : Nat.toDigits 10 n = '0' :: more) :
    Nat.toDigits 10 n = ['0'] := by
  induction n using Nat.strong_induction_on generalizing more with
  | _ n ih =>
    rcases Nat.lt_or_ge n 10 with small | large
    · rw [Nat.toDigits_of_lt_base small] at zero ⊢
      rw [(List.cons.inj zero).1]
    · -- The digits before the last one are those of a tenth, which is not zero.
      have split := Nat.toDigits_of_base_le (by decide : 1 < 10) large
      obtain ⟨d, ds, front⟩ := List.exists_cons_of_ne_nil (Nat.toDigits_ne_nil (b := 10) (n := n / 10))
      rw [split, front, List.cons_append] at zero
      rw [(List.cons.inj zero).1] at front
      have value := digitsValue_toDigits (n / 10)
      rw [ih (n / 10) (by omega) front, show Decimal.digitsValue ['0'] = 0 from rfl] at value
      omega

/-- The characters of an integer: a sign, and the digits of its size. -/
theorem toList_toString_int (n : Int) :
    (toString n).toList = (if n < 0 then ['-'] else []) ++ Nat.toDigits 10 n.natAbs := by
  cases n with
  | ofNat n =>
    have positive : ¬ Int.ofNat n < 0 := Int.not_lt.mpr (Int.natCast_nonneg n)
    rw [if_neg positive]
    exact Nat.toList_repr
  | negSucc n =>
    show ("-" ++ Nat.repr (n + 1)).toList = _
    rw [String.toList_append, Nat.toList_repr, if_pos (Int.negSucc_lt_zero n)]
    rfl

/-- The names begin with a letter, or with a sign and a letter: no text of digits is one. -/
theorem afterWord?_digit {d : Char} (digit : Decimal.isPlainDigit d = true) (negative : Bool)
    (more : List Char) : ∀ name ∈ names,
      afterWord? name.1 ((if negative then ['-'] else []) ++ d :: more) = none := by
  have other {c : Char} (letter : Decimal.isPlainDigit c = false) : c ≠ d := by
    rintro rfl
    rw [digit] at letter
    cases letter
  have unread {word : String} (c c' : Char) (cs : List Char) (spelt : word.toList = c :: c' :: cs)
      (first : c ≠ d) (next : c' ≠ d) :
      afterWord? word ((if negative then ['-'] else []) ++ d :: more) = none := by
    rw [afterWord?, spelt, if_neg]
    cases negative with
    | true => simpa using fun _ same => absurd same next
    | false => simpa using fun same => absurd same first
  simp only [names, List.forall_mem_cons]
  exact ⟨unread 'n' 'u' ['l', 'l'] rfl (other rfl) (other rfl),
    unread 't' 'r' ['u', 'e'] rfl (other rfl) (other rfl),
    unread 'f' 'a' ['l', 's', 'e'] rfl (other rfl) (other rfl),
    unread 'N' 'a' ['N'] rfl (other rfl) (other rfl),
    unread 'I' 'n' ['f', 'i', 'n', 'i', 't', 'y'] rfl (other rfl) (other rfl),
    unread '-' 'I' ['n', 'f', 'i', 'n', 'i', 't', 'y'] rfl (other rfl) (other rfl),
    List.forall_mem_nil _⟩

variable {limit? : Option Nat}

theorem readScalar_unnamed {cs : List Char}
    (unnamed : ∀ name ∈ names, afterWord? name.1 cs = none) :
    readScalar limit? cs = readNumber limit? cs := by
  rw [readScalar, List.findSome?_eq_none_iff.mpr]
  intro name mem
  exact Option.map_eq_none_iff.mpr (unnamed name mem)

theorem ofDigits_toDigits (negative : Bool) (n : Nat) :
    ofDigits limit? negative (Nat.toDigits 10 n) =
      if Decimal.isWithin limit? (Nat.toDigits 10 n) then
        .ok (int (if negative then -(n : Int) else n))
      else .error (.tooManyDigits (Nat.toDigits 10 n).length) := by
  simp only [ofDigits, digitsValue_toDigits]

variable (ended : Ended rest)

include ended

theorem takeWhile_toDigits (n : Nat) :
    (Nat.toDigits 10 n ++ rest).takeWhile Decimal.isPlainDigit = Nat.toDigits 10 n :=
  (Text.span_front rest isPlainDigit_toDigits fun c first => by
    rcases ended c first with rfl | rfl | rfl <;> rfl).1

/-- What ends a value goes on with neither a fraction nor an exponent. -/
theorem splitFraction_ended : splitFraction rest = ([], rest) := by
  unfold splitFraction
  split
  · rcases ended '.' rfl with h | h | h <;> cases h
  · rfl

theorem splitExponent_ended : splitExponent rest = (none, rest) := by
  unfold splitExponent
  split
  · rename_i e more
    have other : ¬ (e = 'e' ∨ e = 'E') := by
      rcases ended e rfl with rfl | rfl | rfl <;> decide
    rw [if_neg other]
  · rfl

/-- The digits of a number are read up to what ends a value, with a sign and without one. -/
theorem readNumber_toDigits (negative : Bool) (n : Nat) :
    readNumber limit? ((if negative then ['-'] else []) ++ (Nat.toDigits 10 n ++ rest)) =
      (ofDigits limit? negative (Nat.toDigits 10 n)).map (·, rest) := by
  obtain ⟨d, ds, digits⟩ := List.exists_cons_of_ne_nil (Nat.toDigits_ne_nil (b := 10) (n := n))
  have digit : Decimal.isPlainDigit d = true :=
    isPlainDigit_toDigits d (digits ▸ List.mem_cons_self)
  have unsigned : d ≠ '-' := by rintro rfl; cases digit
  have front := takeWhile_toDigits ended n
  rw [digits] at front ⊢
  rw [List.cons_append] at front ⊢
  by_cases zero : d = '0'
  · subst zero
    obtain rfl : ds = [] := (List.cons.inj (digits.symm.trans (toDigits_eq_zero_cons digits))).2
    cases negative <;>
      simp [readNumber, splitFraction_ended ended, splitExponent_ended ended]
  · cases negative <;>
      simp [readNumber, zero, unsigned, front, splitFraction_ended ended,
        splitExponent_ended ended]

/-- The digits of an integer are read up to what ends a value. -/
theorem readScalar_toString (n : Int) :
    readScalar limit? ((toString n).toList ++ rest) =
      (ofDigits limit? (decide (n < 0)) (Nat.toDigits 10 n.natAbs)).map (·, rest) := by
  obtain ⟨d, ds, digits⟩ := List.exists_cons_of_ne_nil (Nat.toDigits_ne_nil (b := 10) (n := n.natAbs))
  have digit : Decimal.isPlainDigit d = true :=
    isPlainDigit_toDigits d (digits ▸ List.mem_cons_self)
  have unnamed : ∀ name ∈ names, afterWord? name.1 ((toString n).toList ++ rest) = none := by
    intro name mem
    have unread := afterWord?_digit digit (decide (n < 0)) (ds ++ rest) name mem
    simp only [decide_eq_true_eq] at unread
    rw [toList_toString_int, digits, List.append_assoc, List.cons_append, unread]
  have read : readNumber limit? _ = _ := readNumber_toDigits ended (decide (n < 0)) n.natAbs
  simp only [decide_eq_true_eq] at read
  rw [readScalar_unnamed unnamed, toList_toString_int, List.append_assoc]
  exact read

/-- An integer that fits is read back. -/
theorem readScalar_int {n : Int} (fits : (int n).fits limit?) :
    readScalar limit? ((toString n).toList ++ rest) = .ok (int n, rest) := by
  have size : (if n < 0 then -(n.natAbs : Int) else n.natAbs) = n := by omega
  rw [Json.fits] at fits
  rw [readScalar_toString ended, ofDigits_toDigits, if_pos fits]
  simp only [decide_eq_true_eq, size]
  rfl

/-- An integer that does not fit is refused. -/
theorem readScalar_tooManyDigits {n : Int} (long : (int n).fits limit? = false) :
    readScalar limit? ((toString n).toList ++ rest) =
      .error (.tooManyDigits (Nat.toDigits 10 n.natAbs).length) := by
  rw [Json.fits, ← Bool.not_eq_true] at long
  rw [readScalar_toString ended, ofDigits_toDigits, if_neg long]
  rfl

end GraphClient.Json
