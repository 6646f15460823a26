import Mathlib.Algebra.Order.Field.Basic
import Mathlib.Algebra.Order.Ring.Rat
import Mathlib.Data.Nat.Log
import Mathlib.Tactic.Linarith
import GraphClient.Decimal.Numeral
import GraphClient.Proofs.Text

/-!
# Numbers in texts

* `Binary64.ofDecimal_whole`: whole numbers are read as they are rounded, however long they are;
  `Binary64.isNegative_ofDecimal`: what is read has the sign that is written.
* `Decimal.ascii_of_decimalNumber?`, `Decimal.ascii_of_specialNumber?`: numbers are written in ASCII.
* `Decimal.decimalNumber?_of_wholeNumber?`: a whole number is a decimal number, too.
* `Decimal.decimalNumber?_of_letters`: a word of letters is none.
* `Decimal.IsNumber`: how numbers are written; `Decimal.isSome_readFloat?_iff`: texts of numbers are
  read, and no others.
-/

namespace GraphClient

/-! ## Doubles of decimal numbers -/

namespace Binary64

theorem le_exponentOf (n : Nat) : (Nat.log2 n : Int) - 53 ≤ exponentOf n 1 := by
  have one : Nat.log2 1 = 0 := by decide
  unfold exponentOf
  simp only [one]
  refine le_trans ?_ (le_max_left _ _)
  split <;> omega

/-- A number with more than 400 digits is beyond the largest double. -/
theorem ofRatio_long {n : Nat} (long : 400 < (Nat.toDigits 10 n).length) (negative : Bool) :
    ofRatio negative n 1 = infinite negative := by
  obtain ⟨k, digits⟩ : ∃ k, (Nat.toDigits 10 n).length = k + 1 :=
    ⟨(Nat.toDigits 10 n).length - 1, by omega⟩
  have huge : 10 ^ k ≤ n := by
    rw [← Nat.not_lt, ← Nat.length_toDigits_le_iff (by decide) (by omega), digits]
    omega
  have log : 3 * k ≤ Nat.log2 n := by
    rw [Nat.log2_eq_log_two]
    refine Nat.le_log_of_pow_le (by decide) ?_
    calc 2 ^ (3 * k) = 8 ^ k := Nat.pow_mul 2 3 k
      _ ≤ 10 ^ k := Nat.pow_le_pow_left (by decide) k
      _ ≤ n := huge
  have low := le_exponentOf n
  have positive : n ≠ 0 := (Nat.lt_of_lt_of_le (Nat.pow_pos (by decide)) huge).ne'
  have beyond (m : Nat) : maxExponent < (if m = 2 * fullMantissa then
      (fullMantissa, exponentOf n 1 + 1) else (m, exponentOf n 1)).2 := by
    have most : maxExponent = 971 := rfl
    split <;> omega
  simp only [ofRatio, if_neg positive, if_pos (beyond _)]

theorem length_toString (n : Nat) : (toString n).length = (Nat.toDigits 10 n).length := by
  rw [← String.length_toList]
  exact congrArg List.length (String.toList_ofList ..)

/-- Whole numbers are read as they are rounded. -/
theorem ofDecimal_whole (n : Nat) : ofDecimal false n 0 = ofInt n := by
  have sign : decide ((n : Int) < 0) = false := by simp
  rw [ofInt, sign, Int.natAbs_natCast]
  unfold ofDecimal
  simp only [Int.add_zero]
  split
  · rename_i small
    have zero : n = 0 := by omega
    rw [zero]
    rfl
  · split
    · rename_i long
      refine (ofRatio_long ?_ false).symm
      rw [← length_toString]
      omega
    · simp

@[simp] theorem isNegative_ofRatio (negative : Bool) (n d : Nat) :
    (ofRatio negative n d).isNegative = negative := by
  unfold ofRatio
  split
  · rfl
  · simp only
    split_ifs <;> rfl

@[simp] theorem isNegative_ofDecimal (negative : Bool) (n : Nat) (e : Int) :
    (ofDecimal negative n e).isNegative = negative := by
  unfold ofDecimal
  simp only
  split
  · rfl
  · split
    · rfl
    · split <;> exact isNegative_ofRatio ..

theorem ltInt_one_of_isNegative {x : Binary64} (negative : x.isNegative = true) :
    x.ltInt 1 = true := by
  cases x with
  | nan => cases negative
  | infinite n => exact negative
  | finite n m e =>
    obtain rfl : n = true := negative
    have magnitude : (0 : Rat) ≤ (m : Rat) * 2 ^ e :=
      mul_nonneg (Nat.cast_nonneg m) (zpow_nonneg zero_le_two e)
    simp only [ltInt, toRat?, if_true, decide_eq_true_eq]
    push_cast
    linarith

end Binary64

/-! ## Characters -/

namespace Text

/-- What is to hold of a character of ASCII is tried on the code points. -/
theorem exists_ofNat {c : Char} (ascii : c.toNat < 0x80) : ∃ n < 0x80, c = Char.ofNat n :=
  ⟨c.toNat, ascii, (Char.ofNat_toNat c).symm⟩

theorem plainDigit_ascii {c : Char} (ascii : c.toNat < 0x80) : plainDigit c = c := by
  have all : ∀ n < 0x80, plainDigit (Char.ofNat n) = Char.ofNat n := by decide
  obtain ⟨n, small, rfl⟩ := exists_ofNat ascii
  exact all n small

theorem plainDigit_blank {c : Char} (blank : isBlank c = true) : plainDigit c = c := by
  have all : ∀ range ∈ blankRanges, ∀ n ∈ List.range' range.1 (range.2 + 1 - range.1),
      plainDigit (Char.ofNat n) = Char.ofNat n := by decide
  obtain ⟨range, mem, inside⟩ := List.any_eq_true.mp blank
  rw [Bool.and_eq_true, decide_eq_true_eq, decide_eq_true_eq] at inside
  rw [← Char.ofNat_toNat c]
  refine all range mem _ (List.mem_range'_1.mpr ?_)
  omega

theorem mem_trimBy {p : Char → Bool} {cs : List Char} {c : Char} (mem : c ∈ cs) :
    p c = true ∨ c ∈ trimBy p cs := by
  have dropped {cs : List Char} (mem : c ∈ cs) : p c = true ∨ c ∈ cs.dropWhile p := by
    rw [← List.takeWhile_append_dropWhile (p := p) (l := cs)] at mem
    exact (List.mem_append.mp mem).imp_left List.mem_takeWhile_imp
  rcases dropped mem with blank | mem
  · exact .inl blank
  · rw [trimBy, List.mem_reverse]
    exact dropped (List.mem_reverse.mpr mem)

theorem mem_of_mem_trimBy {p : Char → Bool} {cs : List Char} {c : Char} (mem : c ∈ trimBy p cs) :
    c ∈ cs := by
  rw [trimBy, List.mem_reverse] at mem
  have front := (List.dropWhile_suffix p).subset mem
  exact (List.dropWhile_suffix p).subset (List.mem_reverse.mp front)

theorem trimBy_eq_self {p : Char → Bool} {cs : List Char} (none : ∀ c ∈ cs, p c = false) :
    trimBy p cs = cs := by
  have kept {cs : List Char} (none : ∀ c ∈ cs, p c = false) : cs.dropWhile p = cs := by
    cases cs with
    | nil => rfl
    | cons c cs => exact List.dropWhile_cons_of_neg (by rw [none c List.mem_cons_self]; exact nofun)
  rw [trimBy, kept none, kept fun c mem => none c (List.mem_reverse.mp mem), List.reverse_reverse]

end Text

/-! ## Readers -/

namespace Decimal

/-- Characters of ASCII. -/
def Ascii (cs : List Char) : Prop := ∀ c ∈ cs, c.toNat < 0x80

theorem ascii_append {cs cs' : List Char} : Ascii (cs ++ cs') ↔ Ascii cs ∧ Ascii cs' :=
  List.forall_mem_append

theorem ascii_digits {digits : List Char} (all : digits.all isPlainDigit = true) :
    Ascii digits := by
  intro c mem
  have digit := List.all_eq_true.mp all c mem
  rw [isPlainDigit, Bool.and_eq_true, decide_eq_true_eq, decide_eq_true_eq] at digit
  exact Nat.lt_of_le_of_lt digit.2 (by decide : '9'.toNat < 0x80)

theorem ascii_of_splitSign {cs : List Char} (rest : Ascii (splitSign cs).2) : Ascii cs := by
  unfold splitSign at rest
  split at rest
  · exact List.forall_mem_cons.mpr ⟨by decide, rest⟩
  · exact List.forall_mem_cons.mpr ⟨by decide, rest⟩
  · exact rest

theorem ascii_of_wholeNumber? {cs : List Char} {n : Int} (read : wholeNumber? cs = some n) :
    Ascii cs := by
  refine ascii_of_splitSign (ascii_digits ?_)
  by_contra other
  rw [wholeNumber?] at read
  simp only [other, Bool.not_false, Bool.or_true, if_true, reduceCtorEq] at read

theorem ascii_of_exponentPart? {cs : List Char} {e : Int} (read : exponentPart? cs = some e) :
    Ascii cs := by
  cases cs with
  | nil => exact List.forall_mem_nil _
  | cons c rest =>
    rw [exponentPart?] at read
    split at read
    · rename_i mark
      refine List.forall_mem_cons.mpr ⟨?_, ascii_of_wholeNumber? read⟩
      rcases mark with rfl | rfl <;> decide
    · cases read

theorem ascii_takeWhile (cs : List Char) : Ascii (cs.takeWhile isPlainDigit) :=
  ascii_digits List.all_takeWhile

/-- The digits of a fraction, and what stands behind them. -/
def splitFraction (rest : List Char) : List Char × List Char :=
  match rest with
  | '.' :: more => (more.takeWhile isPlainDigit, more.dropWhile isPlainDigit)
  | _ => ([], rest)

theorem decimalNumber?_eq (cs : List Char) : decimalNumber? cs =
    let body := (splitSign cs).2
    let whole := body.takeWhile isPlainDigit
    let fraction := splitFraction (body.dropWhile isPlainDigit)
    if whole.isEmpty && fraction.1.isEmpty then none
    else (exponentPart? fraction.2).map fun e =>
      Binary64.ofDecimal (splitSign cs).1 (digitsValue (whole ++ fraction.1))
        (e - fraction.1.length) := by
  rfl

theorem ascii_of_splitFraction {cs : List Char} (rest : Ascii (splitFraction cs).2) : Ascii cs := by
  unfold splitFraction at rest
  split at rest
  · rename_i more
    refine List.forall_mem_cons.mpr ⟨by decide, ?_⟩
    rw [← List.takeWhile_append_dropWhile (p := isPlainDigit) (l := more)]
    exact ascii_append.mpr ⟨ascii_takeWhile more, rest⟩
  · exact rest

theorem ascii_of_decimalNumber? {cs : List Char} {x : Binary64}
    (read : decimalNumber? cs = some x) : Ascii cs := by
  refine ascii_of_splitSign ?_
  rw [decimalNumber?_eq] at read
  simp only at read
  split at read
  · cases read
  · obtain ⟨e, exponent, -⟩ := Option.map_eq_some_iff.mp read
    have behind := ascii_of_splitFraction (ascii_of_exponentPart? exponent)
    rw [← List.takeWhile_append_dropWhile (p := isPlainDigit) (l := (splitSign cs).2)]
    exact ascii_append.mpr ⟨ascii_takeWhile _, behind⟩

theorem ascii_of_toLower {cs : List Char} (lower : Ascii (cs.map Char.toLower)) : Ascii cs := by
  intro c mem
  have small := lower _ (List.mem_map_of_mem mem)
  by_contra large
  have same : c.toLower = c := by
    unfold Char.toLower
    rw [dif_neg]
    rintro ⟨-, le⟩
    exact large (Nat.lt_of_le_of_lt le (by decide))
  exact large (same ▸ small)

theorem ascii_of_specialNumber? {cs : List Char} {x : Binary64}
    (read : specialNumber? cs = some x) : Ascii cs := by
  refine ascii_of_splitSign (ascii_of_toLower ?_)
  have named (word : String) (ascii : Ascii word.toList)
      (same : String.ofList ((splitSign cs).2.map Char.toLower) = word) :
      Ascii ((splitSign cs).2.map Char.toLower) := by
    rwa [← same, String.toList_ofList] at ascii
  unfold specialNumber? at read
  simp only at read
  split at read
  · rename_i infinite
    rcases infinite with word | word
    · exact named "inf" (by unfold Ascii; decide) word
    · exact named "infinity" (by unfold Ascii; decide) word
  · split at read
    · exact named "nan" (by unfold Ascii; decide) ‹_›
    · cases read

/-- Removing underscores leaves all other characters. -/
theorem mem_of_ungroup {afterDigit : Bool} {cs out : List Char}
    (read : ungroup afterDigit cs = some out) : ∀ c ∈ cs, c = '_' ∨ c ∈ out := by
  induction afterDigit, cs using ungroup.induct generalizing out with
  | case1 => exact List.forall_mem_nil _
  | case2 afterDigit c rest digit ih =>
    rw [ungroup, if_pos digit] at read
    obtain ⟨out, later, rfl⟩ := Option.map_eq_some_iff.mp read
    refine List.forall_mem_cons.mpr ⟨.inl rfl, ?_⟩
    refine List.forall_mem_cons.mpr ⟨.inr List.mem_cons_self, ?_⟩
    exact fun c mem => (ih later c mem).imp_right (List.mem_cons_of_mem _)
  | case3 afterDigit c rest other =>
    rw [ungroup, if_neg other] at read
    cases read
  | case4 afterDigit rest single =>
    cases rest with
    | nil =>
      rw [ungroup, if_pos rfl] at read
      · cases read
      · exact nofun
    | cons c rest => exact (single c rest rfl rfl).elim
  | case5 afterDigit c rest single other ih =>
    rw [ungroup, if_neg other] at read
    · obtain ⟨out, later, rfl⟩ := Option.map_eq_some_iff.mp read
      refine List.forall_mem_cons.mpr ⟨.inr List.mem_cons_self, ?_⟩
      exact fun c mem => (ih later c mem).imp_right (List.mem_cons_of_mem _)
    · exact single

theorem numeralChars?_eq {s : String} (plain : ∀ c ∈ s.toList, Text.plainDigit c = c) :
    numeralChars? s = ungroup false (Text.trimBy isNumeralBlank s.toList) := by
  have same : (Text.trimBy isNumeralBlank s.toList).map Text.plainDigit =
      Text.trimBy isNumeralBlank s.toList := by
    have plain' := fun c mem =>
      plain c (Text.mem_of_mem_trimBy (p := isNumeralBlank) mem)
    exact (List.map_congr_left plain').trans (List.map_id _)
  rw [numeralChars?, same]

/-- A whole number is a decimal number, too. -/
theorem decimalNumber?_of_wholeNumber? {cs : List Char} {n : Int}
    (read : wholeNumber? cs = some n) : ∃ (negative : Bool) (k : Nat), n = (if negative then -(k : Int) else k) ∧
      decimalNumber? cs = some (Binary64.ofDecimal negative k 0) := by
  rw [wholeNumber?] at read
  rw [decimalNumber?_eq]
  generalize splitSign cs = signed at read ⊢
  obtain ⟨negative, digits⟩ := signed
  simp only at read ⊢
  split at read
  · cases read
  · rename_i all
    rw [Bool.not_eq_true, Bool.or_eq_false_iff, Bool.not_eq_false'] at all
    obtain ⟨some, plain⟩ := all
    have whole : digits.takeWhile isPlainDigit = digits :=
      List.takeWhile_eq_self_iff.mpr (List.all_eq_true.mp plain)
    have rest : digits.dropWhile isPlainDigit = [] :=
      List.dropWhile_eq_nil_iff.mpr (List.all_eq_true.mp plain)
    refine ⟨negative, digitsValue digits, (Option.some.inj read).symm, ?_⟩
    have behind : splitFraction [] = ([], []) := rfl
    simp only [whole, rest, behind, some, Bool.false_and, Bool.false_eq_true, if_false,
      exponentPart?, Option.map_some, List.append_nil, List.length_nil, Nat.cast_zero, Int.sub_zero]

/-! ### Words -/

/-- A character that no number begins with, unless it is a special value. -/
structure IsLetter (c : Char) : Prop where
  visible : isNumeralBlank c = false
  noDigit : isPlainDigit c = false
  noMark : c ≠ '_' ∧ c ≠ '.' ∧ c ≠ '-' ∧ c ≠ '+'

theorem isLetter_of_toLower {c : Char} (lower : c.toLower.isLower = true) : IsLetter c := by
  have all : ∀ n < 0x80, (Char.ofNat n).toLower.isLower = true →
      isNumeralBlank (Char.ofNat n) = false ∧ isPlainDigit (Char.ofNat n) = false ∧
        Char.ofNat n ≠ '_' ∧ Char.ofNat n ≠ '.' ∧ Char.ofNat n ≠ '-' ∧ Char.ofNat n ≠ '+' := by
    decide
  have small : c.toLower.toNat < 0x80 := by
    have bound : c.toLower.val ≤ 'z'.val := of_decide_eq_true (Bool.and_eq_true_iff.mp lower).2
    exact Nat.lt_of_le_of_lt bound (by decide : 'z'.toNat < 0x80)
  have ascii : Ascii [c] := ascii_of_toLower (List.forall_mem_singleton.mpr small)
  obtain ⟨n, below, rfl⟩ := Text.exists_ofNat (ascii c List.mem_cons_self)
  obtain ⟨visible, noDigit, noMark⟩ := all n below lower
  exact ⟨visible, noDigit, noMark⟩

variable {cs : List Char}

theorem ungroup_eq_self (none : '_' ∉ cs) (afterDigit : Bool) :
    ungroup afterDigit cs = some cs := by
  induction cs generalizing afterDigit with
  | nil => rfl
  | cons c rest ih =>
    rw [List.mem_cons, not_or] at none
    obtain ⟨other, none⟩ := none
    rw [ungroup, if_neg (Ne.symm other), ih none]
    · rfl
    · rintro _ _ rfl
      exact absurd rfl other

/-- A character that is no sign. -/
def Unsigned (c : Char) : Prop := c ≠ '+' ∧ c ≠ '-'

theorem splitSign_of_unsigned (unsigned : ∀ c ∈ cs.head?, Unsigned c) :
    splitSign cs = (false, cs) := by
  unfold splitSign
  split
  · exact absurd rfl (unsigned '-' rfl).2
  · exact absurd rfl (unsigned '+' rfl).1
  · rfl

theorem splitSign_of_letters (letters : ∀ c ∈ cs, IsLetter c) : splitSign cs = (false, cs) :=
  splitSign_of_unsigned fun c first =>
    have noMark := (letters c (List.mem_of_head? first)).noMark
    ⟨noMark.2.2.2, noMark.2.2.1⟩

theorem decimalNumber?_of_letters (letters : ∀ c ∈ cs, IsLetter c) : decimalNumber? cs = none := by
  rw [decimalNumber?_eq, splitSign_of_letters letters]
  cases cs with
  | nil => rfl
  | cons c rest =>
    obtain ⟨-, noDigit, noMark⟩ := letters c List.mem_cons_self
    have whole : (c :: rest).takeWhile isPlainDigit = [] := by
      rw [List.takeWhile_cons_of_neg (by rw [noDigit]; exact nofun)]
    have behind : (c :: rest).dropWhile isPlainDigit = c :: rest :=
      List.dropWhile_cons_of_neg (by rw [noDigit]; exact nofun)
    have fraction : splitFraction (c :: rest) = ([], c :: rest) := by
      unfold splitFraction
      split
      · rename_i point
        exact absurd (List.cons.inj point).1 noMark.2.1
      · rfl
    simp only [whole, behind, fraction, List.isEmpty_nil, Bool.and_self, if_true]

/-! ### How numbers are written -/

/-- A sign, or none. -/
inductive IsSign : List Char → Prop
  | none : IsSign []
  | plus : IsSign ['+']
  | minus : IsSign ['-']

/-- A row of digits, which may be empty. -/
def Digits (cs : List Char) : Prop := ∀ c ∈ cs, isPlainDigit c = true

/-- A point and digits, or nothing. -/
inductive IsFraction : List Char → List Char → Prop
  | none : IsFraction [] []
  | some {digits : List Char} : Digits digits → IsFraction digits ('.' :: digits)

/-- A whole number in digits, with a sign or without one. -/
inductive IsWhole : List Char → Prop
  | mk {sign digits : List Char} : IsSign sign → digits ≠ [] → Digits digits →
      IsWhole (sign ++ digits)

/-- The letter for an exponent and a whole number, or nothing. -/
inductive IsExponent : List Char → Prop
  | none : IsExponent []
  | some {e : Char} {rest : List Char} : e = 'e' ∨ e = 'E' → IsWhole rest → IsExponent (e :: rest)

/-- How a number is written: digits with or without a point, at least one of them, and an exponent;
or the name of a special value in any letter case. A sign may stand before each. -/
inductive IsNumber : List Char → Prop
  | decimal {sign whole digits fraction exponent : List Char} : IsSign sign → Digits whole →
      IsFraction digits fraction → whole ≠ [] ∨ digits ≠ [] → IsExponent exponent →
      IsNumber (sign ++ (whole ++ (fraction ++ exponent)))
  | special {sign name : List Char} : IsSign sign →
      String.ofList (name.map Char.toLower) ∈ ["inf", "infinity", "nan"] → IsNumber (sign ++ name)

/-- The text of a number: white space around it, digits of other scripts and underscores between
digits are allowed. -/
def IsNumeral (s : String) : Prop := ∃ cs, numeralChars? s = some cs ∧ IsNumber cs

theorem unsigned_of_isPlainDigit {c : Char} (digit : isPlainDigit c = true) : Unsigned c := by
  constructor <;> rintro rfl <;> cases digit

theorem exists_sign (cs : List Char) : ∃ sign, IsSign sign ∧ cs = sign ++ (splitSign cs).2 := by
  unfold splitSign
  split
  · exact ⟨_, .minus, rfl⟩
  · exact ⟨_, .plus, rfl⟩
  · exact ⟨_, .none, rfl⟩

theorem splitSign_append {sign rest : List Char} (isSign : IsSign sign)
    (unsigned : ∀ c ∈ rest.head?, Unsigned c) : (splitSign (sign ++ rest)).2 = rest := by
  cases isSign with
  | plus | minus => rfl
  | none => rw [List.nil_append, splitSign_of_unsigned unsigned]

theorem isSome_wholeNumber?_iff : (wholeNumber? cs).isSome ↔ IsWhole cs := by
  constructor
  · intro read
    obtain ⟨sign, isSign, split⟩ := exists_sign cs
    rw [wholeNumber?] at read
    generalize splitSign cs = signed at read split
    obtain ⟨negative, digits⟩ := signed
    simp only at read split
    split at read
    · cases read
    · rename_i plain
      simp only [Bool.or_eq_true, List.isEmpty_iff, Bool.not_eq_true', not_or,
        Bool.not_eq_false] at plain
      exact split ▸ .mk isSign plain.1 (List.all_eq_true.mp plain.2)
  · intro whole
    cases whole with
    | @mk sign digits isSign filled plain =>
      have body := splitSign_append isSign fun c first =>
        unsigned_of_isPlainDigit (plain c (List.mem_of_head? first))
      have digits' : ¬(digits.isEmpty || !digits.all isPlainDigit) = true := by
        simp only [Bool.or_eq_true, List.isEmpty_iff, Bool.not_eq_true', not_or, Bool.not_eq_false]
        exact ⟨filled, List.all_eq_true.mpr plain⟩
      simp only [wholeNumber?, body, if_neg digits', Option.isSome_some]

theorem isSome_exponentPart?_iff : (exponentPart? cs).isSome ↔ IsExponent cs := by
  cases cs with
  | nil => exact iff_of_true rfl .none
  | cons e rest =>
    rw [exponentPart?]
    split
    · rename_i mark
      rw [isSome_wholeNumber?_iff]
      exact ⟨.some mark, fun | .some _ whole => whole⟩
    · rename_i other
      exact iff_of_false nofun fun | .some mark _ => other mark

/-- What stands behind the digits of a fraction goes on with none. -/
theorem IsExponent.ends {cs : List Char} (exponent : IsExponent cs) :
    ∀ c ∈ cs.head?, isPlainDigit c = false ∧ c ≠ '.' := by
  cases exponent with
  | none => exact nofun
  | some mark =>
    intro c first
    obtain rfl := Option.some.inj first
    rcases mark with rfl | rfl <;> decide

theorem IsFraction.split {digits fraction exponent : List Char} (isFraction : IsFraction digits fraction)
    (isExponent : IsExponent exponent) :
    splitFraction (fraction ++ exponent) = (digits, exponent) := by
  cases isFraction with
  | none =>
    rw [List.nil_append]
    unfold splitFraction
    split
    · exact absurd rfl (isExponent.ends '.' rfl).2
    · rfl
  | some plain =>
    obtain ⟨taken, dropped⟩ := Text.span_front exponent plain fun c first =>
      (isExponent.ends c first).1
    rw [List.cons_append, splitFraction, taken, dropped]

theorem exists_fraction (cs : List Char) : ∃ fraction, IsFraction (splitFraction cs).1 fraction ∧
    cs = fraction ++ (splitFraction cs).2 := by
  unfold splitFraction
  split
  · rename_i more
    refine ⟨_, .some fun c mem => List.mem_takeWhile_imp mem, ?_⟩
    rw [List.cons_append, List.takeWhile_append_dropWhile]
  · exact ⟨[], .none, rfl⟩

theorem isNumber_of_decimalNumber? (read : (decimalNumber? cs).isSome) : IsNumber cs := by
  obtain ⟨sign, isSign, split⟩ := exists_sign cs
  rw [decimalNumber?_eq] at read
  generalize (splitSign cs).2 = body at read split
  simp only at read
  obtain ⟨fraction, isFraction, behind⟩ := exists_fraction (body.dropWhile isPlainDigit)
  split at read
  · cases read
  · rename_i filled
    rw [Option.isSome_map, isSome_exponentPart?_iff] at read
    have some' : body.takeWhile isPlainDigit ≠ [] ∨
        (splitFraction (body.dropWhile isPlainDigit)).1 ≠ [] := by
      by_contra none'
      rw [not_or, not_not, not_not] at none'
      simp [none'] at filled
    have parts := IsNumber.decimal isSign (fun c mem => List.mem_takeWhile_imp mem) isFraction some'
      read
    rwa [← behind, List.takeWhile_append_dropWhile, ← split] at parts

theorem isSome_decimalNumber? {sign whole digits fraction exponent : List Char}
    (isSign : IsSign sign) (plain : Digits whole) (isFraction : IsFraction digits fraction)
    (some' : whole ≠ [] ∨ digits ≠ []) (isExponent : IsExponent exponent) :
    (decimalNumber? (sign ++ (whole ++ (fraction ++ exponent)))).isSome := by
  have noDigit : ∀ c ∈ (fraction ++ exponent).head?, isPlainDigit c = false := by
    cases isFraction with
    | none => exact fun c first => (isExponent.ends c first).1
    | some =>
      intro c first
      obtain rfl := Option.some.inj first
      rfl
  have unsigned : ∀ c ∈ (whole ++ (fraction ++ exponent)).head?, Unsigned c := by
    intro c first
    cases whole with
    | cons d whole =>
      obtain rfl := Option.some.inj first
      exact unsigned_of_isPlainDigit (plain d List.mem_cons_self)
    | nil =>
      cases isFraction with
      | none => rcases some' with filled | filled <;> exact absurd rfl filled
      | some =>
        obtain rfl := Option.some.inj first
        exact ⟨by decide, by decide⟩
  obtain ⟨taken, dropped⟩ := Text.span_front _ plain noDigit
  have filled : ¬(whole.isEmpty && digits.isEmpty) = true := by
    simpa [List.isEmpty_iff, or_iff_not_imp_left] using some'
  simp only [decimalNumber?_eq, splitSign_append isSign unsigned, taken, dropped,
    isFraction.split isExponent, if_neg filled, Option.isSome_map]
  exact isSome_exponentPart?_iff.mpr isExponent

theorem isSome_specialNumber?_iff : (specialNumber? cs).isSome ↔
    String.ofList ((splitSign cs).2.map Char.toLower) ∈ ["inf", "infinity", "nan"] := by
  unfold specialNumber?
  simp only [List.mem_cons, List.not_mem_nil, or_false, ← or_assoc]
  split
  · exact iff_of_true rfl (.inl ‹_›)
  · split
    · exact iff_of_true rfl (.inr ‹_›)
    · exact iff_of_false nofun (not_or.mpr ⟨‹_›, ‹_›⟩)

theorem isNumber_iff : ((decimalNumber? cs).orElse fun _ => specialNumber? cs).isSome ↔
    IsNumber cs := by
  constructor
  · intro read
    cases decimal : decimalNumber? cs with
    | some x => exact isNumber_of_decimalNumber? (Option.isSome_of_eq_some decimal)
    | none =>
      rw [decimal] at read
      obtain ⟨sign, isSign, split⟩ := exists_sign cs
      exact split ▸ .special isSign (isSome_specialNumber?_iff.mp read)
  · rintro (⟨isSign, plain, isFraction, some', isExponent⟩ | ⟨isSign, named⟩)
    · obtain ⟨x, read⟩ := Option.isSome_iff_exists.mp
        (isSome_decimalNumber? isSign plain isFraction some' isExponent)
      rw [read]
      rfl
    · rename_i name
      have unsigned : ∀ c ∈ name.head?, Unsigned c := by
        intro c first
        obtain ⟨rest, rfl⟩ := List.head?_eq_some_iff.mp first
        constructor <;> rintro rfl <;> revert named <;>
          simp [← String.toList_inj, show Char.toLower '+' = '+' from rfl,
            show Char.toLower '-' = '-' from rfl]
      have read := isSome_specialNumber?_iff.mpr
        ((splitSign_append isSign unsigned).symm ▸ named)
      cases decimalNumber? _ with
      | some => rfl
      | none => exact read

/-- The texts of numbers are read, and no others. -/
theorem isSome_readFloat?_iff {s : String} : (readFloat? s).isSome ↔ IsNumeral s := by
  rw [readFloat?, IsNumeral]
  cases numeralChars? s with
  | none => simp
  | some cs =>
    rw [Option.bind_some, isNumber_iff]
    simp

/-! ### Digits alone -/

theorem digitsValue_eq (cs : List Char) : digitsValue cs = Nat.ofDigitChars 10 cs 0 := by
  unfold digitsValue Nat.ofDigitChars
  exact congrArg (List.foldl · 0 _) (funext fun m => funext fun c => by rw [Nat.mul_comm]; rfl)

theorem digitsValue_lt (digits : Digits cs) : digitsValue cs < 10 ^ cs.length := by
  induction cs using List.reverseRecOn with
  | nil => decide
  | append_singleton cs c ih =>
    obtain ⟨front, last⟩ := List.forall_mem_append.mp digits
    have digit : c.toNat ≤ '9'.toNat :=
      of_decide_eq_true (Bool.and_eq_true_iff.mp (last c List.mem_cons_self)).2
    have nine : '9'.toNat = 57 := by decide
    have value : digitsValue (cs ++ [c]) = digitsValue cs * 10 + (c.toNat - 48) :=
      List.foldl_concat ..
    have front := ih front
    rw [value, List.length_append, List.length_singleton, Nat.pow_succ]
    omega

/-- Digits are read as the number that they denote. -/
theorem readFloat?_digits {s : String} (filled : s.toList ≠ []) (digits : Digits s.toList) :
    readFloat? s = some (.ofInt (digitsValue s.toList)) := by
  have ascii : Ascii s.toList := ascii_digits (List.all_eq_true.mpr digits)
  have shown : ∀ c ∈ s.toList, isNumeralBlank c = false := by
    have all : ∀ n < 0x80, isPlainDigit (Char.ofNat n) = true →
        isNumeralBlank (Char.ofNat n) = false := by decide
    intro c mem
    obtain ⟨n, small, rfl⟩ := Text.exists_ofNat (ascii c mem)
    exact all n small (digits _ mem)
  have noMark : '_' ∉ s.toList := fun mem => absurd (digits '_' mem) (by decide)
  have chars : numeralChars? s = some s.toList := by
    rw [numeralChars?_eq fun c mem => Text.plainDigit_ascii (ascii c mem),
      Text.trimBy_eq_self shown, ungroup_eq_self noMark]
  have unsigned : splitSign s.toList = (false, s.toList) :=
    splitSign_of_unsigned fun c first =>
      unsigned_of_isPlainDigit (digits c (List.mem_of_head? first))
  have taken : s.toList.takeWhile isPlainDigit = s.toList := List.takeWhile_eq_self_iff.mpr digits
  have dropped : s.toList.dropWhile isPlainDigit = [] := List.dropWhile_eq_nil_iff.mpr digits
  have some' : ¬(s.toList.isEmpty && true) = true := by simpa using filled
  have decimal : decimalNumber? s.toList = some (.ofDecimal false (digitsValue s.toList) 0) := by
    rw [decimalNumber?_eq]
    simp only [unsigned, taken, dropped, splitFraction, List.isEmpty_nil, if_neg some',
      exponentPart?, Option.map_some, List.append_nil, List.length_nil, Nat.cast_zero, Int.sub_zero]
  rw [readFloat?, chars, Option.bind_some, decimal, Binary64.ofDecimal_whole]
  rfl

end Decimal

end GraphClient
