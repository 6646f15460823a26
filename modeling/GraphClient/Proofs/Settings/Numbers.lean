import GraphClient.Proofs.Numerals
import GraphClient.Settings.Check
import GraphClient.Settings.Environment

/-!
# Texts as limits

A text from the environment is converted before it is checked: words for truth values first, then
numbers. The check reads numbers from texts, too.

* `Check.plainDigit_of_floatOfText?`: the check reads digits of ASCII only, and
  `Check.floatOfText?_eq`: where there are no others, it reads what the conversion reads.
* `Environment.Misread`, `Environment.agrees_iff`: the texts of which the conversion makes another
  limit than the check does.
-/

namespace GraphClient

namespace Check

variable {bound : Int} {v w : Value} {x : Binary64} {s : String}

/-- Numbers that are not below a bound. -/
def Reaches (bound : Int) (x : Binary64) : Prop := x ≠ .nan ∧ x.ltInt bound = false

theorem floatFrom_eq_ok : floatFrom bound v = .ok x ↔ float v = .ok x ∧ Reaches bound x := by
  unfold floatFrom Reaches
  cases float v with
  | error rule => simp
  | ok y =>
    have checked (proper : y ≠ .nan) :
        ((if y.ltInt bound then .error .atLeast else .ok y : Result Binary64) = .ok x) ↔
          (.ok y : Result Binary64) = .ok x ∧ x ≠ .nan ∧ x.ltInt bound = false := by
      cases below : y.ltInt bound with
      | true =>
        simp only [if_true, reduceCtorEq, false_iff]
        rintro ⟨⟨rfl⟩, -, above⟩
        cases below.symm.trans above
      | false =>
        simp only [Bool.false_eq_true, if_false, Except.ok.injEq, iff_self_and]
        rintro rfl
        exact ⟨proper, below⟩
    cases y with
    | nan =>
      simp only [reduceCtorEq, false_iff, Except.ok.injEq]
      rintro ⟨rfl, proper, -⟩
      exact proper rfl
    | infinite negative => exact checked nofun
    | finite negative m e => exact checked nofun


theorem float_text_eq_ok : float (.text s) = .ok x ↔ floatOfText? s = some x := by
  rw [float]
  cases floatOfText? s <;> simp

theorem float_int_eq_ok {n : Int} :
    float (.int n) = .ok x ↔ Binary64.ofInt n = x ∧ ∀ negative, x ≠ .infinite negative := by
  rw [float]
  cases Binary64.ofInt n with
  | infinite negative =>
    simp only [reduceCtorEq, false_iff]
    rintro ⟨rfl, finite⟩
    exact finite negative rfl
  | nan | finite =>
    simp only [Except.ok.injEq, iff_self_and]
    rintro rfl
    exact nofun

/-! ### Texts of numbers -/

/-- The text of a number has no digits but those of ASCII. -/
theorem plainDigit_of_floatOfText? (read : floatOfText? s = some x) :
    ∀ c ∈ s.toList, Text.plainDigit c = c := by
  intro c mem
  rcases Text.mem_trimBy (p := Decimal.isNumeralBlank) mem with blank | mem
  · exact Text.plainDigit_blank (Bool.and_eq_true_iff.mp blank).1
  · refine Text.plainDigit_ascii ?_
    unfold floatOfText? at read
    split at read
    · cases read
    · rename_i cs grouped
      have ascii : Decimal.Ascii cs := by
        cases number : Decimal.decimalNumber? cs with
        | some y => exact Decimal.ascii_of_decimalNumber? number
        | none =>
          rw [number] at read
          exact Decimal.ascii_of_specialNumber? read
      rcases Decimal.mem_of_ungroup grouped c mem with rfl | mem
      · decide
      · exact ascii c mem

/-- Without foreign digits the two readers of numbers are the same. -/
theorem floatOfText?_eq (plain : ∀ c ∈ s.toList, Text.plainDigit c = c) :
    floatOfText? s = Decimal.readFloat? s := by
  rw [floatOfText?, Decimal.readFloat?, Decimal.numeralChars?_eq plain]
  cases Decimal.ungroup false (Text.trimBy Decimal.isNumeralBlank s.toList) <;> rfl

/-- A word of letters is no number, unless it is the name of a special value. -/
theorem floatOfText?_word {word : String} (lower : s.toList.map Char.toLower = word.toList)
    (small : word.toList.all Char.isLower = true) (other : word ∉ ["inf", "infinity", "nan"]) :
    floatOfText? s = none := by
  have letters : ∀ c ∈ s.toList, Decimal.IsLetter c := fun c mem =>
    Decimal.isLetter_of_toLower <| List.all_eq_true.mp small _ (lower ▸ List.mem_map_of_mem mem)
  have noMark : '_' ∉ s.toList := fun mem => absurd rfl (letters '_' mem).noMark.1
  have named : String.ofList (s.toList.map Char.toLower) = word := by
    rw [lower, String.ofList_toList]
  simp only [List.mem_cons, List.not_mem_nil, or_false, not_or] at other
  rw [floatOfText?, Text.trimBy_eq_self fun c mem => (letters c mem).visible,
    Decimal.ungroup_eq_self noMark]
  simp only [Decimal.decimalNumber?_of_letters letters, Decimal.specialNumber?,
    Decimal.splitSign_of_letters letters, named, other, or_self, if_false]
  rfl

end Check

namespace Environment

variable {s : String}

theorem eq_of_toLower_digit {d : Char} (digit : d = '1' ∨ d = '0')
    (lower : s.toList.map Char.toLower = [d]) : s = String.singleton d := by
  have all : ∀ n < 0x80, ∀ d ∈ ['1', '0'], (Char.ofNat n).toLower = d → Char.ofNat n = d := by
    decide
  obtain ⟨c, single, same⟩ := List.map_eq_singleton_iff.mp lower
  have ascii : Decimal.Ascii s.toList := by
    refine Decimal.ascii_of_toLower ?_
    rw [lower]
    rcases digit with rfl | rfl <;> exact List.forall_mem_singleton.mpr (by decide)
  rw [single] at ascii
  have unchanged : c = d := by
    obtain ⟨n, small, rfl⟩ := Text.exists_ofNat (ascii c List.mem_cons_self)
    exact all n small d (by simpa using digit) same
  rw [← String.toList_inj, single, unchanged, String.toList_singleton]

/-- A word for a truth value is no number, but for the two digits. -/
theorem floatOfText?_of_truthWord? {b : Bool} (means : truthWord? s = some b) :
    Check.floatOfText? s = none ∨ s = if b then "1" else "0" := by
  have lower {word : String} (same : String.ofList (s.toList.map Char.toLower) = word) :
      s.toList.map Char.toLower = word.toList := by
    rw [← same, String.toList_ofList]
  unfold truthWord? at means
  simp only [List.contains_iff_mem, List.mem_cons, List.not_mem_nil, or_false] at means
  split at means
  · rename_i word
    obtain rfl := Option.some.inj means
    rcases word with word | word | word | word
    · exact .inl (Check.floatOfText?_word (lower word) (by decide) (by decide))
    · exact .inl (Check.floatOfText?_word (lower word) (by decide) (by decide))
    · exact .inr (eq_of_toLower_digit (.inl rfl) (lower word))
    · exact .inl (Check.floatOfText?_word (lower word) (by decide) (by decide))
  · split at means
    · rename_i word
      obtain rfl := Option.some.inj means
      rcases word with word | word | word | word
      · exact .inl (Check.floatOfText?_word (lower word) (by decide) (by decide))
      · exact .inl (Check.floatOfText?_word (lower word) (by decide) (by decide))
      · exact .inr (eq_of_toLower_digit (.inr rfl) (lower word))
      · exact .inl (Check.floatOfText?_word (lower word) (by decide) (by decide))
    · cases means

/-! ## Texts that the conversion misreads -/

/-- Texts of which the conversion makes something else than the check of a limit: words for true,
numbers with digits of other scripts, and whole numbers beyond the largest double. -/
inductive Misread (s : String) : Prop where
  | word (means : truthWord? s = some true) (other : s ≠ "1")
  | digits {w : Value} (noWord : truthWord? s = none) (number : number? s = some w)
      (foreign : ∃ c ∈ s.toList, Text.plainDigit c ≠ c)
      (accepted : ∃ x, Check.floatFrom 1 w = .ok x)
  | huge {n : Int} (noWord : truthWord? s = none) (noPoint : s.toList.contains '.' = false)
      (number : Decimal.readInt? s = some n) (plain : ∀ c ∈ s.toList, Text.plainDigit c = c)
      (beyond : Binary64.ofInt n = .infinite false)

/-- The conversion of a text and the text itself are the same limit. -/
def Agrees (s : String) : Prop :=
  ∀ x, Check.floatFrom 1 (convert s) = .ok x ↔ Check.floatFrom 1 (.text s) = .ok x

theorem convert_of_word {b : Bool} (means : truthWord? s = some b) : convert s = .bool b := by
  rw [convert, means]

theorem convert_of_number {w : Value} (noWord : truthWord? s = none) (number : number? s = some w) :
    convert s = w := by
  rw [convert, noWord, number]
  rfl

theorem not_accepted {s : String} (unread : Check.floatOfText? s = none) (x : Binary64) :
    Check.floatFrom 1 (.text s) ≠ .ok x := by
  rw [ne_eq, Check.floatFrom_eq_ok, Check.float_text_eq_ok, unread]
  rintro ⟨⟨⟩, -⟩

theorem not_reaches_of_isNegative {x : Binary64} (negative : x.isNegative = true) :
    ¬Check.Reaches 1 x := fun reaches => by
  cases (Binary64.ltInt_one_of_isNegative negative).symm.trans reaches.2

theorem not_reaches_of_nonpos {n : Int} (nonpos : n ≤ 0) : ¬Check.Reaches 1 (.ofInt n) := by
  rcases Int.lt_or_eq_of_le nonpos with negative | rfl
  · refine not_reaches_of_isNegative ?_
    rw [Binary64.ofInt, Binary64.isNegative_ofRatio, decide_eq_true negative]
  · have below : Binary64.ltInt (.ofInt 0) 1 = true := by decide +kernel
    exact fun reaches => by cases below.symm.trans reaches.2

theorem reaches_infinite : Check.Reaches 1 (.infinite false) := ⟨nofun, rfl⟩

theorem agrees_true (means : truthWord? s = some true) : Agrees s ↔ s = "1" := by
  have one : Check.floatFrom 1 (convert s) = .ok (.ofInt 1) := by
    rw [convert_of_word means, Check.floatFrom_eq_ok]
    exact ⟨rfl, by decide +kernel, by decide +kernel⟩
  constructor
  · intro agrees
    have accepted := (agrees _).mp one
    exact (floatOfText?_of_truthWord? means).resolve_left fun unread =>
      not_accepted unread _ accepted
  · rintro rfl x
    have read : Check.floatOfText? "1" = some (.ofInt 1) := by decide +kernel
    rw [convert_of_word means, Check.floatFrom_eq_ok, Check.floatFrom_eq_ok, Check.float_text_eq_ok,
      read]
    simp [Check.float]

theorem agrees_false (means : truthWord? s = some false) : Agrees s := by
  have below := not_reaches_of_nonpos (Int.le_refl 0)
  have refused (x : Binary64) : Check.floatFrom 1 (convert s) ≠ .ok x := by
    rw [convert_of_word means, ne_eq, Check.floatFrom_eq_ok]
    rintro ⟨⟨rfl⟩, reaches⟩
    exact below reaches
  have refused' (x : Binary64) : Check.floatFrom 1 (.text s) ≠ .ok x := by
    rcases floatOfText?_of_truthWord? means with unread | rfl
    · exact not_accepted unread x
    · have read : Check.floatOfText? "0" = some (.ofInt 0) := by decide +kernel
      rw [ne_eq, Check.floatFrom_eq_ok, Check.float_text_eq_ok]
      rintro ⟨same, reaches⟩
      exact below (Option.some.inj (read.symm.trans same) ▸ reaches)
  exact fun x => iff_of_false (refused x) (refused' x)

theorem agrees_foreign {w : Value} (noWord : truthWord? s = none) (number : number? s = some w)
    (foreign : ∃ c ∈ s.toList, Text.plainDigit c ≠ c) :
    Agrees s ↔ ¬∃ x, Check.floatFrom 1 w = .ok x := by
  have unread : Check.floatOfText? s = none := by
    rw [Option.eq_none_iff_forall_ne_some]
    intro x read
    obtain ⟨c, mem, other⟩ := foreign
    exact other (Check.plainDigit_of_floatOfText? read c mem)
  rw [Agrees, convert_of_number noWord number, not_exists]
  exact forall_congr' fun x => iff_false_right (not_accepted unread x)

/-- A number with a point, in digits of ASCII. -/
theorem agrees_pointed {w : Value} (noWord : truthWord? s = none)
    (point : s.toList.contains '.' = true) (number : number? s = some w)
    (plain : ∀ c ∈ s.toList, Text.plainDigit c = c) : Agrees s := by
  intro x
  rw [convert_of_number noWord number]
  rw [number?, point] at number
  obtain ⟨y, read, rfl⟩ := Option.map_eq_some_iff.mp number
  rw [Check.floatFrom_eq_ok, Check.floatFrom_eq_ok, Check.float_text_eq_ok,
    Check.floatOfText?_eq plain, read, Check.float, Except.ok.injEq, Option.some.injEq]

/-- A whole number in digits of ASCII. -/
theorem agrees_whole {n : Int} (noWord : truthWord? s = none)
    (noPoint : s.toList.contains '.' = false) (number : Decimal.readInt? s = some n)
    (plain : ∀ c ∈ s.toList, Text.plainDigit c = c) :
    Agrees s ↔ Binary64.ofInt n ≠ .infinite false := by
  have value : number? s = some (.int n) := by
    rw [number?, noPoint, number]
    rfl
  obtain ⟨cs, chars, whole⟩ := Option.bind_eq_some_iff.mp number
  obtain ⟨negative, k, rfl, decimal⟩ := Decimal.decimalNumber?_of_wholeNumber? whole
  have read : Check.floatOfText? s = some (.ofDecimal negative k 0) := by
    rw [Check.floatOfText?_eq plain, Decimal.readFloat?, chars, Option.bind_some, decimal]
    rfl
  rw [Agrees, convert_of_number noWord value]
  simp only [Check.floatFrom_eq_ok, Check.float_int_eq_ok, Check.float_text_eq_ok, read,
    Option.some.injEq]
  cases negative with
  | true =>
    have below : ¬Check.Reaches 1 (.ofInt (-(k : Int))) := not_reaches_of_nonpos (by omega)
    have below' := not_reaches_of_isNegative (Binary64.isNegative_ofDecimal true k 0)
    refine iff_of_true (fun x => iff_of_false ?_ ?_) fun infinite => below ?_
    · rintro ⟨⟨rfl, -⟩, reaches⟩
      exact below reaches
    · rintro ⟨rfl, reaches⟩
      exact below' reaches
    · exact infinite ▸ reaches_infinite
  | false =>
    simp only [Binary64.ofDecimal_whole, Bool.false_eq_true, if_false]
    constructor
    · intro agrees infinite
      exact ((agrees _).mpr ⟨infinite, reaches_infinite⟩).1.2 false rfl
    · intro finite x
      refine ⟨And.imp_left And.left, ?_⟩
      rintro ⟨rfl, reaches⟩
      refine ⟨⟨rfl, fun negative same => ?_⟩, reaches⟩
      cases negative with
      | true => exact not_reaches_of_isNegative (congrArg Binary64.isNegative same) reaches
      | false => exact finite same

/-- Where the two differ, exactly. -/
theorem agrees_iff : Agrees s ↔ ¬Misread s := by
  cases word : truthWord? s with
  | some b =>
    cases b with
    | true =>
      rw [agrees_true word]
      constructor
      · rintro same (⟨-, other⟩ | ⟨noWord, -⟩ | ⟨noWord, -⟩)
        · exact other same
        · cases word.symm.trans noWord
        · cases word.symm.trans noWord
      · intro sound
        by_contra other
        exact sound (.word word other)
    | false =>
      refine iff_of_true (agrees_false word) ?_
      rintro (⟨means, -⟩ | ⟨noWord, -⟩ | ⟨noWord, -⟩)
      · cases word.symm.trans means
      · cases word.symm.trans noWord
      · cases word.symm.trans noWord
  | none =>
    cases number : number? s with
    | none =>
      refine iff_of_true (fun x => by rw [convert, word, number]; rfl) ?_
      rintro (⟨means, -⟩ | ⟨-, number', -⟩ | ⟨-, noPoint, number', -⟩)
      · cases word.symm.trans means
      · cases number.symm.trans number'
      · rw [number?, noPoint, number'] at number
        cases number
    | some w =>
      by_cases foreign : ∃ c ∈ s.toList, Text.plainDigit c ≠ c
      · rw [agrees_foreign word number foreign, not_iff_not]
        constructor
        · exact .digits word number foreign
        · rintro (⟨means, -⟩ | ⟨-, number', -, accepted⟩ | ⟨-, -, -, plain, -⟩)
          · cases word.symm.trans means
          · exact Option.some.inj (number'.symm.trans number) ▸ accepted
          · obtain ⟨c, mem, other⟩ := foreign
            exact absurd (plain c mem) other
      · have plain : ∀ c ∈ s.toList, Text.plainDigit c = c := fun c mem =>
          not_not.mp fun other => foreign ⟨c, mem, other⟩
        cases point : s.toList.contains '.' with
        | true =>
          refine iff_of_true (agrees_pointed word point number plain) ?_
          rintro (⟨means, -⟩ | ⟨-, -, foreign', -⟩ | ⟨-, noPoint, -⟩)
          · cases word.symm.trans means
          · exact foreign foreign'
          · cases point.symm.trans noPoint
        | false =>
          have integer := number
          rw [number?, point] at integer
          obtain ⟨n, read, rfl⟩ := Option.map_eq_some_iff.mp integer
          rw [agrees_whole word point read plain, not_iff_not]
          constructor
          · exact .huge word point read plain
          · rintro (⟨means, -⟩ | ⟨-, -, foreign', -⟩ | ⟨-, -, read', -, beyond⟩)
            · cases word.symm.trans means
            · exact absurd foreign' foreign
            · exact Option.some.inj (read'.symm.trans read) ▸ beyond

end Environment

end GraphClient
