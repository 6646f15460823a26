import GraphClient.Proofs.Json.Payload

/-!
# Documents on one line

* `Json.Visible`: a text without control characters. Every plain document is written as one
  (`Json.Plain.visible`), since each of its strings is (`Json.visible_quote`).
* `Value.Faithful`: values that JSON gives back as they are (`Value.Faithful.load_dump`).
-/

namespace GraphClient

namespace Json

/-- A text holds no control character, and so no end of a line. -/
def Visible (s : String) : Prop := ∀ c ∈ s.toList, 0x20 ≤ c.toNat

instance (s : String) : Decidable (Visible s) :=
  inferInstanceAs (Decidable (∀ c ∈ s.toList, 0x20 ≤ c.toNat))

variable {alphabet : Alphabet} {s s' : String}

@[simp] theorem visible_append : Visible (s ++ s') ↔ Visible s ∧ Visible s' := by
  simp only [Visible, String.toList_append, List.forall_mem_append]

theorem visible_join {parts : List String} (all : ∀ s ∈ parts, Visible s) :
    Visible (String.join parts) := by
  intro c mem
  rw [String.toList_join, List.mem_flatMap] at mem
  obtain ⟨s, part, mem⟩ := mem
  exact all s part c mem

theorem visible_unitEscape {n : Nat} (small : n < 65536) : Visible (unitEscape n) := by
  have digit (d : Nat) (small : d < 16) : 0x20 ≤ d.digitChar.toNat := by
    revert d
    decide
  rw [unitEscape, visible_append]
  refine ⟨by decide, fun c mem => ?_⟩
  rw [toList_hex small] at mem
  simp only [List.mem_cons, List.not_mem_nil, or_false] at mem
  rcases mem with rfl | rfl | rfl | rfl
  all_goals exact digit _ (by omega)

theorem visible_charEscape (c : Char) : Visible (charEscape c) := by
  have valid : c.toNat < 0xd800 ∨ 0xdfff < c.toNat ∧ c.toNat < 0x110000 := c.valid
  rw [charEscape]
  split
  · rename_i small
    exact visible_unitEscape small
  · rw [visible_append]
    exact ⟨visible_unitEscape (by omega), visible_unitEscape (by omega)⟩

/-- What a string shows of a character is no control character. -/
theorem visible_escapeChar (alphabet : Alphabet) (c : Char) : Visible (escapeChar alphabet c) := by
  rw [escapeChar]
  split_ifs with quoteMark backslash newline cr tab backspace feed low shown
  · decide
  · decide
  · decide
  · decide
  · decide
  · decide
  · decide
  · exact visible_unitEscape (by omega)
  · intro c' mem
    obtain rfl : c' = c := List.mem_singleton.mp (String.toList_singleton c ▸ mem)
    exact Nat.le_of_not_lt low
  · exact visible_charEscape c

theorem visible_quote (alphabet : Alphabet) (s : String) : Visible (quote alphabet s) := by
  have mark : Visible "\"" := by decide
  rw [quote, visible_append, visible_append]
  refine ⟨⟨mark, visible_join fun part mem => ?_⟩, mark⟩
  obtain ⟨c, -, rfl⟩ := List.mem_map.mp mem
  exact visible_escapeChar alphabet c

theorem visible_int (n : Int) : Visible (toString n) := by
  intro c mem
  rw [toList_toString_int, List.mem_append] at mem
  rcases mem with sign | digit
  · split at sign
    · rw [List.mem_singleton.mp sign]
      decide
    · cases sign
  · have plain := isPlainDigit_toDigits c digit
    rw [Decimal.isPlainDigit, Bool.and_eq_true, decide_eq_true_eq] at plain
    exact Nat.le_trans (by decide : 0x20 ≤ '0'.toNat) plain.1

theorem visible_writeItems {items : List Json} (all : ∀ item ∈ items, Visible (write alphabet item)) :
    Visible (writeItems alphabet items) := by
  induction items with
  | nil =>
    rw [writeItems]
    decide
  | cons item items ih =>
    obtain ⟨here, all⟩ := List.forall_mem_cons.mp all
    cases items with
    | nil => rwa [writeItems_one]
    | cons next items =>
      rw [writeItems_cons, visible_append, visible_append]
      exact ⟨⟨here, by decide⟩, ih all⟩

theorem visible_writeMembers {members : List (String × Json)}
    (all : ∀ member ∈ members, Visible (write alphabet member.2)) :
    Visible (writeMembers alphabet members) := by
  have one (member : String × Json) (visible : Visible (write alphabet member.2)) :
      Visible (writeMember alphabet member) := by
    rw [writeMember, visible_append, visible_append]
    exact ⟨⟨visible_quote alphabet _, by decide⟩, visible⟩
  induction members with
  | nil =>
    rw [writeMembers]
    decide
  | cons member members ih =>
    obtain ⟨here, all⟩ := List.forall_mem_cons.mp all
    cases members with
    | nil =>
      rw [writeMembers_one]
      exact one member here
    | cons next members =>
      rw [writeMembers_cons_cons, visible_append, visible_append]
      exact ⟨⟨one member here, by decide⟩, ih all⟩

/-- A plain document is written on one line. -/
theorem Plain.visible {d : Json} (plain : Plain d) (alphabet : Alphabet) :
    Visible (write alphabet d) := by
  induction plain with
  | null =>
    rw [write]
    decide
  | bool b =>
    rw [write]
    cases b <;> decide
  | int n =>
    rw [write]
    exact visible_int n
  | text s =>
    rw [write]
    exact visible_quote alphabet s
  | array _ ih =>
    rw [write, visible_append, visible_append]
    exact ⟨⟨by decide, visible_writeItems ih⟩, by decide⟩
  | object _ _ ih =>
    rw [write, visible_append, visible_append]
    exact ⟨⟨by decide, visible_writeMembers ih⟩, by decide⟩

end Json

namespace Value

/-- A value that JSON gives back as it is: sequences are lists, tables have texts as keys, and
integers have no more digits than can be converted. -/
inductive Faithful : Value → Prop where
  | null : Faithful null
  | bool (b : Bool) : Faithful (bool b)
  | int {n : Int} (short : (Json.int n).fits (some Decimal.digitLimit)) : Faithful (int n)
  | text (s : String) : Faithful (text s)
  | list {items : List Value} (all : ∀ v ∈ items, Faithful v) : Faithful (list items)
  | table {entries : List (String × Value)} (distinct : (entries.map Prod.fst).Nodup)
      (all : ∀ entry ∈ entries, Faithful entry.2) : Faithful (ofPairs entries)

theorem listedItems_eq_self {items : List Value} (all : ∀ v ∈ items, v.listed = v) :
    listedItems items = items := by
  induction items with
  | nil => rfl
  | cons v vs ih =>
    obtain ⟨here, all⟩ := List.forall_mem_cons.mp all
    rw [listedItems, here, ih all]

theorem listedEntries_eq_self {entries : List (Value × Value)}
    (all : ∀ entry ∈ entries, entry.2.listed = entry.2) : listedEntries entries = entries := by
  induction entries with
  | nil => rfl
  | cons entry entries ih =>
    obtain ⟨here, all⟩ := List.forall_mem_cons.mp all
    rw [listedEntries, here, ih all]

namespace Faithful

variable {v : Value}

theorem documented (faithful : Faithful v) (rule : ForeignRule) :
    Documented (some Decimal.digitLimit) rule v := by
  induction faithful with
  | null => exact documented_single rfl .null rfl rfl
  | bool b => exact documented_single rfl (.bool b) rfl rfl
  | int short => exact documented_single rfl (.int _) short rfl
  | text s => exact documented_single rfl (.text s) rfl rfl
  | list _ ih => exact documented_list ih
  | table distinct _ ih => exact documented_table distinct ih

theorem listed_eq (faithful : Faithful v) : v.listed = v := by
  induction faithful with
  | null => rfl
  | bool b => rfl
  | int _ => rfl
  | text s => rfl
  | list _ ih => rw [listed, listedItems_eq_self ih]
  | table _ _ ih => rw [ofPairs, listed, listedEntries_eq_self (List.forall_mem_map.mpr ih)]

/-- The value is written on one line, and read back from it. -/
theorem load_dump (faithful : Faithful v) (rule : ForeignRule) (alphabet : Json.Alphabet) :
    ∃ d line, v.toJson rule = .ok d ∧ Json.dump alphabet d = .ok line ∧ Json.Visible line ∧
      (Json.load line).map Json.toValue = .ok v := by
  obtain ⟨d, written, ⟨plain, fits⟩, same⟩ := faithful.documented rule
  refine ⟨d, _, written, if_pos fits, plain.visible alphabet, ?_⟩
  rw [Json.load_write plain fits, ← faithful.listed_eq, ← same]
  rfl

end Faithful

end Value

end GraphClient
