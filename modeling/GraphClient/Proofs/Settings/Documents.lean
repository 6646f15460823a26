import GraphClient.Proofs.Client.Verdict
import GraphClient.Proofs.Value.Keys
import GraphClient.Settings.Source

/-!
# Documents as settings

`Json.settings?` says what settings a document stands for: the members of an object, but also the
pairs of an array, where a text of two characters and an object of two members are pairs, too.

* `Json.setPairs_toValue`: the items of an array are taken one by one, up to the first that is
  no pair.
* `Json.Tabulated`: what matters of the names in a table of settings.
* `Json.tableOf_eq`: reading a document gives a table of the settings that it stands for, or fails
  with the condition that `Json.settings?` names.
-/

namespace GraphClient

namespace Value

/-- Whether a value is a text. -/
def isText : Value → Bool
  | text _ => true
  | _ => false

theorem exists_of_isText {v : Value} (isText : v.isText = true) : ∃ s, v = text s := by
  cases v with
  | text s => exact ⟨s, rfl⟩
  | _ => cases isText

end Value

namespace Json

/-- Whether a document is a text. -/
def isText : Json → Bool
  | text _ => true
  | _ => false

/-- Whether a document is an array or an object. -/
def isCollection : Json → Bool
  | array _ | object _ => true
  | _ => false

/-- What a document gives when it is walked through: an object its names, a text its characters. -/
def parts? : Json → Option (List Json)
  | array items => some items
  | text s => some (s.toList.map fun c => text (String.singleton c))
  | object members => some (members.map fun member => text member.1)
  | _ => none

/-- An item of an array as a name and a value: it has two parts, of which the first is no
collection. Otherwise the condition that is reported. -/
def toSetting (item : Json) : Except Condition (Json × Json) :=
  match parts? item with
  | none => .error .type
  | some [name, value] => if name.isCollection then .error .type else .ok (name, value)
  | some _ => .error .value

/-- The settings that a document stands for, or the condition that is reported. -/
def settings? : Json → Except Condition (List (Json × Json))
  | object members => .ok (members.map fun member => (text member.1, member.2))
  | array items => items.mapM toSetting
  | text s => if s.isEmpty then .ok [] else .error .value
  | document => if document.isFalse then .ok [] else .error .type

theorem toValues_eq_map (items : List Json) : toValues items = items.map toValue := by
  induction items with
  | nil => rfl
  | cons item items ih => rw [toValues, ih, List.map_cons]

theorem toEntries_eq_map (members : List (String × Json)) :
    toEntries members = members.map fun member => (.text member.1, member.2.toValue) := by
  induction members with
  | nil => rfl
  | cons member members ih => rw [toEntries, ih, List.map_cons]

theorem isText_toValue (document : Json) : document.toValue.isText = document.isText := by
  cases document <;> rfl

theorem isKey_toValue (document : Json) : document.toValue.isKey = !document.isCollection := by
  cases document <;> rfl

theorem items?_toValue (document : Json) :
    document.toValue.items? = document.parts?.map (List.map toValue) := by
  cases document with
  | array items => simp [toValue, Value.items?, parts?, toValues_eq_map]
  | object members =>
    simp only [toValue, Value.items?, parts?, toEntries_eq_map, Option.map_some, List.map_map]
    rfl
  | text s =>
    simp only [toValue, Value.items?, parts?, Option.map_some, List.map_map]
    rfl
  | _ => rfl

/-- Reading an item as a pair gives the setting that it is, or the condition. -/
theorem toPair_toValue (item : Json) (position : Nat) :
    match item.toSetting with
    | .ok setting =>
      item.toValue.toPair position = .ok (setting.1.toValue, setting.2.toValue)
    | .error condition => ∃ why, item.toValue.toPair position = .error (.misuse condition why) := by
  unfold toSetting Value.toPair
  rw [items?_toValue]
  cases parts? item with
  | none => exact ⟨_, rfl⟩
  | some parts =>
    match parts with
    | [name, value] =>
      simp only [Option.map_some, List.map_cons, List.map_nil, isKey_toValue]
      cases name.isCollection with
      | true => exact ⟨_, rfl⟩
      | false => rfl
    | [] | [_] | _ :: _ :: _ :: _ => exact ⟨_, rfl⟩

/-- Settings as entries of a table. -/
def entriesOf (settings : List (Json × Json)) : List (Value × Value) :=
  settings.map fun setting => (setting.1.toValue, setting.2.toValue)

/-- Items are set one by one, up to the first one that is no setting. -/
theorem setPairs_toValue (items : List Json) (table : List (Value × Value)) (position : Nat) :
    match items.mapM toSetting with
    | .ok settings => Value.setPairs table position (items.map toValue) =
        .ok (Pairs.merge table (entriesOf settings))
    | .error condition => ∃ why, Value.setPairs table position (items.map toValue) =
        .error (.misuse condition why) := by
  induction items generalizing table position with
  | nil => rfl
  | cons item items ih =>
    have pair := toPair_toValue item position
    rw [List.mapM_cons, List.map_cons, Value.setPairs]
    cases first : item.toSetting with
    | error condition =>
      rw [first] at pair
      obtain ⟨why, pair⟩ := pair
      rw [pair]
      exact ⟨why, rfl⟩
    | ok setting =>
      rw [first] at pair
      rw [pair]
      have later := ih (Pairs.set setting.1.toValue setting.2.toValue table) (position + 1)
      cases rest : items.mapM toSetting with
      | error condition => rwa [rest] at later
      | ok settings => rwa [rest] at later

theorem toSetting_error {item : Json} {condition : Condition}
    (failed : item.toSetting = .error condition) : condition = .value ∨ condition = .type := by
  unfold toSetting at failed
  split at failed
  · exact .inr (Except.error.inj failed).symm
  · split at failed
    · exact .inr (Except.error.inj failed).symm
    · cases failed
  · exact .inl (Except.error.inj failed).symm

theorem mapM_toSetting_error {items : List Json} {condition : Condition}
    (failed : items.mapM toSetting = .error condition) : condition = .value ∨ condition = .type := by
  induction items with
  | nil => cases failed
  | cons item items ih =>
    rw [List.mapM_cons] at failed
    cases first : item.toSetting with
    | error condition' =>
      rw [first] at failed
      cases failed
      exact toSetting_error first
    | ok setting =>
      rw [first] at failed
      cases rest : items.mapM toSetting with
      | error condition' =>
        rw [rest] at failed
        cases failed
        exact ih rest
      | ok settings =>
        rw [rest] at failed
        cases failed

theorem settings?_error {document : Json} {condition : Condition}
    (failed : document.settings? = .error condition) : condition = .value ∨ condition = .type := by
  unfold settings? at failed
  split at failed
  · cases failed
  · exact mapM_toSetting_error failed
  · split at failed
    · cases failed
    · exact .inl (Except.error.inj failed).symm
  · split at failed
    · cases failed
    · exact .inr (Except.error.inj failed).symm

end Json

/-! ## Tables of settings -/

namespace Value

variable {s : String} {k v : Value} {table : List (Value × Value)}

/-- Setting a key leaves texts as keys exactly if it is a text itself. -/
theorem texts_set : (∀ k' ∈ (Pairs.set k v table).map Prod.fst, k'.isText) ↔
    (∀ k' ∈ table.map Prod.fst, k'.isText) ∧ k.isText := by
  rw [Pairs.keys_set_eq]
  split
  · rename_i there
    refine ⟨fun texts => ⟨texts, ?_⟩, And.left⟩
    -- A key that is the same as a text is that text.
    obtain ⟨k', mem, same⟩ := Pairs.exists_key_of_contains there
    obtain ⟨s, rfl⟩ := exists_of_isText (texts k' mem)
    rw [text_beq.mp same]
    rfl
  · rw [List.forall_mem_append, List.forall_mem_singleton]

/-- A text is looked up by equality. -/
theorem isSome_get?_text : (Pairs.get? (text s) table).isSome ↔ text s ∈ table.map Prod.fst := by
  induction table with
  | nil => exact ⟨nofun, nofun⟩
  | cons entry table ih =>
    rw [Pairs.get?, List.map_cons, List.mem_cons, ← ih]
    split
    · rename_i same
      exact ⟨fun _ => .inl (text_beq.mp (BEq.symm same)).symm, fun _ => rfl⟩
    · rename_i other
      exact ⟨.inr, (·.resolve_left fun same => other (BEq.symm (text_beq.mpr same.symm)))⟩

theorem mem_keys_set_text :
    text s ∈ (Pairs.set k v table).map Prod.fst ↔ text s ∈ table.map Prod.fst ∨ k = text s := by
  rw [Pairs.keys_set_eq]
  split
  · rename_i there
    exact ⟨.inl, (·.elim id fun same => isSome_get?_text.mp (same ▸ there))⟩
  · rw [List.mem_append, List.mem_singleton, eq_comm (a := k)]

end Value

namespace Json

/-- A table has names that are no texts, and an endpoint, exactly if the settings do. -/
structure Tabulated (settings : List (Json × Json)) (table : List (Value × Value)) : Prop where
  texts : (∀ k ∈ table.map Prod.fst, k.isText) ↔ ∀ setting ∈ settings, setting.1.isText
  endpoint : (Value.lookup? "endpoint" table).isSome ↔
    ∃ setting ∈ settings, setting.1 = text "endpoint"

theorem toValue_eq_text {document : Json} {s : String} :
    document.toValue = .text s ↔ document = text s := by
  cases document <;> simp [toValue]

theorem tabulated_ofList (settings : List (Json × Json)) :
    Tabulated settings (Pairs.ofList (entriesOf settings)) := by
  induction settings using List.reverseRecOn with
  | nil => exact ⟨⟨nofun, nofun⟩, ⟨nofun, nofun⟩⟩
  | append_singleton settings setting ih =>
    rw [entriesOf, List.map_append, ← entriesOf, List.map_singleton, Pairs.ofList_concat]
    constructor
    · rw [Value.texts_set, ih.texts, List.forall_mem_append, List.forall_mem_singleton, isText_toValue]
    · rw [Value.lookup?, Value.isSome_get?_text, Value.mem_keys_set_text, ← Value.isSome_get?_text,
        ← Value.lookup?, ih.endpoint, toValue_eq_text]
      simp only [List.mem_append, List.mem_singleton, or_and_right, exists_or, exists_eq_left]

theorem tabulated_toEntries (members : List (String × Json)) :
    Tabulated (members.map fun member => (text member.1, member.2)) (toEntries members) := by
  constructor
  · simp only [toEntries_eq_map, List.map_map, List.forall_mem_map]
    exact ⟨fun _ _ _ => rfl, fun _ _ _ => rfl⟩
  · rw [Value.lookup?, Value.isSome_get?_text, toEntries_eq_map, List.map_map]
    simp only [List.mem_map, Function.comp_apply, Value.text.injEq, Json.text.injEq,
      exists_exists_and_eq_and]

theorem tableOf_of_isFalse {document : Json} (none : document.isFalse = true) :
    Source.tableOf document = .ok [] := by
  rw [Source.tableOf, isTrue_toValue, none]
  rfl

theorem tableOf_of_not_isFalse {document : Json} (some : document.isFalse = false) :
    Source.tableOf document = document.toValue.toTable := by
  rw [Source.tableOf, isTrue_toValue, some]
  rfl

/-- What has no items has no settings either. -/
theorem tableOf_scalar (document : Json) (other : document.toValue.items? = none)
    (read : document.settings? = if document.isFalse then .ok [] else .error .type) :
    match document.settings? with
    | .ok settings => ∃ table, Source.tableOf document = .ok table ∧ Tabulated settings table
    | .error condition => ∃ why, Source.tableOf document = .error (.misuse condition why) := by
  rw [read]
  cases none : document.isFalse with
  | true => exact ⟨[], tableOf_of_isFalse none, tabulated_ofList []⟩
  | false =>
    have noMap (entries : List (Value × Value)) : document.toValue ≠ .map entries := by
      intro same
      rw [same] at other
      cases other
    rw [tableOf_of_not_isFalse none, Value.toTable, Value.items, other]
    · exact ⟨_, rfl⟩
    · exact noMap

/-- Reading a document gives the settings that it stands for, or fails with the condition. -/
theorem tableOf_eq (document : Json) :
    match document.settings? with
    | .ok settings => ∃ table, Source.tableOf document = .ok table ∧ Tabulated settings table
    | .error condition => ∃ why, Source.tableOf document = .error (.misuse condition why) := by
  cases document with
  | object members =>
    refine ⟨toEntries members, ?_, tabulated_toEntries members⟩
    cases members with
    | nil => exact tableOf_of_isFalse rfl
    | cons member members => exact tableOf_of_not_isFalse rfl
  | array items =>
    have read : Source.tableOf (.array items) = Value.setPairs [] 0 (items.map toValue) := by
      rw [← toValues_eq_map]
      cases items with
      | nil => exact tableOf_of_isFalse rfl
      | cons item items => exact tableOf_of_not_isFalse rfl
    have pairs := setPairs_toValue items [] 0
    rw [settings?, read]
    cases parts : items.mapM toSetting with
    | error condition => rwa [parts] at pairs
    | ok settings =>
      rw [parts] at pairs
      exact ⟨_, pairs, tabulated_ofList settings⟩
  | text s =>
    rw [settings?]
    cases none : s.isEmpty with
    | true => exact ⟨[], tableOf_of_isFalse none, tabulated_ofList []⟩
    | false =>
      obtain ⟨c, cs, characters⟩ : ∃ c cs, s.toList = c :: cs :=
        List.exists_cons_of_ne_nil fun empty => by simp [String.toList_eq_nil_iff.mp empty] at none
      have single : toSetting (.text (String.singleton c)) = .error .value := by
        simp [toSetting, parts?]
      have read : Source.tableOf (.text s) = Value.setPairs [] 0
          ((s.toList.map fun c => Json.text (String.singleton c)).map toValue) := by
        rw [List.map_map]
        exact tableOf_of_not_isFalse none
      have pairs := setPairs_toValue (s.toList.map fun c => Json.text (String.singleton c)) [] 0
      rw [read]
      simp only [characters, List.map_cons, List.mapM_cons, single] at pairs ⊢
      exact pairs
  | null => exact tableOf_scalar .null rfl rfl
  | bool b => exact tableOf_scalar (.bool b) rfl rfl
  | int n => exact tableOf_scalar (.int n) rfl rfl
  | float x => exact tableOf_scalar (.float x) rfl rfl

end Json

end GraphClient
