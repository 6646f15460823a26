import GraphClient.Proofs.Settings.Documents
import GraphClient.Proofs.Settings.Sources

/-!
# How reading a file of settings can end

A file may hold anything, and `Source.contentOf` says what its bytes are.

* `Json.Escapes`: the documents that end in an error about a type, which is none about a value.
* `Environment.texts_tables`, `Environment.isSome_endpoint_tables`: what an environment adds to the
  names of the settings of a file.
* `Settings.load_content`: all other contents end in settings or in an error about a value; and
  which ones are reported as a file that cannot be read.
-/

namespace GraphClient

/-! ## Errors about values -/

/-- Conditions that are about values, or refine that condition. -/
def Condition.isOfValue : Condition → Bool
  | .value | .badEncoding => true
  | _ => false

/-- Errors about values. Violations of the rules for settings are such errors. -/
def Failure.isOfValue : Failure → Bool
  | .complaint c => c.condition.isOfValue
  | .misuse condition _ | .fault (.general condition _) => condition.isOfValue
  | .invalid _ => true
  | _ => false

/-- A document that ends in an error about a type: because of a part that can be no setting, or of
a name that is no text, if there is an endpoint. -/
def Json.Escapes (env : Environment) (document : Json) : Prop :=
  match document.settings? with
  | .error condition => condition = .type
  | .ok settings => (∃ setting ∈ settings, setting.1.isText = false) ∧
      ((∃ setting ∈ settings, setting.1 = .text "endpoint") ∨
        (Pairs.get? Variable.endpoint.name env).isSome)

/-! ## Settings laid over those of a file -/

theorem Merge.texts_puts {settings : List (List Value × Value)} {table : List (Value × Value)}
    (named : ∀ setting ∈ settings, Named setting.1) (texts : ∀ k ∈ table.map Prod.fst, k.isText) :
    ∀ k ∈ (puts settings table).map Prod.fst, k.isText := by
  induction settings generalizing table with
  | nil => exact texts
  | cons setting settings ih =>
    obtain ⟨⟨some, names⟩, named⟩ := List.forall_mem_cons.mp named
    refine ih named ?_
    obtain ⟨p, v⟩ := setting
    have first (k : Value) (mem : k ∈ p) : k.isText := by
      obtain ⟨s, rfl⟩ := names k mem
      rfl
    match p with
    | [k] => exact Value.texts_set.mpr ⟨texts, first k List.mem_cons_self⟩
    | k :: _ :: _ => exact Value.texts_set.mpr ⟨texts, first k List.mem_cons_self⟩

namespace Environment

variable {env : Environment}

theorem distinct_settings (env : Environment) :
    env.settings.Pairwise fun setting setting' => (setting.1 == setting'.1) = false :=
  settings_eq env ▸ (tidy_allGiven env).proper_puts.entries.1

/-- All names of settings of an environment are texts. -/
theorem texts_settings (env : Environment) : ∀ k ∈ env.settings.map Prod.fst, k.isText := by
  rw [settings_eq]
  exact Merge.texts_puts (tidy_allGiven env).named nofun

/-- An endpoint in the settings of an environment comes from the variable for it. -/
theorem isSome_endpoint (there : (Value.lookup? "endpoint" env.settings).isSome) :
    (Pairs.get? Variable.endpoint.name env).isSome := by
  obtain ⟨v, found⟩ := Option.isSome_iff_exists.mp there
  have here : (Value.map env.settings).at? [.text "endpoint"] = some v := by
    rw [Value.at?]
    exact Option.bind_eq_some_iff.mpr ⟨v, found, rfl⟩
  have below {p : List Value} {w : Value} (gives : env.Gives p w)
      (front : [.text "endpoint"] <+: p) : (Pairs.get? Variable.endpoint.name env).isSome := by
    have first : p.head? = some (.text "endpoint") := by
      obtain ⟨rest, rfl⟩ := front
      rfl
    cases gives with
    | @own v s set =>
      cases v with
      | endpoint => exact Option.isSome_of_eq_some set
      | _ => exact absurd (Value.text.inj (Option.some.inj first)) (by decide)
    | turnedOn => exact absurd (Value.text.inj (Option.some.inj first)) (by decide)
  rw [settings_eq] at here
  rcases (tidy_allGiven env).cases here with mem | ⟨-, empty | ⟨setting, mem, front⟩⟩
  · exact below (mem_allGiven.mp mem) (List.prefix_refl _)
  · cases empty
  · exact below (mem_allGiven.mp mem) front

theorem texts_tables (file : List (Value × Value)) (env : Environment) :
    (∀ k ∈ (Merge.tables file env.settings).map Prod.fst, k.isText) ↔
      ∀ k ∈ file.map Prod.fst, k.isText := by
  rw [Merge.keys_tables env.distinct_settings, List.forall_mem_append]
  exact and_iff_left fun k mem => env.texts_settings k (List.mem_filter.mp mem).1

theorem isSome_endpoint_tables (file : List (Value × Value)) (env : Environment) :
    (Value.lookup? "endpoint" (Merge.tables file env.settings)).isSome ↔
      (Value.lookup? "endpoint" file).isSome ∨ (Pairs.get? Variable.endpoint.name env).isSome := by
  refine ⟨fun there => ?_, lookup?_endpoint⟩
  rw [Value.lookup?, Merge.get?_tables env.distinct_settings] at there
  split at there
  · rename_i found
    exact .inr (isSome_endpoint (Option.isSome_of_eq_some found))
  · exact .inl there

end Environment

/-! ## Contents of files -/

namespace Source

/-- What the bytes of a file are. -/
inductive Content where
  | notText
  | notJson
  /-- A text with an integer that has that many digits, too many to be converted. -/
  | longInteger (digits : Nat)
  | document (document : Json)

/-- The document that a file holds, if it holds one. -/
def contentOf (bytes : List UInt8) : Content :=
  match String.fromUTF8? ⟨bytes.toArray⟩ with
  | none => .notText
  | some text =>
    match Json.load text with
    | .error .malformed => .notJson
    | .error (.tooManyDigits digits) => .longInteger digits
    | .ok document => .document document

/-- Paths with the ending of files that are read. -/
def IsJson (path : String) : Prop := (Path.suffix path).toList.map Char.toLower = ".json".toList

/-- The settings of the chosen file are those of the document that it holds. -/
theorem fileTable_content {files : FileTree} {path : Option String} {place : String}
    {bytes : List UInt8} (chosen : choose files path = some (place, .file bytes))
    (json : IsJson place) : fileTable files path =
      match contentOf bytes with
      | .notText => .error (.misuse .badEncoding "the file is not UTF-8")
      | .notJson => .error (.complaint (.unreadableFile place .malformedJson))
      | .longInteger digits => .error (.integerNotRead digits)
      | .document document => tableOf document := by
  unfold IsJson at json
  simp only [fileTable, chosen, parse, json, ne_eq, not_true_eq_false, if_false, contentOf]
  cases String.fromUTF8? ⟨bytes.toArray⟩ with
  | none => rfl
  | some text =>
    simp only
    cases Json.load text with
    | error refusal => cases refusal <;> rfl
    | ok document => rfl

end Source

namespace Settings

variable {files : FileTree} {path : Option String} {place : String} {bytes : List UInt8}
  {env : Environment} {document : Json}

/-- Settings made from named values are checked, unless a name is no text. -/
theorem construct_eq {α : Type} (check : Value → Except (List Violation) α)
    (entries : List (Value × Value)) : construct check entries =
      if ∀ k ∈ entries.map Prod.fst, k.isText then (check (.map entries)).mapError .invalid
      else .error (.misuse .type "keywords must be strings") := by
  unfold construct
  split
  · rename_i all
    have names : ∀ k ∈ entries.map Prod.fst, k.isText := List.forall_mem_map.mpr fun entry mem => by
      have text := List.all_eq_true.mp all entry mem
      obtain ⟨k, v⟩ := entry
      cases k <;> exact text
    rw [if_pos names]
    cases check (.map entries) <;> rfl
  · rename_i other
    rw [if_neg fun names => other (List.all_eq_true.mpr fun entry mem => ?_)]
    have text := names entry.1 (List.mem_map_of_mem mem)
    obtain ⟨k, v⟩ := entry
    cases k <;> exact text

/-- Settings are made from the settings of a file and an environment, if there is an endpoint, and
unless a name is no text. -/
theorem load_of_fileTable {file : List (Value × Value)}
    (read : Source.fileTable files path = .ok file) : load files env path =
      if (Value.lookup? "endpoint" file).isSome ∨ (Pairs.get? Variable.endpoint.name env).isSome then
        if ∀ k ∈ file.map Prod.fst, k.isText then
          (ClientSettings.check (.map (Merge.tables file env.settings))).mapError .invalid
        else .error (.misuse .type "keywords must be strings")
      else .error (.complaint .noEndpoint) := by
  have table : Source.table files env path = .ok (Merge.tables file env.settings) := by
    rw [Source.table, read]
    rfl
  rw [load, table]
  simp only [construct_eq, Environment.texts_tables, ← Environment.isSome_endpoint_tables]
  cases Value.lookup? "endpoint" (Merge.tables file env.settings) <;> rfl

/-- Reading fails as the document does. -/
theorem load_of_fileTable_error {e : Failure} (failed : Source.fileTable files path = .error e)
    (env : Environment) : load files env path = .error e := by
  rw [load, Source.table, failed]
  rfl

theorem load_of_escapes (read : Source.fileTable files path = Source.tableOf document)
    (escapes : document.Escapes env) : ∃ why, load files env path = .error (.misuse .type why) := by
  have table := Json.tableOf_eq document
  unfold Json.Escapes at escapes
  cases settings : document.settings? with
  | error condition =>
    rw [settings] at table escapes
    obtain ⟨why, failed⟩ := table
    exact ⟨why, escapes ▸ load_of_fileTable_error (read.trans failed) env⟩
  | ok settings =>
    rw [settings] at table escapes
    obtain ⟨file, made, tabulated⟩ := table
    obtain ⟨⟨setting, mem, noText⟩, endpoint⟩ := escapes
    have texts : ¬∀ k ∈ file.map Prod.fst, k.isText := fun texts => by
      rw [tabulated.texts.mp texts setting mem] at noText
      cases noText
    rw [load_of_fileTable (read.trans made), if_pos (endpoint.imp_left tabulated.endpoint.mpr),
      if_neg texts]
    exact ⟨_, rfl⟩

theorem load_of_not_escapes (read : Source.fileTable files path = Source.tableOf document)
    (settles : ¬document.Escapes env) {e : Failure} (failed : load files env path = .error e) :
    e.isOfValue ∧ ∀ place reason, e ≠ .complaint (.unreadableFile place reason) := by
  have table := Json.tableOf_eq document
  unfold Json.Escapes at settles
  cases settings : document.settings? with
  | error condition =>
    rw [settings] at table settles
    obtain ⟨why, failed'⟩ := table
    rw [load_of_fileTable_error (read.trans failed')] at failed
    cases failed
    obtain rfl := (Json.settings?_error settings).resolve_right settles
    exact ⟨rfl, nofun⟩
  | ok settings =>
    rw [settings] at table settles
    obtain ⟨file, made, tabulated⟩ := table
    rw [load_of_fileTable (read.trans made)] at failed
    split at failed
    · rename_i endpoint
      split at failed
      · cases checked : ClientSettings.check (.map (Merge.tables file env.settings)) with
        | error violations =>
          rw [checked] at failed
          cases failed
          exact ⟨rfl, nofun⟩
        | ok settings =>
          rw [checked] at failed
          cases failed
      · rename_i texts
        refine absurd ⟨?_, endpoint.imp_left tabulated.endpoint.mp⟩ settles
        by_contra all
        exact texts (tabulated.texts.mpr fun setting mem => by_contra fun noText =>
          all ⟨setting, mem, Bool.eq_false_iff.mpr noText⟩)
    · cases failed
      exact ⟨rfl, nofun⟩

/-- **Contents of a file of settings.** Whatever a file holds, reading it gives settings or an error
about a value, except for the documents that end in an error about a type. The file is reported as
one that cannot be read exactly if it holds a text that is no document: any document is taken for
settings, and what is no text at all, or has an integer too long to be converted, is an error of its
own. -/
theorem load_content (chosen : Source.choose files path = some (place, .file bytes))
    (json : Source.IsJson place) (env : Environment) :
    ((∀ e, load files env path = .error e → e.isOfValue) ↔
      ¬∃ document, Source.contentOf bytes = .document document ∧ document.Escapes env) ∧
    ((∃ reason, load files env path = .error (.complaint (.unreadableFile place reason))) ↔
      Source.contentOf bytes = .notJson) ∧
    (Source.contentOf bytes = .notText →
      ∃ why, load files env path = .error (.misuse .badEncoding why)) ∧
    (∀ digits, Source.contentOf bytes = .longInteger digits →
      ∃ why, load files env path = .error (.misuse .value why)) ∧
    ∀ document, Source.contentOf bytes = .document document → document.Escapes env →
      ∃ why, load files env path = .error (.misuse .type why) := by
  have read := Source.fileTable_content chosen json
  cases content : Source.contentOf bytes with
  | notText =>
    have failed := load_of_fileTable_error (content ▸ read) env
    refine ⟨⟨nofun, fun _ e failed' => ?_⟩, ⟨?_, nofun⟩, fun _ => ⟨_, failed⟩, nofun, nofun⟩
    · cases failed.symm.trans failed'
      rfl
    · rintro ⟨reason, failed'⟩
      cases failed.symm.trans failed'
  | longInteger digits =>
    have failed := load_of_fileTable_error (content ▸ read) env
    refine ⟨⟨nofun, fun _ e failed' => ?_⟩, ⟨?_, nofun⟩, nofun, fun _ _ => ⟨_, failed⟩, nofun⟩
    · cases failed.symm.trans failed'
      rfl
    · rintro ⟨reason, failed'⟩
      cases failed.symm.trans failed'
  | notJson =>
    have failed := load_of_fileTable_error (content ▸ read) env
    refine ⟨⟨nofun, fun _ e failed' => ?_⟩, ⟨fun _ => rfl, fun _ => ⟨_, failed⟩⟩, nofun, nofun,
      nofun⟩
    cases failed.symm.trans failed'
    rfl
  | document document =>
    have read : Source.fileTable files path = Source.tableOf document := by rw [read, content]
    refine ⟨⟨?_, fun settles e failed => ?_⟩, ⟨?_, nofun⟩, nofun, nofun, ?_⟩
    · rintro values ⟨_, ⟨⟩, escapes⟩
      obtain ⟨why, failed⟩ := load_of_escapes read escapes
      cases values _ failed
    · have settles : ¬document.Escapes env := fun escapes => settles ⟨_, rfl, escapes⟩
      exact (load_of_not_escapes read settles failed).1
    · rintro ⟨reason, failed⟩
      by_cases escapes : document.Escapes env
      · obtain ⟨why, failed'⟩ := load_of_escapes read escapes
        cases failed.symm.trans failed'
      · exact absurd rfl ((load_of_not_escapes read escapes failed).2 place reason)
    · rintro _ ⟨⟩ escapes
      exact load_of_escapes read escapes

/-- A file with the given bytes where it is looked for first. -/
def filesOf (bytes : List UInt8) : FileTree := ⟨[(⟨.working, ["gql_fetch.json"]⟩, .file bytes)]⟩

theorem choose_filesOf (bytes : List UInt8) :
    Source.choose (filesOf bytes) none = some ("gql_fetch.json", .file bytes) := rfl

theorem load_content_notText :
    Source.choose (filesOf [0xff, 0xfe]) none = some ("gql_fetch.json", .file [0xff, 0xfe]) ∧
      Source.IsJson "gql_fetch.json" ∧
      (∃ why, load (filesOf [0xff, 0xfe]) [] none = .error (.misuse .badEncoding why)) ∧
      ¬∃ reason, load (filesOf [0xff, 0xfe]) [] none =
        .error (.complaint (.unreadableFile "gql_fetch.json" reason)) := by
  have chosen := choose_filesOf [0xff, 0xfe]
  have json : Source.IsJson "gql_fetch.json" := by
    unfold Source.IsJson
    decide
  have content : Source.contentOf [0xff, 0xfe] = .notText := by
    cbv
  obtain ⟨-, reported, notText, -⟩ := load_content chosen json []
  refine ⟨chosen, json, notText content, fun failed => ?_⟩
  cases content.symm.trans (reported.mp failed)

/-- A file that holds the text of such a document ends in an error about a type. -/
theorem load_text_escapes {s : String} (read : Json.load s = .ok document) (env : Environment)
    (escapes : document.Escapes env) :
    ∃ why, load (filesOf s.toUTF8.data.toList) env none = .error (.misuse .type why) := by
  refine load_of_escapes ?_ escapes
  rw [Source.fileTable, choose_filesOf]
  simp only [Source.parse_text read]
  rfl

/-- A file that holds a number does so. -/
theorem load_number_escapes : ∃ s e, Json.load s = .ok (.int 5) ∧
    load (filesOf s.toUTF8.data.toList) [] none = .error e ∧ e.isOfValue = false := by
  have read : Json.load "5" = .ok (.int 5) := rfl
  obtain ⟨why, failed⟩ := load_text_escapes read [] rfl
  exact ⟨"5", _, read, failed, rfl⟩

end Settings

end GraphClient
