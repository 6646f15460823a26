import Mathlib.Data.List.Flatten
import GraphClient.Proofs.Json.RoundTrip
import GraphClient.Proofs.Settings.Assignment
import GraphClient.Settings.Source

/-!
# The settings of a file and an environment

* `Environment.Gives`: an environment gives the settings of the variables that are set in it, and
  nothing else (`Environment.mem_allGiven`, `Environment.exists_group`).
* `Combined`, `combined_settings`: what laying these over the settings of a file comes to.
* `Settings.load_file`: a client is made from exactly those settings.
-/

namespace GraphClient

open Value

namespace Variable

/-- The names on the way to the settings that a variable gives. A log file is turned on, too. -/
def names (v : Variable) : List (List String) :=
  (v.group?.toList ++ [v.setting]) ::
    if v = .logFile then [["logging", "enable_file"]] else []

/-- The path of the setting that a variable gives. -/
def path (v : Variable) : List Value := (v.group?.toList ++ [v.setting]).map text

theorem mem_all (v : Variable) : v ∈ all := by
  cases v <;> decide

/-- No setting is on the way to another one. -/
theorem names_apart : (all.flatMap names).Pairwise fun p q => ¬ p <+: q ∧ ¬ q <+: p := by
  decide

theorem names_ne_nil (v : Variable) : ∀ p ∈ names v, p ≠ [] := by
  cases v <;> decide

end Variable

namespace Environment

/-- An environment gives a setting a value: that of the variable for it, or the turning on of a log
file that is named. -/
inductive Gives (env : Environment) : List Value → Value → Prop where
  | own {v : Variable} {s : String} (set : Pairs.get? v.name env = some s) :
      Gives env v.path (valueOf v s)
  | turnedOn {s : String} (set : Pairs.get? Variable.logFile.name env = some s) :
      Gives env [text "logging", text "enable_file"] (bool true)

/-- The settings that a variable gives if it is set. -/
def given (v : Variable) (s : String) : List (List Value × Value) :=
  (v.path, valueOf v s) ::
    if v = .logFile then [([text "logging", text "enable_file"], bool true)] else []

/-- All settings that an environment gives, in order. -/
def allGiven (env : Environment) : List (List Value × Value) :=
  Variable.all.flatMap fun v => ((Pairs.get? v.name env).map (given v)).getD []

variable {env : Environment} {p : List Value} {w : Value}

theorem addVariable_eq (table : List (Value × Value)) (v : Variable) :
    addVariable env table v =
      Merge.puts (((Pairs.get? v.name env).map (given v)).getD []) table := by
  unfold addVariable
  cases Pairs.get? v.name env with
  | none => rfl
  | some s => cases v <;> rfl

theorem settings_eq (env : Environment) : settings env = Merge.puts (allGiven env) [] := by
  rw [settings, allGiven, Merge.puts, List.foldl_flatMap]
  exact congrArg (List.foldl · [] _) (funext fun table => funext fun v => addVariable_eq table v)

theorem mem_allGiven : (p, w) ∈ allGiven env ↔ env.Gives p w := by
  constructor
  · intro mem
    obtain ⟨v, -, mem⟩ := List.mem_flatMap.mp mem
    cases set : Pairs.get? v.name env with
    | none => rw [set] at mem; cases mem
    | some s =>
      rw [set] at mem
      rcases List.mem_cons.mp mem with here | on
      · obtain ⟨rfl, rfl⟩ := Prod.mk.inj here
        exact .own set
      · split at on
        · rename_i file
          obtain ⟨rfl, rfl⟩ := Prod.mk.inj (List.mem_singleton.mp on)
          exact .turnedOn (file ▸ set)
        · cases on
  · intro gives
    cases gives with
    | @own v s set =>
      refine List.mem_flatMap.mpr ⟨v, v.mem_all, ?_⟩
      rw [set]
      exact List.mem_cons_self
    | turnedOn set =>
      refine List.mem_flatMap.mpr ⟨.logFile, Variable.mem_all _, ?_⟩
      rw [set]
      exact List.mem_cons_of_mem _ List.mem_cons_self

theorem isMap_valueOf (v : Variable) (s : String) : (valueOf v s).isMap = false := by
  have number (o : Option Value) (single : ∀ w, o = some w → w.isMap = false) :
      (o.getD (text s)).isMap = false := by
    cases o with
    | none => rfl
    | some w => exact single w rfl
  unfold valueOf convert
  split
  · rfl
  split
  · rfl
  · refine number _ fun w found => ?_
    unfold number? at found
    split at found <;>
    · obtain ⟨x, -, rfl⟩ := Option.map_eq_some_iff.mp found
      rfl

/-- The paths of what is given, by name. -/
theorem paths_allGiven (env : Environment) : ((allGiven env).map Prod.fst).Sublist
    ((Variable.all.flatMap Variable.names).map (List.map text)) := by
  rw [allGiven, List.map_flatMap, List.map_flatMap]
  refine List.Sublist.flatMap_right _ fun v _ => ?_
  cases Pairs.get? v.name env with
  | none => exact List.nil_sublist _
  | some s => cases v <;> exact List.Sublist.refl _

/-- What an environment gives is no map. -/
theorem Gives.single (gives : env.Gives p w) : w.isMap = false := by
  cases gives with
  | own => exact isMap_valueOf _ _
  | turnedOn => rfl

theorem Gives.length_le (gives : env.Gives p w) : p.length ≤ 2 := by
  cases gives with
  | @own v => cases v <;> decide
  | turnedOn => exact Nat.le_refl 2

theorem tidy_allGiven (env : Environment) : Merge.Tidy (allGiven env) where
  named setting mem := by
    have listed := (paths_allGiven env).subset (List.mem_map_of_mem mem)
    obtain ⟨names, mem, same⟩ := List.mem_map.mp listed
    obtain ⟨v, -, mem⟩ := List.mem_flatMap.mp mem
    rw [← same]
    refine ⟨fun empty => v.names_ne_nil _ mem (List.map_eq_nil_iff.mp empty), fun k mem => ?_⟩
    obtain ⟨s, -, rfl⟩ := List.mem_map.mp mem
    exact ⟨s, rfl⟩
  single setting mem := (mem_allGiven.mp mem).single
  apart := by
    have injective : Function.Injective text := fun _ _ same => Value.text.inj same
    have separate {p q : List String} (apart : ¬ p <+: q ∧ ¬ q <+: p) :
        Merge.Separate (p.map text) (q.map text) :=
      ⟨fun front => apart.1 ((List.prefix_map_iff_of_injective injective).mp front),
        fun front => apart.2 ((List.prefix_map_iff_of_injective injective).mp front)⟩
    have paths := List.pairwise_map.mpr (Variable.names_apart.imp separate)
    exact List.pairwise_map.mp (paths.sublist (paths_allGiven env))

/-- What an environment has in a group. -/
theorem at?_settings {group name w : Value} :
    (map (settings env)).at? [group, name] = some w ↔ env.Gives [group, name] w := by
  have tidy := tidy_allGiven env
  rw [settings_eq]
  constructor
  · intro here
    rcases tidy.cases here with mem | ⟨isMap, empty | ⟨⟨p, w'⟩, mem, front⟩⟩
    · exact mem_allGiven.mp mem
    · cases empty
    · -- A path to a setting is not longer than this one.
      have gives := mem_allGiven.mp mem
      obtain rfl : [group, name] = p := front.eq_of_length_le gives.length_le
      rw [tidy.at?_puts mem] at here
      rw [← Option.some.inj here, gives.single] at isMap
      cases isMap
  · intro gives
    exact tidy.at?_puts (mem_allGiven.mpr gives)

/-- The members of a group are the settings that are given in it. -/
theorem exists_group {group name : Value} (gives : env.Gives [group, name] w) :
    ∃ members, (map (settings env)).at? [group] = some (map members) ∧
      ∀ name w, Pairs.get? name members = some w ↔ env.Gives [group, name] w := by
  have tidy := tidy_allGiven env
  have there := tidy.at?_puts (mem_allGiven.mpr gives)
  rw [← settings_eq, at?] at there
  obtain ⟨u, found, below⟩ := Option.bind_eq_some_iff.mp there
  obtain ⟨members, rfl⟩ : ∃ members, u = map members := exists_of_isMap <| by
    by_contra single
    rw [at?_of_not_map (Bool.eq_false_iff.mpr single)] at below
    cases below
  have within (name : Value) : (map (settings env)).at? [group, name] = Pairs.get? name members := by
    rw [at?, found, Option.bind_some, at?]
    exact Option.bind_fun_some _
  refine ⟨members, by rw [at?, found]; rfl, fun name w => ?_⟩
  rw [← within, at?_settings]

/-- The settings of an environment depend on the seven variables only. -/
theorem settings_congr {env' : Environment}
    (same : ∀ v : Variable, Pairs.get? v.name env' = Pairs.get? v.name env) :
    settings env' = settings env := by
  rw [settings_eq, settings_eq, allGiven, allGiven]
  simp only [same]

end Environment

/-- The settings of a client, when a file has the settings `file`: where the environment gives
a setting it counts, and the settings of the file are kept where no path to or from one that is given
leads. A setting of the file in the place of a group makes way for the environment's group. There is
nothing else. -/
structure Combined (file : List (Value × Value)) (env : Environment)
    (entries : List (Value × Value)) : Prop where
  given : ∀ {p v}, env.Gives p v → (map entries).at? p = some v
  kept : ∀ {p}, (∀ q v, env.Gives q v → Merge.Separate p q) →
    (map entries).at? p = (map file).at? p
  replaced : ∀ {group name v}, env.Gives [group, name] v →
    (∀ old, (map file).at? [group] = some old → old.isMap = false) →
    ∃ members, (map entries).at? [group] = some (map members) ∧
      ∀ name v, Pairs.get? name members = some v ↔ env.Gives [group, name] v
  nothingElse : ∀ {p v}, (map entries).at? p = some v → v.isMap = false →
    env.Gives p v ∨ (map file).at? p = some v

theorem combined_settings (file : List (Value × Value)) (env : Environment) :
    Combined file env (Merge.tables file env.settings) := by
  have tidy := Environment.tidy_allGiven env
  refine ⟨fun gives => ?_, fun separate => ?_, fun gives other => ?_, fun found single => ?_⟩
  · rw [Environment.settings_eq]
    exact tidy.at?_tables_given (Environment.mem_allGiven.mpr gives) file
  · rw [Environment.settings_eq]
    exact tidy.at?_tables_kept fun setting mem =>
      separate _ _ (Environment.mem_allGiven.mp mem)
  · obtain ⟨members, there, inside⟩ := Environment.exists_group gives
    rw [Environment.settings_eq] at there ⊢
    exact ⟨members, tidy.at?_tables_replaced there other, inside⟩
  · rw [Environment.settings_eq] at found
    exact (tidy.at?_tables_cases single found).imp_left Environment.mem_allGiven.mp

theorem Source.table_of_object {files : FileTree} {path : Option String} {place : String}
    {node : FileNode} {members : List (String × Json)} (chosen : choose files path = some (place, node))
    (parsed : parse place node = .ok (.object members)) (env : Environment) :
    table files env path = .ok (Merge.tables (Json.toEntries members) env.settings) := by
  have toValue : (Json.object members).toValue = map (Json.toEntries members) := by
    rw [Json.toValue]
  have file : tableOf (.object members) = .ok (Json.toEntries members) := by
    rw [tableOf, toValue, Value.toTable]
    cases Json.toEntries members <;> rfl
  simp only [table, fileTable, chosen, parsed, Except.bind, file, Except.map]

/-- An endpoint of the file, or one of the environment, is an endpoint of both. -/
theorem lookup?_endpoint {file : List (Value × Value)} {env : Environment}
    (endpoint : (Value.lookup? "endpoint" file).isSome ∨
      (Pairs.get? Variable.endpoint.name env).isSome) :
    (Value.lookup? "endpoint" (Merge.tables file env.settings)).isSome := by
  have tidy := Environment.tidy_allGiven env
  rw [Value.lookup?, Merge.get?_tables (Environment.settings_eq env ▸ tidy.proper_puts.entries.1)]
  cases found : Pairs.get? (text "endpoint") env.settings with
  | some v => rfl
  | none =>
    rcases endpoint with endpoint | endpoint
    · exact endpoint
    · obtain ⟨s, set⟩ := Option.isSome_iff_exists.mp endpoint
      have there := tidy.at?_puts (Environment.mem_allGiven.mpr (.own set))
      rw [← Environment.settings_eq] at there
      obtain ⟨v, found', -⟩ := Option.bind_eq_some_iff.mp there
      cases found.symm.trans found'

variable {files : FileTree} {path : Option String} {place : String} {node : FileNode}
  {members : List (String × Json)} {env : Environment}

/-- The settings of a client from a file that holds an object, with an endpoint there or in the
environment: they are made from those of the file and of the environment, of which nothing counts
but the seven variables. And how maps are laid over one another in general. -/
theorem Settings.load_file (chosen : Source.choose files path = some (place, node))
    (parsed : Source.parse place node = .ok (.object members))
    (endpoint : (Value.lookup? "endpoint" (Json.toEntries members)).isSome ∨
      (Pairs.get? Variable.endpoint.name env).isSome)
    {base changes : List (Value × Value)} (proper : Proper (map changes)) :
    (∃ entries, Source.table files env path = .ok entries ∧
      Settings.load files env path = Settings.construct ClientSettings.check entries ∧
      Combined (Json.toEntries members) env entries) ∧
    (∀ env' : Environment, (∀ v : Variable, Pairs.get? v.name env' = Pairs.get? v.name env) →
      Source.table files env' path = Source.table files env path ∧
        Settings.load files env' path = Settings.load files env path) ∧
    ∃ merged, (map base).mergedWith (map changes) = .ok (map merged) ∧
      Merge.Law base changes merged := by
  have table := Source.table_of_object chosen parsed env
  refine ⟨⟨_, table, ?_, combined_settings _ env⟩, fun env' same => ?_, _, rfl, Merge.law proper⟩
  · have there := Option.isSome_iff_ne_none.mp (lookup?_endpoint endpoint)
    rw [Settings.load, table]
    simp only [Option.isNone_iff_eq_none, there, if_false]
  · have tables : Source.table files env' path = Source.table files env path := by
      rw [Source.table, Source.table, Environment.settings_congr same]
    exact ⟨tables, by rw [Settings.load, Settings.load, tables]⟩

/-- A file that holds a text is read as the document of the text. -/
theorem Source.parse_text {s : String} {document : Json} (read : Json.load s = .ok document) :
    parse "gql_fetch.json" (.file s.toUTF8.data.toList) = .ok document := by
  have decoded : String.fromUTF8? ⟨s.toUTF8.data.toList.toArray⟩ = some s := dif_pos s.isValidUTF8
  have ending : Path.suffix "gql_fetch.json" = ".json" := by decide
  have letters : ".json".toList.map Char.toLower = ".json".toList := by decide
  simp only [parse, ending, letters, decoded, read, ne_eq, not_true_eq_false, if_false]

/-- A file with an endpoint, no settings of the transport, and settings of the log. -/
def sampleDocument : List (String × Json) :=
  [("endpoint", .text "http://a"), ("transport", .null),
    ("logging", .object [("level", .text "DEBUG"), ("enable_file", .bool false)])]

def sampleFiles : FileTree :=
  ⟨[(⟨.working, ["gql_fetch.json"]⟩,
    .file (Json.write .unicode (.object sampleDocument)).toUTF8.data.toList)]⟩

def sampleEnvironment : Environment :=
  [("GQL_FETCH_TIMEOUT", "5"), ("GQL_FETCH_LOG_FILE", "off"), ("HOME", "/")]

theorem sample_load :
    (∃ entries, Settings.load sampleFiles sampleEnvironment none =
        Settings.construct ClientSettings.check entries ∧
      (map entries).at? [text "transport", text "timeout"] = some (int 5) ∧
      (map entries).at? [text "logging", text "file_path"] = some (text "off") ∧
      (map entries).at? [text "logging", text "enable_file"] = some (bool true)) ∧
    ∃ merged, (map [(int 1, null)]).mergedWith (map [(int 2, null), (bool true, list [])]) =
        .ok (map merged) ∧ (map merged).at? [int 1] = some (list []) := by
  have plain : (Json.object sampleDocument).Plain :=
    .object (by decide) (by simpa [sampleDocument] using
      ⟨.text _, .null, .object (by decide) (by simpa using ⟨.text _, .bool _⟩)⟩)
  have chosen : Source.choose sampleFiles none = some ("gql_fetch.json",
      .file (Json.write .unicode (.object sampleDocument)).toUTF8.data.toList) := rfl
  have parsed := Source.parse_text (Json.load_write plain (by decide +kernel) .unicode)
  have endpoint : (lookup? "endpoint" (Json.toEntries sampleDocument)).isSome := rfl
  have proper : Proper (map [(int 2, null), (bool true, list [])]) :=
    .map (by decide) (by simpa using ⟨.single rfl, .single rfl⟩)
  have timeout : sampleEnvironment.Gives [text "transport", text "timeout"] (int 5) :=
    .own (v := .timeout) (show Pairs.get? _ _ = some "5" by decide)
  have logFile : Pairs.get? Variable.logFile.name sampleEnvironment = some "off" := by decide
  obtain ⟨⟨entries, -, load, combined⟩, -, merged, merge, law⟩ :=
    Settings.load_file chosen parsed (.inl endpoint) proper
  exact ⟨⟨entries, load, combined.given timeout, combined.given (.own logFile),
    combined.given (.turnedOn logFile)⟩, merged, merge, law.replaced rfl rfl⟩

end GraphClient
