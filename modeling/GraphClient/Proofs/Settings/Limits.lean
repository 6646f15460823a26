import GraphClient.Proofs.Settings.Checking
import GraphClient.Proofs.Settings.Numbers
import GraphClient.Proofs.Settings.Reading

/-!
# Limits from the environment

* `Merge.texts_inner_puts`, `Environment.get?_transport`: the settings of the transport that an
  environment gives.
* `Settings.load_set`: setting one of the two variables for a limit assigns what its text is
  converted to.
* `Settings.load_limit`: this is what the text itself would be as a limit, except for the texts that
  the conversion misreads.
-/

namespace GraphClient

open Value

namespace Merge

variable {k : String} {table table' : List (Value × Value)}

/-- The names below a key are texts. -/
theorem texts_inner_puts {settings : List (List Value × Value)}
    (named : ∀ setting ∈ settings, Named setting.1)
    (single : ∀ setting ∈ settings, setting.2.isMap = false)
    (texts : ∀ name ∈ (inner (text k) table).map Prod.fst, name.isText) :
    ∀ name ∈ (inner (text k) (puts settings table)).map Prod.fst, name.isText := by
  induction settings generalizing table with
  | nil => exact texts
  | cons setting settings ih =>
    obtain ⟨path, v⟩ := setting
    obtain ⟨here, later⟩ := List.forall_mem_cons.mp named
    obtain ⟨noMap, single⟩ := List.forall_mem_cons.mp single
    refine ih later single ?_
    obtain ⟨first, p, rfl⟩ := List.exists_cons_of_ne_nil here.1
    obtain ⟨k', rfl⟩ := here.2 first List.mem_cons_self
    by_cases found : k' = k
    · subst found
      rw [inner, get?_put_text]
      cases p with
      | nil =>
        rw [setBelow]
        cases v with
        | map => cases noMap
        | _ => exact List.forall_mem_nil _
      | cons name p =>
        have named' : Named (name :: p) :=
          ⟨List.cons_ne_nil _ _, fun k mem => here.2 k (List.mem_cons_of_mem _ mem)⟩
        have setting : ∀ setting ∈ [(name :: p, v)], Named setting.1 :=
          List.forall_mem_singleton.mpr named'
        exact texts_puts setting texts
    · rw [inner, get?_put_text_of_ne found]
      exact texts

end Merge

/-! ## What setting a limit changes -/

namespace Environment

variable {env : Environment} {v : Variable} {s : String}

/-- The settings of the transport that an environment gives. -/
def transport (env : Environment) : List (Value × Value) :=
  Merge.inner (text "transport") env.settings

theorem distinct_transport (env : Environment) :
    env.transport.Pairwise fun member member' => (member.1 == member'.1) = false := by
  rw [transport, settings_eq]
  exact (Merge.proper_inner (tidy_allGiven env).proper_puts).entries.1

theorem get?_transport {name w : Value} :
    Pairs.get? name env.transport = some w ↔ env.Gives [text "transport", name] w := by
  rw [← at?_settings, ← Merge.at?_inner, at?]
  exact (Option.bind_fun_some _).symm ▸ Iff.rfl

theorem name_injective : Function.Injective Variable.name := by
  intro v v'
  cases v <;> cases v' <;> decide

theorem get?_set_self (env : Environment) (v : Variable) (s : String) :
    Pairs.get? v.name ((v.name, s) :: env) = some s := by
  rw [Pairs.get?, if_pos (beq_self_eq_true _)]

theorem get?_set_of_ne {v' : Variable} (other : v' ≠ v) (s : String) :
    Pairs.get? v'.name ((v.name, s) :: env) = Pairs.get? v'.name env := by
  rw [Pairs.get?, if_neg]
  simpa using fun same => other (name_injective same).symm

/-- Groups that a variable does not belong to stay as they are. -/
theorem get?_settings_set {k : String} (apart : ∀ s, (given v s).filter (Merge.concerns k) = [])
    (s : String) :
    Pairs.get? (text k) (settings ((v.name, s) :: env)) = Pairs.get? (text k) (settings env) := by
  have named (env : Environment) := (tidy_allGiven env).named
  rw [settings_eq, settings_eq, Merge.get?_puts_filter (named _) rfl,
    Merge.get?_puts_filter (named env) rfl]
  have same : (allGiven ((v.name, s) :: env)).filter (Merge.concerns k) =
      (allGiven env).filter (Merge.concerns k) := by
    rw [allGiven, allGiven, List.filter_flatMap, List.filter_flatMap]
    refine List.flatMap_congr fun v' _ => ?_
    by_cases other : v' = v
    · subst other
      rw [get?_set_self]
      cases Pairs.get? v'.name env with
      | none => exact apart s
      | some s' => exact (apart s).trans (apart s').symm
    · rw [get?_set_of_ne other]
  rw [same]

theorem path_injective : Function.Injective Variable.path := by
  intro v v'
  cases v <;> cases v' <;> simp [Variable.path, Variable.group?, Variable.setting]

/-- Setting a limit gives its setting the new value. -/
theorem gives_set_self {w : Value} (limit : v.IsLimit) :
    Gives ((v.name, s) :: env) v.path w ↔ w = valueOf v s := by
  have noFile : v.path ≠ [text "logging", text "enable_file"] := by
    rcases limit with rfl | rfl <;> simp [Variable.path, Variable.group?, Variable.setting]
  constructor
  · generalize same : v.path = p
    rintro (⟨set⟩ | ⟨set⟩)
    · obtain rfl := path_injective same
      rw [get?_set_self] at set
      rw [Option.some.inj set]
    · exact absurd same noFile
  · rintro rfl
    exact .own (get?_set_self env v s)

/-- Setting a limit changes nothing else. -/
theorem gives_set_of_ne {p : List Value} {w : Value} (limit : v.IsLimit) (other : p ≠ v.path) :
    Gives ((v.name, s) :: env) p w ↔ Gives env p w := by
  have noFile : Variable.logFile ≠ v := by
    rcases limit with rfl | rfl <;> decide
  constructor
  · rintro (@⟨v', _, set⟩ | ⟨set⟩)
    · have apart : v' ≠ v := fun same => other (congrArg Variable.path same)
      exact .own (get?_set_of_ne apart s ▸ set)
    · exact .turnedOn (get?_set_of_ne noFile s ▸ set)
  · rintro (@⟨v', _, set⟩ | ⟨set⟩)
    · have apart : v' ≠ v := fun same => other (congrArg Variable.path same)
      exact .own ((get?_set_of_ne apart s).trans set)
    · exact .turnedOn ((get?_set_of_ne noFile s).trans set)

theorem path_of_limit (limit : v.IsLimit) : v.path = [text "transport", text v.setting] := by
  rcases limit with rfl | rfl <;> rfl

theorem get?_transport_self (limit : v.IsLimit) :
    Pairs.get? (text v.setting) (transport ((v.name, s) :: env)) = some (valueOf v s) := by
  rw [get?_transport, ← path_of_limit limit, gives_set_self limit]

theorem get?_transport_of_ne {name : String} (limit : v.IsLimit) (other : name ≠ v.setting) :
    Pairs.get? (text name) (transport ((v.name, s) :: env)) =
      Pairs.get? (text name) (transport env) := by
  refine Option.ext fun w => ?_
  rw [get?_transport, get?_transport, gives_set_of_ne limit]
  rw [path_of_limit limit]
  simpa using other

/-- What an environment has for the transport is a map. -/
theorem get?_settings_transport {u : Value}
    (found : Pairs.get? (text "transport") env.settings = some u) : u = map env.transport := by
  have here : (map env.settings).at? [text "transport"] = some u := by
    rw [at?, found]
    rfl
  have isMap : u.isMap = true := by
    rw [settings_eq] at here
    rcases (tidy_allGiven env).cases here with mem | ⟨isMap, -⟩
    · generalize same : [text "transport"] = p at mem
      rcases mem_allGiven.mp mem with @⟨v, s, -⟩ | ⟨-⟩
      · cases v <;> simp [Variable.path, Variable.group?, Variable.setting] at same
      · simp at same
    · exact isMap
  obtain ⟨entries, rfl⟩ := exists_of_isMap isMap
  rw [transport, Merge.inner, found]

/-- The groups and the single settings that an environment gives are those of a client. -/
theorem names_settings (env : Environment) :
    ∀ k ∈ env.settings.map Prod.fst, ∃ name ∈ ClientSettings.names, k = text name := by
  intro k mem
  obtain ⟨name, rfl⟩ := exists_of_isText (texts_settings env k mem)
  refine ⟨name, ?_, rfl⟩
  by_contra unknown
  have none' : (allGiven env).filter (Merge.concerns name) = [] := by
    rw [allGiven, List.filter_flatMap, List.flatMap_eq_nil_iff]
    intro v _
    cases Pairs.get? v.name env with
    | none => rfl
    | some s =>
      simp only [ClientSettings.names, List.mem_cons, List.not_mem_nil, or_false, not_or] at unknown
      cases v <;> simp [given, Merge.concerns, Variable.path, Variable.group?, Variable.setting,
        Ne.symm unknown.1, Ne.symm unknown.2.2.1, Ne.symm unknown.2.2.2]
  have there := isSome_get?_text.mpr mem
  rw [settings_eq, Merge.get?_puts_filter (tidy_allGiven env).named rfl, none'] at there
  cases there

/-- The settings of the transport that an environment gives are settings of the transport. -/
theorem names_transport (env : Environment) :
    ∀ k ∈ env.transport.map Prod.fst, ∃ name ∈ TransportSettings.names, k = text name := by
  have texts : ∀ k ∈ env.transport.map Prod.fst, k.isText := by
    rw [transport, settings_eq]
    exact Merge.texts_inner_puts (tidy_allGiven env).named (tidy_allGiven env).single
      (List.forall_mem_nil _)
  intro k mem
  obtain ⟨name, rfl⟩ := exists_of_isText (texts k mem)
  refine ⟨name, ?_, rfl⟩
  obtain ⟨w, found⟩ := Option.isSome_iff_exists.mp (isSome_get?_text.mpr mem)
  have gives := get?_transport.mp found
  generalize same : [text "transport", text name] = p at gives
  rcases gives with @⟨v, s, -⟩ | ⟨-⟩
  · cases v <;> simp [Variable.path, Variable.group?, Variable.setting] at same <;> subst same <;>
      decide
  · simp at same

end Environment

theorem TransportSettings.withLimit_injective (v : Variable) (t : TransportSettings) :
    Function.Injective fun x => t.withLimit v x := by
  intro x y equal
  simp only [withLimit] at equal
  split at equal
  · exact congrArg TransportSettings.timeout equal
  · exact congrArg TransportSettings.connectTimeout equal

namespace Settings

variable {files : FileTree} {path : Option String} {env : Environment} {file : List (Value × Value)}
  {c c' : ClientSettings} {v : Variable}

/-- The settings of the transport, of a file and an environment. -/
def transportOf (file : List (Value × Value)) (env : Environment) : List (Value × Value) :=
  Merge.tables (Merge.inner (text "transport") file) env.transport

theorem lookup?_tables (k : String) (file : List (Value × Value)) (env : Environment) :
    Value.lookup? k (Merge.tables file env.settings) = match Pairs.get? (text k) env.settings with
      | some v => some (Merge.onto (Pairs.get? (text k) file) v)
      | none => Pairs.get? (text k) file :=
  Merge.get?_tables env.distinct_settings _

/-- The settings of the transport are made from those of the file and the environment. -/
theorem made_transport (made : ClientSettings.Made (Merge.tables file env.settings) c) :
    TransportSettings.Made (transportOf file env) c.transport := by
  have transport := made.transport
  have there := lookup?_tables "transport" file env
  cases found : Pairs.get? (text "transport") env.settings with
  | some u =>
    obtain rfl := env.get?_settings_transport found
    rw [found] at there
    simp only [Merge.onto_map _ env.distinct_transport] at there
    exact TransportSettings.check_eq_ok.mp ((Checked.gives_field there).mp transport)
  | none =>
    rw [found] at there
    simp only at there
    have nothing : env.transport = [] := by rw [Environment.transport, Merge.inner, found]
    rw [transportOf, nothing, Merge.tables, Merge.inner]
    cases before : Pairs.get? (text "transport") file with
    | none =>
      rw [before] at there
      rw [← (Checked.gives_field_default there).mp transport]
      exact TransportSettings.check_eq_ok.mp rfl
    | some old =>
      rw [before] at there
      have checked := (Checked.gives_field there).mp transport
      cases old with
      | map entries => exact TransportSettings.check_eq_ok.mp checked
      | _ => cases checked

theorem known_tables {names : List String} {base changes : List (Value × Value)}
    (distinct : changes.Pairwise fun change change' => (change.1 == change'.1) = false)
    (named : ∀ k ∈ changes.map Prod.fst, ∃ name ∈ names, k = text name) :
    TransportSettings.extraViolations names (Merge.tables base changes) = [] ↔
      ∀ k ∈ base.map Prod.fst, ∃ name ∈ names, k = text name := by
  rw [TransportSettings.extraViolations_eq_nil, Merge.keys_tables distinct, List.forall_mem_append]
  exact and_iff_left fun k mem => named k (List.mem_filter.mp mem).1

/-- Where a limit is set in the environment, it is assigned. -/
theorem made_set (limit : v.IsLimit) (made : ClientSettings.Made (Merge.tables file env.settings) c)
    (s : String) :
    ClientSettings.Made (Merge.tables file (Environment.settings ((v.name, s) :: env))) c' ↔
      ∃ t, c.transport.assign v.setting (Environment.convert s) = .ok t ∧
        { c with transport := t } = c' := by
  have groups (k : String) (other : k ≠ "transport") (s : String) :
      (Environment.given v s).filter (Merge.concerns k) = [] := by
    rcases limit with rfl | rfl <;>
      simp [Environment.given, Merge.concerns, Variable.path, Variable.group?, other.symm]
  have others (k : String) (other : k ≠ "transport") :
      Value.lookup? k (Merge.tables file (Environment.settings ((v.name, s) :: env))) =
        Value.lookup? k (Merge.tables file env.settings) := by
    rw [lookup?_tables, lookup?_tables, Environment.get?_settings_set (groups k other)]
  have value : Environment.valueOf v s = Environment.convert s := by
    rcases limit with rfl | rfl <;> rfl
  have given : Value.lookup? "transport"
      (Merge.tables file (Environment.settings ((v.name, s) :: env))) =
        some (map (transportOf file ((v.name, s) :: env))) := by
    have gives : Environment.Gives ((v.name, s) :: env) v.path (Environment.valueOf v s) :=
      (Environment.gives_set_self limit).mpr rfl
    rw [Environment.path_of_limit limit] at gives
    obtain ⟨u, found, -⟩ := Option.bind_eq_some_iff.mp (Environment.at?_settings.mpr gives)
    rw [lookup?_tables, found, Environment.get?_settings_transport found]
    exact congrArg some (Merge.onto_map _ (Environment.distinct_transport _))
  have known : TransportSettings.extraViolations ClientSettings.names
      (Merge.tables file (Environment.settings ((v.name, s) :: env))) = [] := by
    rw [known_tables (Environment.distinct_settings _) (Environment.names_settings _),
      ← known_tables env.distinct_settings env.names_settings]
    exact made.known
  have madeBefore := made_transport made
  have known' : TransportSettings.extraViolations TransportSettings.names
      (transportOf file ((v.name, s) :: env)) = [] := by
    rw [transportOf, known_tables (Environment.distinct_transport _)
        (Environment.names_transport _),
      ← known_tables env.distinct_transport env.names_transport]
    exact madeBefore.known
  have others' (name : String) (other : name ≠ v.setting) :
      Value.lookup? name (transportOf file ((v.name, s) :: env)) =
        Value.lookup? name (transportOf file env) := by
    rw [transportOf, transportOf, Value.lookup?, Value.lookup?,
      Merge.get?_tables (Environment.distinct_transport _),
      Merge.get?_tables env.distinct_transport,
      Environment.get?_transport_of_ne limit other]
  have given' : Value.lookup? v.setting (transportOf file ((v.name, s) :: env)) =
      some (Environment.convert s) := by
    rw [transportOf, Value.lookup?, Merge.get?_tables (Environment.distinct_transport _),
      Environment.get?_transport_self limit]
    exact congrArg some ((Merge.onto_of_not_map (Environment.isMap_valueOf v s) _).trans value)
  rw [made.withTransport others given known]
  exact exists_congr fun t => and_congr_left' (madeBefore.assign limit others' given' known')

theorem mapError_eq_ok {ε ε' α : Type} {f : ε → ε'} {x : Except ε α} {a : α} :
    x.mapError f = .ok a ↔ x = .ok a := by
  cases x <;> simp [Except.mapError]

/-- Settings that were read are made from those of the chosen file and of the environment. -/
theorem load_eq_ok : load files env path = .ok c ↔ ∃ file, Source.fileTable files path = .ok file ∧
    ((Value.lookup? "endpoint" file).isSome ∨ (Pairs.get? Variable.endpoint.name env).isSome) ∧
    (∀ k ∈ file.map Prod.fst, k.isText) ∧
    ClientSettings.Made (Merge.tables file env.settings) c := by
  cases read : Source.fileTable files path with
  | error e =>
    rw [load_of_fileTable_error read]
    simp
  | ok file =>
    simp only [Except.ok.injEq, exists_eq_left', load_of_fileTable read,
      ← ClientSettings.check_eq_ok]
    split_ifs with endpoint texts
    · rw [mapError_eq_ok]
      exact ⟨fun checked => ⟨endpoint, texts, checked⟩, fun ⟨_, _, checked⟩ => checked⟩
    · exact ⟨nofun, fun ⟨_, texts', _⟩ => absurd texts' texts⟩
    · exact ⟨nofun, fun ⟨endpoint', _⟩ => absurd endpoint' endpoint⟩

/-- **Limits from the environment.** Where settings are read, setting one of the two variables for a
limit to a text assigns the limit that the text is converted to. -/
theorem load_set (limit : v.IsLimit) (loaded : load files env path = .ok c) (s : String) :
    load files ((v.name, s) :: env) path = .ok c' ↔
      ∃ t, c.transport.assign v.setting (Environment.convert s) = .ok t ∧
        { c with transport := t } = c' := by
  obtain ⟨file, read, endpoint, texts, made⟩ := load_eq_ok.mp loaded
  have other : Variable.endpoint ≠ v := by
    rcases limit with rfl | rfl <;> decide
  rw [← made_set limit made s, load_eq_ok]
  simp only [read, Except.ok.injEq, exists_eq_left', Environment.get?_set_of_ne other]
  exact ⟨fun ⟨_, _, made'⟩ => made', fun made' => ⟨endpoint, texts, made'⟩⟩

/-- Reading settings with one of the two variables for a limit set to a text is the same as
assigning the text to the limit of the settings read before, if and only if the text is none of
those that the conversion misreads: a word for true, a number with digits of another script, or a
whole number beyond the largest double. -/
theorem load_limit (limit : v.IsLimit) (loaded : load files env path = .ok c) (s : String) :
    (∀ c', load files ((v.name, s) :: env) path = .ok c' ↔
      ∃ t, c.transport.assign v.setting (.text s) = .ok t ∧ { c with transport := t } = c') ↔
      ¬Environment.Misread s := by
  have assigned (w : Value) (c' : ClientSettings) :
      (∃ t, c.transport.assign v.setting w = .ok t ∧ { c with transport := t } = c') ↔
        ∃ x, Check.floatFrom 1 w = .ok x ∧
          { c with transport := c.transport.withLimit v x } = c' := by
    simp only [TransportSettings.assign_eq_ok limit]
    constructor
    · rintro ⟨_, ⟨x, accepted, rfl⟩, rfl⟩
      exact ⟨x, accepted, rfl⟩
    · rintro ⟨x, accepted, rfl⟩
      exact ⟨_, ⟨x, accepted, rfl⟩, rfl⟩
  rw [← Environment.agrees_iff]
  simp only [load_set limit loaded, assigned]
  constructor
  · intro same x
    have injective {y : Binary64} (equal : ({ c with transport := c.transport.withLimit v y } :
        ClientSettings) = { c with transport := c.transport.withLimit v x }) : y = x :=
      TransportSettings.withLimit_injective v c.transport (congrArg ClientSettings.transport equal)
    constructor
    · intro accepted
      obtain ⟨y, accepted', equal⟩ := (same _).mp ⟨x, accepted, rfl⟩
      exact injective equal ▸ accepted'
    · intro accepted
      obtain ⟨y, accepted', equal⟩ := (same _).mpr ⟨x, accepted, rfl⟩
      exact injective equal ▸ accepted'
  · intro agrees c'
    exact exists_congr fun x => and_congr_left' (agrees x)

/-- An environment with an endpoint and nothing else. -/
def plainEnvironment : Environment := [(Variable.endpoint.name, "https://x/graphql")]

/-- The settings that it gives. -/
def plainSettings : ClientSettings := ⟨"https://x/graphql", [], .default, .default⟩

theorem settings_plain :
    plainEnvironment.settings = [(text "endpoint", text "https://x/graphql")] := by
  have endpoint :
      Pairs.get? Variable.endpoint.name plainEnvironment = some "https://x/graphql" := rfl
  rw [Environment.settings_eq, Environment.allGiven]
  simp +decide only [Variable.all, List.flatMap_cons, List.flatMap_nil, endpoint]
  rfl

theorem load_plain : load ⟨[]⟩ plainEnvironment none = .ok plainSettings := by
  refine load_eq_ok.mpr ⟨[], rfl, .inr rfl, List.forall_mem_nil _, ?_⟩
  rw [settings_plain]
  refine ClientSettings.check_eq_ok.mp ?_
  rfl

theorem load_limit_plain : ∃ c',
    load ⟨[]⟩ (("GQL_FETCH_TIMEOUT", "2.5") :: plainEnvironment) none = .ok c' ∧
      c'.transport.timeout = .ofRat (5 / 2) := by
  have sound : ¬Environment.Misread "2.5" := by
    rintro (⟨means, -⟩ | ⟨-, -, ⟨c, mem, foreign⟩, -⟩ | ⟨-, noPoint, -⟩)
    · revert means
      decide
    · exact foreign (Text.plainDigit_ascii (by revert c; decide))
    · revert noPoint
      decide
  have accepted : Check.floatFrom 1 (text "2.5") = .ok (.ofRat (5 / 2)) := by
    rw [Check.floatFrom_eq_ok, Check.float_text_eq_ok]
    exact ⟨by decide +kernel, by decide +kernel, by decide +kernel⟩
  have assigned := (TransportSettings.assign_eq_ok (t := plainSettings.transport) (.inl rfl)).mpr
    ⟨_, accepted, rfl⟩
  exact ⟨_, ((load_limit (.inl rfl) load_plain "2.5").mpr sound _).mpr ⟨_, assigned, rfl⟩, rfl⟩

/-- A word for true is a limit of one second, though it is no number. -/
theorem load_word_as_limit : ∃ c',
    load ⟨[]⟩ (("GQL_FETCH_TIMEOUT", "yes") :: plainEnvironment) none = .ok c' ∧
      c'.transport.timeout = .ofInt 1 ∧
      ∀ t, plainSettings.transport.assign "timeout" (.text "yes") ≠ .ok t := by
  have accepted : Check.floatFrom 1 (Environment.convert "yes") = .ok (.ofInt 1) := by
    rw [Environment.convert_of_word (b := true) (by decide), Check.floatFrom_eq_ok]
    exact ⟨rfl, by decide +kernel, by decide +kernel⟩
  have assigned := (TransportSettings.assign_eq_ok (t := plainSettings.transport) (.inl rfl)).mpr
    ⟨_, accepted, rfl⟩
  refine ⟨_, (load_set (.inl rfl) load_plain "yes").mpr ⟨_, assigned, rfl⟩, rfl, ?_⟩
  intro t refused
  obtain ⟨x, accepted', -⟩ := (TransportSettings.assign_eq_ok (v := .timeout) (.inl rfl)).mp refused
  exact Environment.not_accepted (by decide +kernel) x accepted'

end Settings

end GraphClient
