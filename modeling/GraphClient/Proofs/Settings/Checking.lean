import GraphClient.Settings.Client
import GraphClient.Settings.Environment
import Mathlib.Data.List.Basic

/-!
# What the checks of settings accept

* `Checked.Gives`: a check finds nothing violated and gives a value; `Checked.gives_seq`,
  `Checked.gives_field`: when checks of several settings do so.
* `TransportSettings.Made`, `ClientSettings.Made`: the settings that are made from entries.
* `TransportSettings.Made.assign`: a limit among the entries is a limit that is assigned.
-/

namespace GraphClient

/-- A variable that gives a limit of the transport. -/
def Variable.IsLimit (v : Variable) : Prop := v = .timeout ∨ v = .connectTimeout

namespace Checked

variable {α β : Type} {a : α} {b : β} {c : Checked α}

/-- A check that finds nothing violated gives a value. -/
def Gives (c : Checked α) (a : α) : Prop := c.violations = [] ∧ c.value? = some a

theorem toExcept_eq_ok : c.toExcept = .ok a ↔ c.Gives a := by
  obtain ⟨violations, value?⟩ := c
  unfold toExcept Gives
  cases violations <;> cases value? <;> simp

theorem gives_map {f : α → β} : (f <$> c).Gives b ↔ ∃ a, c.Gives a ∧ f a = b := by
  show c.violations = [] ∧ c.value?.map f = some b ↔ _
  rw [Option.map_eq_some_iff]
  exact ⟨fun ⟨clean, a, found, same⟩ => ⟨a, ⟨clean, found⟩, same⟩,
    fun ⟨a, ⟨clean, found⟩, same⟩ => ⟨clean, a, found, same⟩⟩

theorem gives_seq {f : Checked (α → β)} :
    (f <*> c).Gives b ↔ ∃ g a, f.Gives g ∧ c.Gives a ∧ g a = b := by
  show f.violations ++ c.violations = [] ∧ (f.value?.bind fun g => c.value?.map g) = some b ↔ _
  simp only [List.append_eq_nil_iff, Option.bind_eq_some_iff, Option.map_eq_some_iff, Gives]
  constructor
  · rintro ⟨⟨clean, clean'⟩, g, found, a, found', same⟩
    exact ⟨g, a, ⟨clean, found⟩, ⟨clean', found'⟩, same⟩
  · rintro ⟨g, a, ⟨clean, found⟩, ⟨clean', found'⟩, same⟩
    exact ⟨⟨clean, clean'⟩, g, found, a, found', same⟩

theorem gives_also {violations : List Violation} :
    (c.also violations).Gives a ↔ c.Gives a ∧ violations = [] := by
  show c.violations ++ violations = [] ∧ c.value? = some a ↔ _
  rw [List.append_eq_nil_iff, and_right_comm]
  rfl

theorem gives_within {outer : Value} {r : Except (List Violation) α} :
    (within outer r).Gives a ↔ r = .ok a := by
  cases r <;> simp [within, Gives]

/-- A check gives one value. -/
theorem Gives.eq {a' : α} (gives : c.Gives a) (gives' : c.Gives a') : a = a' :=
  Option.some.inj (gives.2.symm.trans gives'.2)

variable {entries : List (Value × Value)} {name : String} {default? : Option α}
  {check : Value → Except (List Violation) α}

theorem gives_field {v : Value} (given : Value.lookup? name entries = some v) :
    (field entries name default? check).Gives a ↔ check v = .ok a := by
  unfold field
  rw [given]
  exact gives_within

theorem gives_field_default {initial : α} (absent : Value.lookup? name entries = none) :
    (field entries name (some initial) check).Gives a ↔ initial = a := by
  unfold field
  rw [absent]
  simp [Gives]

theorem field_congr {entries' : List (Value × Value)}
    (same : Value.lookup? name entries' = Value.lookup? name entries) :
    field entries' name default? check = field entries name default? check := by
  unfold field
  rw [same]

end Checked

namespace Check

theorem here_eq_ok {α : Type} {check : Value → Result α} {v : Value} {a : α} :
    here check v = .ok a ↔ check v = .ok a := by
  rw [here]
  cases check v <;> simp

end Check

namespace TransportSettings

/-- Entries that are settings. -/
theorem extraViolations_eq_nil {names : List String} {entries : List (Value × Value)} :
    extraViolations names entries = [] ↔
      ∀ k ∈ entries.map Prod.fst, ∃ name ∈ names, k = .text name := by
  induction entries with
  | nil => simp [extraViolations]
  | cons entry rest ih =>
    obtain ⟨k, v⟩ := entry
    rw [List.map_cons, List.forall_mem_cons, ← ih]
    cases k with
    | text name =>
      rw [extraViolations]
      by_cases known : name ∈ names
      · simp [known]
      · simp [known]
    | _ => simp [extraViolations]

/-- What it is for settings to be made from entries. -/
structure Made (entries : List (Value × Value)) (t : TransportSettings) : Prop where
  timeout : (Checked.field entries "timeout" (some default.timeout)
    (Check.here (Check.floatFrom 1))).Gives t.timeout
  connectTimeout : (Checked.field entries "connect_timeout" (some default.connectTimeout)
    (Check.here (Check.floatFrom 1))).Gives t.connectTimeout
  sockReadTimeout : (Checked.field entries "sock_read_timeout" (some default.sockReadTimeout)
    (Check.here (Check.floatFrom 1))).Gives t.sockReadTimeout
  maxConnections : (Checked.field entries "max_connections" (some default.maxConnections)
    (Check.here (Check.intFrom 1))).Gives t.maxConnections
  maxConnectionsPerHost : (Checked.field entries "max_connections_per_host"
    (some default.maxConnectionsPerHost) (Check.here (Check.intFrom 1))).Gives
      t.maxConnectionsPerHost
  verifySsl : (Checked.field entries "verify_ssl" (some default.verifySsl)
    (Check.here Check.bool)).Gives t.verifySsl
  userAgent : (Checked.field entries "user_agent" (some default.userAgent)
    (Check.here Check.text)).Gives t.userAgent
  known : extraViolations names entries = []

theorem check_eq_ok {entries : List (Value × Value)} {t : TransportSettings} :
    check (.map entries) = .ok t ↔ Made entries t := by
  unfold check
  rw [Checked.toExcept_eq_ok, Checked.gives_also]
  simp only [Checked.gives_seq, Checked.gives_map]
  constructor
  · rintro ⟨⟨_, _, ⟨_, _, ⟨_, _, ⟨_, _, ⟨_, _, ⟨_, _, ⟨_, h₁, rfl⟩, h₂, rfl⟩, h₃, rfl⟩, h₄, rfl⟩,
      h₅, rfl⟩, h₆, rfl⟩, h₇, rfl⟩, known⟩
    exact ⟨h₁, h₂, h₃, h₄, h₅, h₆, h₇, known⟩
  · rintro ⟨h₁, h₂, h₃, h₄, h₅, h₆, h₇, known⟩
    exact ⟨⟨_, _, ⟨_, _, ⟨_, _, ⟨_, _, ⟨_, _, ⟨_, _, ⟨_, h₁, rfl⟩, h₂, rfl⟩, h₃, rfl⟩, h₄, rfl⟩,
      h₅, rfl⟩, h₆, rfl⟩, h₇, rfl⟩, known⟩

/-- Sets a limit. -/
def withLimit (v : Variable) (x : Binary64) (t : TransportSettings) : TransportSettings :=
  if v = .timeout then { t with timeout := x } else { t with connectTimeout := x }

theorem assign_eq_ok {v : Variable} {w : Value} {t t' : TransportSettings} (limit : v.IsLimit) :
    t.assign v.setting w = .ok t' ↔ ∃ x, Check.floatFrom 1 w = .ok x ∧ t.withLimit v x = t' := by
  have accepted : accept v.setting w = (Check.floatFrom 1 w).map .float := by
    rcases limit with rfl | rfl <;> exact if_pos (by decide)
  have set (x : Binary64) : t.withSetting v.setting (.float x) = t.withLimit v x := by
    rcases limit with rfl | rfl <;> rfl
  rw [assign, accepted]
  cases Check.floatFrom 1 w with
  | ok x => simp [Except.map, set]
  | error => simp [Except.map]

/-- Settings made from other entries, where a limit is given and nothing else differs, are those
in which the limit is assigned. -/
theorem Made.assign {entries entries' : List (Value × Value)} {t t' : TransportSettings}
    {v : Variable} {w : Value} (limit : v.IsLimit) (made : Made entries t)
    (others : ∀ name, name ≠ v.setting →
      Value.lookup? name entries' = Value.lookup? name entries)
    (given : Value.lookup? v.setting entries' = some w)
    (known : extraViolations names entries' = []) :
    Made entries' t' ↔ t.assign v.setting w = .ok t' := by
  have kept {α : Type} {name : String} {initial? : Option α} {check : Value → Except _ α} {a : α}
      (other : name ≠ v.setting) : (Checked.field entries' name initial? check).Gives a ↔
        (Checked.field entries name initial? check).Gives a := by
    rw [Checked.field_congr (others name other)]
  rw [assign_eq_ok limit]
  rcases limit with rfl | rfl
  · constructor
    · rintro ⟨h₁, h₂, h₃, h₄, h₅, h₆, h₇, -⟩
      refine ⟨t'.timeout, Check.here_eq_ok.mp ((Checked.gives_field given).mp h₁), ?_⟩
      rw [withLimit, if_pos rfl, made.connectTimeout.eq ((kept (by decide)).mp h₂),
        made.sockReadTimeout.eq ((kept (by decide)).mp h₃),
        made.maxConnections.eq ((kept (by decide)).mp h₄),
        made.maxConnectionsPerHost.eq ((kept (by decide)).mp h₅),
        made.verifySsl.eq ((kept (by decide)).mp h₆), made.userAgent.eq ((kept (by decide)).mp h₇)]
    · rintro ⟨x, accepted, rfl⟩
      obtain ⟨-, h₂, h₃, h₄, h₅, h₆, h₇, -⟩ := made
      exact ⟨(Checked.gives_field given).mpr (Check.here_eq_ok.mpr accepted),
        (kept (by decide)).mpr h₂, (kept (by decide)).mpr h₃, (kept (by decide)).mpr h₄,
        (kept (by decide)).mpr h₅, (kept (by decide)).mpr h₆, (kept (by decide)).mpr h₇, known⟩
  · constructor
    · rintro ⟨h₁, h₂, h₃, h₄, h₅, h₆, h₇, -⟩
      refine ⟨t'.connectTimeout, Check.here_eq_ok.mp ((Checked.gives_field given).mp h₂), ?_⟩
      rw [withLimit, if_neg (by decide), made.timeout.eq ((kept (by decide)).mp h₁),
        made.sockReadTimeout.eq ((kept (by decide)).mp h₃),
        made.maxConnections.eq ((kept (by decide)).mp h₄),
        made.maxConnectionsPerHost.eq ((kept (by decide)).mp h₅),
        made.verifySsl.eq ((kept (by decide)).mp h₆), made.userAgent.eq ((kept (by decide)).mp h₇)]
    · rintro ⟨x, accepted, rfl⟩
      obtain ⟨h₁, -, h₃, h₄, h₅, h₆, h₇, -⟩ := made
      exact ⟨(kept (by decide)).mpr h₁,
        (Checked.gives_field given).mpr (Check.here_eq_ok.mpr accepted),
        (kept (by decide)).mpr h₃, (kept (by decide)).mpr h₄,
        (kept (by decide)).mpr h₅, (kept (by decide)).mpr h₆, (kept (by decide)).mpr h₇, known⟩

end TransportSettings

namespace ClientSettings

variable {entries entries' : List (Value × Value)} {c c' : ClientSettings}

/-- What it is for the settings of a client to be made from entries. -/
structure Made (entries : List (Value × Value)) (c : ClientSettings) : Prop where
  endpoint : (Checked.field entries "endpoint" none (Check.here checkEndpoint)).Gives c.endpoint
  headers : (Checked.field entries "headers" (some []) (Check.mapOf Check.text)).Gives c.headers
  transport : (Checked.field entries "transport" (some .default) TransportSettings.check).Gives
    c.transport
  logging : (Checked.field entries "logging" (some .default) LoggingSettings.check).Gives c.logging
  known : TransportSettings.extraViolations names entries = []

theorem check_eq_ok : check (.map entries) = .ok c ↔ Made entries c := by
  unfold check
  rw [Checked.toExcept_eq_ok, Checked.gives_also]
  simp only [Checked.gives_seq, Checked.gives_map]
  constructor
  · rintro ⟨⟨_, _, ⟨_, _, ⟨_, _, ⟨_, h₁, rfl⟩, h₂, rfl⟩, h₃, rfl⟩, h₄, rfl⟩, known⟩
    exact ⟨h₁, h₂, h₃, h₄, known⟩
  · rintro ⟨h₁, h₂, h₃, h₄, known⟩
    exact ⟨⟨_, _, ⟨_, _, ⟨_, _, ⟨_, h₁, rfl⟩, h₂, rfl⟩, h₃, rfl⟩, h₄, rfl⟩, known⟩

/-- Settings made from other entries, where those of the transport are given and nothing else
differs. -/
theorem Made.withTransport {members : List (Value × Value)} (made : Made entries c)
    (others : ∀ name, name ≠ "transport" →
      Value.lookup? name entries' = Value.lookup? name entries)
    (given : Value.lookup? "transport" entries' = some (.map members))
    (known : TransportSettings.extraViolations names entries' = []) :
    Made entries' c' ↔
      ∃ t, TransportSettings.Made members t ∧ { c with transport := t } = c' := by
  have kept {α : Type} {name : String} {initial? : Option α} {check : Value → Except _ α} {a : α}
      (other : name ≠ "transport") : (Checked.field entries' name initial? check).Gives a ↔
        (Checked.field entries name initial? check).Gives a := by
    rw [Checked.field_congr (others name other)]
  constructor
  · rintro ⟨h₁, h₂, h₃, h₄, -⟩
    refine ⟨c'.transport, TransportSettings.check_eq_ok.mp ((Checked.gives_field given).mp h₃), ?_⟩
    rw [made.endpoint.eq ((kept (by decide)).mp h₁), made.headers.eq ((kept (by decide)).mp h₂),
      made.logging.eq ((kept (by decide)).mp h₄)]
  · rintro ⟨t, here, rfl⟩
    obtain ⟨h₁, h₂, -, h₄, -⟩ := made
    exact ⟨(kept (by decide)).mpr h₁, (kept (by decide)).mpr h₂,
      (Checked.gives_field given).mpr (TransportSettings.check_eq_ok.mpr here),
      (kept (by decide)).mpr h₄, known⟩

end ClientSettings

end GraphClient
