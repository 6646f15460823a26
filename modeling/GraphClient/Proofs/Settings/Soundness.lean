import GraphClient.Proofs.Pairs
import GraphClient.Proofs.Settings.Checking
import GraphClient.Proofs.Settings.Numbers

/-!
# Sound settings of the transport

What the object that holds the settings of the transport holds, after any history of assignments.

* `TransportSettings.run_setChecked`: the name and the value alone decide whether an assignment to
  a setting fails. One that fails leaves all attributes, any other sets its own one.
* `TransportSettings.Sound`: limits and sizes are not below one. It holds of settings that are made
  (`sound_of_check`) and is kept by what is assigned (`Sound.assign`).
* `TransportSettings.sound_after`: so it holds after every history of assignments to names without
  an underscore in front, whatever failed in it. Other names go past the checks
  (`unsound_after_replaced`).
-/

namespace GraphClient

/-- A number that is not below an integer. NaN is no number. -/
def Binary64.AtLeast (n : Int) (x : Binary64) : Prop :=
  x = .infinite false ∨ ∃ q, x.toRat? = some q ∧ (n : Rat) ≤ q

theorem Check.Reaches.atLeast {bound : Int} {x : Binary64} (reaches : Reaches bound x) :
    x.AtLeast bound := by
  obtain ⟨number, above⟩ := reaches
  cases x with
  | nan => exact absurd rfl number
  | infinite negative =>
    obtain rfl : negative = false := above
    exact .inl rfl
  | finite negative m e =>
    simp only [Binary64.ltInt, Binary64.toRat?, decide_eq_false_iff_not, not_lt] at above
    exact .inr ⟨_, rfl, above⟩

theorem Check.intFrom_eq_ok {bound n : Int} {v : Value} :
    intFrom bound v = .ok n ↔ int v = .ok n ∧ bound ≤ n := by
  rw [intFrom]
  cases int v with
  | error rule => simp
  | ok m =>
    simp only [Except.ok.injEq]
    split
    · rename_i below
      simp only [reduceCtorEq, false_iff, not_and]
      rintro rfl
      exact not_le.mpr below
    · rename_i above
      simp only [Except.ok.injEq, iff_self_and]
      rintro rfl
      exact not_lt.mp above

/-- What holds of the default of a setting and of every value that its check gives holds of the
setting. -/
theorem Checked.Gives.forall {α : Type} {p : α → Prop} {entries : List (Value × Value)}
    {name : String} {initial a : α} {check : Value → Except (List Violation) α}
    (gives : (field entries name (some initial) check).Gives a) (start : p initial)
    (checked : ∀ v a, check v = .ok a → p a) : p a := by
  cases given : Value.lookup? name entries with
  | some v => exact checked v a ((gives_field given).mp gives)
  | none => exact (gives_field_default given).mp gives ▸ start

namespace Attributes

variable {setting : String → Value → Access Unit} {name : String}

theorem assign_of_plain (plain : isHidden name = false) : assign setting name = setting name := by
  funext v
  rw [assign, plain]
  rfl

theorem tryAll_cons (v : Value) (rest : List (String × Value)) (attributes : Attributes) :
    (tryAll setting ((name, v) :: rest) attributes).2 =
      (tryAll setting rest ((assign setting name v).run attributes).2).2 := rfl

theorem ofTable_set (name : String) (v : Value) (table : List (String × Value)) :
    ofTable (Pairs.set name v table) = Pairs.set (.text name) v (ofTable table) := by
  induction table with
  | nil => rfl
  | cons entry rest ih =>
    have same : (Value.text entry.1 == Value.text name) = (entry.1 == name) := rfl
    simp only [ofTable, List.map_cons, Pairs.set, same]
    split
    · rfl
    · exact congrArg _ ih

theorem lookup?_ofTable (name : String) (table : List (String × Value)) :
    Value.lookup? name (ofTable table) = Pairs.get? name table := by
  induction table with
  | nil => rfl
  | cons entry rest ih =>
    have same : (Value.text entry.1 == Value.text name) = (entry.1 == name) := rfl
    unfold Value.lookup? at ih
    simp only [Value.lookup?, ofTable, List.map_cons, Pairs.get?, same]
    exact if_congr Iff.rfl rfl ih

end Attributes

namespace TransportSettings

/-! ## Sound settings -/

/-- What a setting can hold. -/
inductive Holds : String → Value → Prop
  | limit {name : String} {x : Binary64} : name ∈ limitNames → x.AtLeast 1 → Holds name (.float x)
  | size {name : String} {n : Int} : name ∈ sizeNames → 1 ≤ n → Holds name (.int n)
  | verifySsl (b : Bool) : Holds "verify_ssl" (.bool b)
  | userAgent (s : String) : Holds "user_agent" (.text s)

theorem Holds.atLeast {name : String} {x : Binary64} : Holds name (.float x) → x.AtLeast 1
  | .limit _ above => above

theorem holds_accept {name : String} {v w : Value} (accepted : accept name v = .ok w) :
    Holds name w := by
  have shown {α : Type} {check : Check.Result α} {f : α → Value} (here : check.map f = .ok w) :
      ∃ a, check = .ok a ∧ f a = w := by
    cases check with
    | ok a => exact ⟨a, rfl, Except.ok.inj here⟩
    | error => cases here
  unfold accept at accepted
  split at accepted
  · rename_i limit
    obtain ⟨x, checked, rfl⟩ := shown accepted
    exact .limit limit (Check.floatFrom_eq_ok.mp checked).2.atLeast
  · split at accepted
    · rename_i size
      obtain ⟨n, checked, rfl⟩ := shown accepted
      exact .size size (Check.intFrom_eq_ok.mp checked).2
    · split at accepted
      · rename_i same
        obtain ⟨b, -, rfl⟩ := shown accepted
        exact same ▸ .verifySsl b
      · split at accepted
        · rename_i same
          obtain ⟨s, -, rfl⟩ := shown accepted
          exact same ▸ .userAgent s
        · cases accepted

/-- Every setting holds what it can hold. -/
def Sound (s : TransportSettings) : Prop := ∀ entry ∈ s.toTable, Holds entry.1 entry.2

theorem sound_iff {s : TransportSettings} : s.Sound ↔
    s.timeout.AtLeast 1 ∧ s.connectTimeout.AtLeast 1 ∧ s.sockReadTimeout.AtLeast 1 ∧
      1 ≤ s.maxConnections ∧ 1 ≤ s.maxConnectionsPerHost := by
  have size {name : String} {n : Int} : Holds name (.int n) → 1 ≤ n
    | .size _ above => above
  simp only [Sound, toTable, List.forall_mem_cons, List.not_mem_nil, false_implies, implies_true,
    and_true]
  constructor
  · rintro ⟨h₁, h₂, h₃, h₄, h₅, -⟩
    exact ⟨h₁.atLeast, h₂.atLeast, h₃.atLeast, size h₄, size h₅⟩
  · rintro ⟨h₁, h₂, h₃, h₄, h₅⟩
    exact ⟨.limit (by decide) h₁, .limit (by decide) h₂, .limit (by decide) h₃,
      .size (by decide) h₄, .size (by decide) h₅, .verifySsl _, .userAgent _⟩

/-- Settings that are made are sound. -/
theorem sound_of_check {given : Value} {s : TransportSettings} (made : check given = .ok s) :
    s.Sound := by
  cases given with
  | map entries =>
    have limit (v : Value) (x : Binary64)
        (checked : Check.here (Check.floatFrom 1) v = .ok x) : x.AtLeast 1 :=
      (Check.floatFrom_eq_ok.mp (Check.here_eq_ok.mp checked)).2.atLeast
    have size (v : Value) (n : Int) (checked : Check.here (Check.intFrom 1) v = .ok n) : 1 ≤ n :=
      (Check.intFrom_eq_ok.mp (Check.here_eq_ok.mp checked)).2
    obtain ⟨h₁, h₂, h₃, h₄, h₅, -⟩ := check_eq_ok.mp made
    have thirty : (Binary64.ofInt 30).AtLeast 1 :=
      Check.Reaches.atLeast ⟨by decide +kernel, by decide +kernel⟩
    have ten : (Binary64.ofInt 10).AtLeast 1 :=
      Check.Reaches.atLeast ⟨by decide +kernel, by decide +kernel⟩
    exact sound_iff.mpr ⟨h₁.forall thirty limit, h₂.forall ten limit, h₃.forall thirty limit,
      h₄.forall (by decide) size, h₅.forall (by decide) size⟩
  | _ => cases made

/-! ## Single assignments -/

/-- Setting a setting to what it can hold sets it in the table and nothing else. -/
theorem toTable_withSetting (s : TransportSettings) {name : String} {w : Value}
    (holds : Holds name w) : (s.withSetting name w).toTable = Pairs.set name w s.toTable := by
  cases holds with
  | limit limit =>
    simp only [limitNames, List.mem_cons, List.not_mem_nil, or_false] at limit
    rcases limit with rfl | rfl | rfl <;> rfl
  | size size =>
    simp only [sizeNames, List.mem_cons, List.not_mem_nil, or_false] at size
    rcases size with rfl | rfl <;> rfl
  | verifySsl | userAgent => rfl

/-- What is assigned keeps settings sound. -/
theorem Sound.assign {s s' : TransportSettings} {name : String} {v : Value} (sound : s.Sound)
    (assigned : s.assign name v = .ok s') : s'.Sound := by
  unfold TransportSettings.assign at assigned
  cases accepted : accept name v with
  | error rule =>
    rw [accepted] at assigned
    cases assigned
  | ok w =>
    rw [accepted] at assigned
    obtain rfl := Except.ok.inj assigned
    intro entry mem
    rw [toTable_withSetting s (holds_accept accepted)] at mem
    rcases Pairs.mem_set mem with rfl | before
    · exact holds_accept accepted
    · exact sound entry before

/-- An assignment to a setting of the object that holds settings fails and leaves the object as it
is, or makes it hold the settings after the assignment. -/
theorem run_setChecked (s : TransportSettings) (name : String) (v : Value) :
    (setChecked name v).run s.attributes = match s.assign name v with
      | .ok s' => (.ok (), s'.attributes)
      | .error violations => (.error (.invalid violations), s.attributes) := by
  unfold TransportSettings.assign
  cases accepted : accept name v with
  | error rule =>
    simp only [setChecked, accepted]
    rfl
  | ok w =>
    have set : (s.withSetting name w).attributes = Pairs.set (.text name) w s.attributes := by
      rw [attributes, toTable_withSetting s (holds_accept accepted)]
      exact Attributes.ofTable_set ..
    simp only [setChecked, accepted, set]
    rfl

/-! ## Histories of assignments -/

/-- Assignments to names without an underscore in front, whatever fails among them, take an object
that holds sound settings to one that does. -/
theorem exists_sound_after {s : TransportSettings} (sound : s.Sound)
    {history : List (String × Value)}
    (plain : ∀ assignment ∈ history, Attributes.isHidden assignment.1 = false) :
    ∃ s' : TransportSettings, s'.Sound ∧
      (Attributes.tryAll setChecked history s.attributes).2 = s'.attributes := by
  induction history generalizing s with
  | nil => exact ⟨s, sound, rfl⟩
  | cons assignment rest ih =>
    obtain ⟨name, v⟩ := assignment
    obtain ⟨here, plain⟩ := List.forall_mem_cons.mp plain
    rw [Attributes.tryAll_cons, Attributes.assign_of_plain here, run_setChecked]
    cases assigned : s.assign name v with
    | ok s' => exact ih (sound.assign assigned) plain
    | error => exact ih sound plain

theorem Sound.holds {s : TransportSettings} (sound : s.Sound) {name : String}
    (known : name ∈ names) : ∃ v, Pairs.get? name s.toTable = some v ∧ Holds name v := by
  obtain ⟨⟨_, v⟩, mem, rfl⟩ := List.mem_map.mp (show name ∈ s.toTable.map Prod.fst from known)
  have distinct : (s.toTable.map Prod.fst).Nodup := show names.Nodup by decide
  exact ⟨v, Pairs.get?_of_mem distinct mem, sound _ mem⟩

/-- A setting that accepts something is one. -/
theorem known_of_accept {name : String} {v w : Value} (accepted : accept name v = .ok w) :
    name ∈ names := by
  cases holds_accept accepted with
  | limit limit => exact (show limitNames ⊆ names by decide) limit
  | size size => exact (show sizeNames ⊆ names by decide) size
  | verifySsl | userAgent => decide

/-- **Settings stay sound.** After every history of assignments to settings that were made, of any
values to any names without an underscore in front, each setting holds what it can hold: a limit is
a number and not below one, a size is an integer and not below one, the other two are a truth value
and a text. An assignment fails exactly if there is no such setting or its check refuses the value,
and then all attributes stay as they are. Otherwise the setting holds what its check makes of the
value, and all others stay. -/
theorem sound_after {given : Value} {s : TransportSettings} (made : check given = .ok s)
    {history : List (String × Value)}
    (plain : ∀ assignment ∈ history, Attributes.isHidden assignment.1 = false) :
    let now := (Attributes.tryAll setChecked history s.attributes).2
    (∀ name ∈ names, ∃ v, Value.lookup? name now = some v ∧ Holds name v) ∧
    ∀ name v, Attributes.isHidden name = false →
      match accept name v with
      | .error rule =>
        (Attributes.assign setChecked name v).run now =
          (.error (.invalid [⟨[.text name], rule⟩]), now)
      | .ok w => ∃ later, (Attributes.assign setChecked name v).run now = (.ok (), later) ∧
          name ∈ names ∧ Holds name w ∧ Value.lookup? name later = some w ∧
          ∀ other, other ≠ name → Value.lookup? other later = Value.lookup? other now := by
  obtain ⟨s', sound, same⟩ := exists_sound_after (sound_of_check made) plain
  rw [same]
  refine ⟨fun name known => ?_, fun name v visible => ?_⟩
  · obtain ⟨v, found, holds⟩ := sound.holds known
    exact ⟨v, (Attributes.lookup?_ofTable ..).trans found, holds⟩
  · rw [Attributes.assign_of_plain visible, run_setChecked, TransportSettings.assign]
    cases accepted : accept name v with
    | error => rfl
    | ok w =>
      have holds := holds_accept accepted
      refine ⟨_, rfl, known_of_accept accepted, holds, ?_, fun other ne => ?_⟩
      · rw [attributes, Attributes.lookup?_ofTable, toTable_withSetting s' holds,
          Pairs.get?_set_self]
      · rw [attributes, Attributes.lookup?_ofTable, toTable_withSetting s' holds,
          Pairs.get?_set_of_ne ne, attributes, Attributes.lookup?_ofTable]

/-- Settings with a limit of five seconds. -/
def fiveSeconds : TransportSettings := { default with timeout := .ofInt 5 }

/-- Assignments of which only the first one does not fail. -/
def mostlyRefused : List (String × Value) :=
  [("verify_ssl", .text "off"), ("max_connections", .int 0), ("retries", .int 3)]

theorem sound_after_mostlyRefused :
    let now := (Attributes.tryAll setChecked mostlyRefused fiveSeconds.attributes).2
    check (.map [(.text "timeout", .int 5)]) = .ok fiveSeconds ∧
    (∃ v, Value.lookup? "timeout" now = some v ∧ Holds "timeout" v) ∧
    (Attributes.assign setChecked "timeout" (.float .nan)).run now =
      (.error (.invalid [⟨[.text "timeout"], .atLeast⟩]), now) ∧
    ∃ later, (Attributes.assign setChecked "connect_timeout" (.bool true)).run now =
        (.ok (), later) ∧
      Value.lookup? "connect_timeout" later = some (.float (.ofInt 1)) := by
  have five : Check.floatFrom 1 (.int 5) = .ok (.ofInt 5) :=
    Check.floatFrom_eq_ok.mpr ⟨by rfl, by decide +kernel, by decide +kernel⟩
  have made : check (.map [(.text "timeout", .int 5)]) = .ok fiveSeconds :=
    check_eq_ok.mpr
      { timeout := (Checked.gives_field rfl).mpr (Check.here_eq_ok.mpr five)
        connectTimeout := (Checked.gives_field_default rfl).mpr rfl
        sockReadTimeout := (Checked.gives_field_default rfl).mpr rfl
        maxConnections := (Checked.gives_field_default rfl).mpr rfl
        maxConnectionsPerHost := (Checked.gives_field_default rfl).mpr rfl
        verifySsl := (Checked.gives_field_default rfl).mpr rfl
        userAgent := (Checked.gives_field_default rfl).mpr rfl
        known := by rfl }
  have plain : ∀ assignment ∈ mostlyRefused, Attributes.isHidden assignment.1 = false := by
    simp only [mostlyRefused, List.forall_mem_cons]
    decide +kernel
  obtain ⟨holds, tried⟩ := sound_after made plain
  have noNumber : accept "timeout" (.float .nan) = .error .atLeast := by rfl
  have one : accept "connect_timeout" (.bool true) = .ok (.float (.ofInt 1)) := by
    have checked : Check.floatFrom 1 (.bool true) = .ok (.ofInt 1) :=
      Check.floatFrom_eq_ok.mpr ⟨by rfl, by decide +kernel, by decide +kernel⟩
    exact congrArg (Except.map Value.float) checked
  have refused := tried "timeout" (.float .nan) (by decide +kernel)
  have done := tried "connect_timeout" (.bool true) (by decide +kernel)
  rw [noNumber] at refused
  rw [one] at done
  obtain ⟨later, ran, -, -, found, -⟩ := done
  exact ⟨made, holds "timeout" (by decide), refused, later, ran, found⟩

/-- Zero seconds. -/
def noSeconds : Binary64 := .ofInt 0

/-- The attributes of settings with a limit of zero seconds and all else as by default. -/
def withoutTime : Attributes := { default with timeout := noSeconds }.attributes

/-- The attributes can be replaced all at once, by a name with underscores in front. No check sees
the new ones. -/
theorem unsound_after_replaced :
    check (.map []) = .ok default ∧
      Attributes.tryAll setChecked [("__dict__", .map withoutTime)] default.attributes =
        ([.ok ()], withoutTime) ∧
      Value.lookup? "timeout" withoutTime = some (.float noSeconds) ∧
      ¬ Holds "timeout" (.float noSeconds) := by
  have made : check (.map []) = .ok default :=
    check_eq_ok.mpr
      { timeout := (Checked.gives_field_default rfl).mpr rfl
        connectTimeout := (Checked.gives_field_default rfl).mpr rfl
        sockReadTimeout := (Checked.gives_field_default rfl).mpr rfl
        maxConnections := (Checked.gives_field_default rfl).mpr rfl
        maxConnectionsPerHost := (Checked.gives_field_default rfl).mpr rfl
        verifySsl := (Checked.gives_field_default rfl).mpr rfl
        userAgent := (Checked.gives_field_default rfl).mpr rfl
        known := by rfl }
  refine ⟨made, rfl, rfl, fun holds => ?_⟩
  rcases holds.atLeast with infinite | ⟨q, number, above⟩
  · exact absurd infinite (by decide +kernel)
  · have zero : noSeconds.toRat? = some 0 := by decide +kernel
    obtain rfl := Option.some.inj (zero.symm.trans number)
    exact absurd above (by decide)

end TransportSettings

end GraphClient
