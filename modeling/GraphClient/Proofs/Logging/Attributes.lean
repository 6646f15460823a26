import GraphClient.Logging.Filter
import GraphClient.Logging.Presentation
import GraphClient.Proofs.Pairs

/-!
# Attributes of a record and what is written of them

Two records that differ in the value of one attribute (`LogRecord.Exchanged`), attached by the
caller under a name that is no standard one.

* `Template.fill_congr`: a template shows the values that its directives name.
* `LogRecord.Exchanged.render`: a line that does not show the attribute is the same for both
  records.
* `LogRecord.Exchanged.structured`: the JSON objects differ in its member.
-/

namespace GraphClient

/-! ## Templates -/

namespace Template

/-- Whether a piece shows the value of a key: a directive that names it, or one that names none and
so takes the whole collection. -/
def Piece.shows (key : String) : Piece → Bool
  | .directive d => d.key? = none || d.key? = some key
  | _ => false

/-- Pieces show the value of a key. -/
def Shows (key : String) (pieces : List Piece) : Prop := ∃ piece ∈ pieces, piece.shows key = true

instance (key : String) (pieces : List Piece) : Decidable (Shows key pieces) :=
  inferInstanceAs (Decidable (∃ piece ∈ pieces, piece.shows key = true))

theorem Source.fill_congr {entry entry' : String → Except Failure Value} {pieces : List Piece}
    (agree : ∀ d, .directive d ∈ pieces → ∃ key, d.key? = some key ∧ entry key = entry' key)
    (pending pending' : List Value) :
    Source.fill ⟨pending, some entry⟩ pieces = Source.fill ⟨pending', some entry'⟩ pieces := by
  induction pieces generalizing pending pending' with
  | nil => rfl
  | cons piece pieces ih =>
    have later := ih fun d mem => agree d (List.mem_cons_of_mem _ mem)
    cases piece with
    | char c => rw [fill, fill, later pending pending']
    | openKey => rfl
    | directive d =>
      obtain ⟨key, named, same⟩ := agree d List.mem_cons_self
      have chosen : chosen ⟨pending, some entry⟩ d = chosen ⟨pending', some entry'⟩ d := by
        simp only [chosen, named, same]
      have written : write ⟨pending, some entry⟩ d = write ⟨pending', some entry'⟩ d := by
        rw [write, write, chosen]
      rw [fill, fill, written]
      split
      · rfl
      · rename_i s left _
        show (if (true && !left.isEmpty) = true then _ else _) =
          if (true && !left.isEmpty) = true then _ else _
        rw [later left left]

theorem entryOf_ofPairs (table : List (String × Value)) (key : String) :
    entryOf (.ofPairs table) key = match Pairs.get? key table with
      | some v => .ok v
      | none => .error (.misuse .key (Text.quoted key)) := by
  have found : Value.lookup? key (table.map fun entry => (.text entry.1, entry.2)) =
      Pairs.get? key table := by
    induction table with
    | nil => rfl
    | cons entry table ih =>
      show (if entry.1 == key then _ else _) = _
      rw [Pairs.get?]
      split
      · rfl
      · exact ih
  cases value : Pairs.get? key table with
  | none => rw [Value.ofPairs, entryOf, found, value]
  | some v => rw [Value.ofPairs, entryOf, found, value]

/-- A template shows the values that its directives name. -/
theorem fill_congr {template : String} {table table' : List (String × Value)}
    (agree : ∀ d, .directive d ∈ pieces template →
      ∃ key, d.key? = some key ∧ Pairs.get? key table = Pairs.get? key table') :
    fill template (.ofPairs table) = fill template (.ofPairs table') := by
  refine Source.fill_congr (fun d mem => ?_) _ _
  obtain ⟨key, named, same⟩ := agree d mem
  refine ⟨key, named, ?_⟩
  show entryOf (.ofPairs table) key = entryOf (.ofPairs table') key
  rw [entryOf_ofPairs, entryOf_ofPairs, same]

end Template

namespace LineFormat

/-- The end of writing a line: the template is filled, and the blocks go below. -/
def ended (f : LineFormat) (r : LogRecord) : Except Failure String × LogRecord :=
  match f.fill r with
  | .error e => (.error e, r)
  | .ok line => (withBlocks line (withReport r), withReport r)

theorem render_eq (f : LineFormat) (r : LogRecord) : f.render r =
    match r.message with
    | .error e => (.error e, r)
    | .ok message =>
      let r := r.attach "message" (.text message)
      match (if f.usesTime then (f.timeText r).map fun time => r.attach "asctime" (.text time)
        else .ok r) with
      | .error e => (.error e, r)
      | .ok r => f.ended r := rfl

end LineFormat

/-! ## Records -/

namespace LogRecord

/-- Two records that are the same but that a value of one attribute is exchanged for another one. -/
structure Exchanged (name : String) (v v' : Value) (r r' : LogRecord) : Prop where
  logger : r.logger = r'.logger
  level : r.level = r'.level
  site : r.site = r'.site
  template : r.template = r'.template
  arguments : r.arguments = r'.arguments
  error? : r.error? = r'.error?
  extra : Pairs.Exchanged name v v' r.extra r'.extra

theorem exchanged_attach (name : String) (v v' : Value) (r : LogRecord) :
    Exchanged name v v' (r.attach name v) (r.attach name v') :=
  ⟨rfl, rfl, rfl, rfl, rfl, rfl, (Pairs.Exchanged.refl r.extra).set (.inr ⟨rfl, rfl, rfl⟩)⟩

namespace Exchanged

variable {name : String} {v v' : Value} {r r' : LogRecord}

theorem attach (exchanged : Exchanged name v v' r r') (name' : String) (w : Value) :
    Exchanged name v v' (r.attach name' w) (r'.attach name' w) :=
  { exchanged with extra := exchanged.extra.set (.inl rfl) }

theorem withMessage (exchanged : Exchanged name v v' r r') (s : String) :
    Exchanged name v v' (r.withMessage s) (r'.withMessage s) :=
  { exchanged with
    template := rfl
    arguments := rfl
    extra := (exchanged.extra.erase "msg").erase "args" }

theorem standard (exchanged : Exchanged name v v' r r') : r.standard = r'.standard := by
  obtain ⟨logger, level, site, template, arguments, -, -⟩ := exchanged
  simp only [LogRecord.standard, logger, level, site, template, arguments]

/-- Attributes of other names are the same. -/
theorem value (exchanged : Exchanged name v v' r r') {name' : String} (other : name' ≠ name) :
    r.value name' = r'.value name' := by
  rw [LogRecord.value, LogRecord.value, value?, value?, exchanged.extra.get?_of_ne other,
    exchanged.standard]

/-- Attributes that are no data of the caller are the same. -/
theorem value_of_reserved (exchanged : Exchanged name v v' r r') (free : name ∉ reserved)
    (name' : String) (listed : name' ∈ reserved) : r.value name' = r'.value name' := by
  refine exchanged.value ?_
  rintro rfl
  exact free listed

theorem message (exchanged : Exchanged name v v' r r') (free : name ∉ reserved) :
    r.message = r'.message := by
  have template := exchanged.value_of_reserved free "msg" (by decide)
  have arguments := exchanged.value_of_reserved free "args" (by decide)
  rw [LogRecord.message, LogRecord.message, template, arguments]

theorem masked (exchanged : Exchanged name v v' r r') (free : name ∉ reserved) :
    (∃ e, r.masked = .error e ∧ r'.masked = .error e) ∨
      ∃ m m', r.masked = .ok m ∧ r'.masked = .ok m' ∧ Exchanged name v v' m m' := by
  rw [LogRecord.masked, LogRecord.masked, ← exchanged.message free]
  cases r.message with
  | error e => exact .inl ⟨e, rfl, rfl⟩
  | ok message => exact .inr ⟨_, _, rfl, rfl, exchanged.withMessage _⟩

theorem time (exchanged : Exchanged name v v' r r') (free : name ∉ reserved) :
    r.time = r'.time := by
  rw [LogRecord.time, LogRecord.time, exchanged.value_of_reserved free "created" (by decide)]

/-! ### Lines -/

theorem timeText (exchanged : Exchanged name v v' r r') (free : name ∉ reserved) (f : LineFormat) :
    f.timeText r = f.timeText r' := by
  have msecs := exchanged.value_of_reserved free "msecs" (by decide)
  rw [LineFormat.timeText, LineFormat.timeText, exchanged.time free, msecs]

theorem withReport (exchanged : Exchanged name v v' r r') (free : name ∉ reserved) :
    Exchanged name v v' (LineFormat.withReport r) (LineFormat.withReport r') := by
  rw [LineFormat.withReport, LineFormat.withReport, ← exchanged.error?,
    ← exchanged.value_of_reserved free "exc_text" (by decide)]
  split
  · split
    · exact exchanged
    · exact exchanged.attach _ _
  · exact exchanged

theorem withBlocks (exchanged : Exchanged name v v' r r') (free : name ∉ reserved) (line : String) :
    LineFormat.withBlocks line r = LineFormat.withBlocks line r' := by
  have text := exchanged.value_of_reserved free "exc_text" (by decide)
  have stack := exchanged.value_of_reserved free "stack_info" (by decide)
  rw [LineFormat.withBlocks, LineFormat.withBlocks, text, stack]

theorem fill (exchanged : Exchanged name v v' r r') {f : LineFormat}
    (hidden : ¬ Template.Shows name (Template.pieces f.template)) : f.fill r = f.fill r' := by
  have tables := (Pairs.Exchanged.refl r.standard).merge exchanged.extra
  rw [LineFormat.fill, LineFormat.fill, ← exchanged.standard]
  have filled : Template.fill f.template (.ofPairs (Pairs.merge r.standard r.extra)) =
      Template.fill f.template (.ofPairs (Pairs.merge r.standard r'.extra)) := by
    refine Template.fill_congr fun d mem => ?_
    cases named : d.key? with
    | none => exact absurd ⟨_, mem, by simp [Template.Piece.shows, named]⟩ hidden
    | some key =>
      refine ⟨key, rfl, tables.get?_of_ne ?_⟩
      rintro rfl
      exact hidden ⟨_, mem, by simp [Template.Piece.shows, named]⟩
  rw [filled]

theorem ended (exchanged : Exchanged name v v' r r') (free : name ∉ reserved) {f : LineFormat}
    (hidden : ¬ Template.Shows name (Template.pieces f.template)) :
    (f.ended r).1 = (f.ended r').1 ∧ Exchanged name v v' (f.ended r).2 (f.ended r').2 := by
  have reported := exchanged.withReport free
  rw [LineFormat.ended, LineFormat.ended, ← exchanged.fill hidden]
  cases f.fill r with
  | error e => exact ⟨rfl, exchanged⟩
  | ok line => exact ⟨reported.withBlocks free line, reported⟩

/-- A line that does not show the attribute is the same for both records. -/
theorem render (exchanged : Exchanged name v v' r r') (free : name ∉ reserved) {f : LineFormat}
    (hidden : ¬ Template.Shows name (Template.pieces f.template)) :
    (f.render r).1 = (f.render r').1 ∧ Exchanged name v v' (f.render r).2 (f.render r').2 := by
  rw [LineFormat.render_eq, LineFormat.render_eq, ← exchanged.message free]
  cases r.message with
  | error e => exact ⟨rfl, exchanged⟩
  | ok message =>
    have attached := exchanged.attach "message" (.text message)
    dsimp only
    rw [← attached.timeText free f]
    by_cases uses : f.usesTime = true
    · simp only [uses, if_true]
      cases f.timeText (r.attach "message" (.text message)) with
      | error e => exact ⟨rfl, attached⟩
      | ok time => exact (attached.attach "asctime" (.text time)).ended free hidden
    · simp only [uses]
      exact attached.ended free hidden

/-! ### JSON objects -/

theorem isoTime (exchanged : Exchanged name v v' r r') (free : name ∉ reserved) :
    r.isoTime = r'.isoTime := by
  rw [LogRecord.isoTime, LogRecord.isoTime, exchanged.time free]

theorem members (exchanged : Exchanged name v v' r r') (free : name ∉ reserved) :
    (∃ e, r.members = .error e ∧ r'.members = .error e) ∨
      ∃ ms ms', r.members = .ok ms ∧ r'.members = .ok ms' ∧ Pairs.Exchanged name v v' ms ms' := by
  have level := exchanged.value_of_reserved free "levelname" (by decide)
  have logger := exchanged.value_of_reserved free "name" (by decide)
  have place := exchanged.value_of_reserved free "module" (by decide)
  have function := exchanged.value_of_reserved free "funcName" (by decide)
  have line := exchanged.value_of_reserved free "lineno" (by decide)
  rw [LogRecord.members, LogRecord.members, ← exchanged.isoTime free, ← exchanged.message free,
    ← level, ← logger, ← place, ← function, ← line, ← exchanged.error?]
  cases r.isoTime with
  | error e => exact .inl ⟨e, rfl, rfl⟩
  | ok time =>
    cases r.message with
    | error e => exact .inl ⟨e, rfl, rfl⟩
    | ok message =>
      exact .inr ⟨_, _, rfl, rfl,
        (Pairs.Exchanged.refl _).merge (exchanged.extra.filter fun name => !reserved.contains name)⟩

end Exchanged

/-- An attached attribute is a member. -/
theorem get?_members {r : LogRecord} {ms : List (String × Value)} {name : String} {v : Value}
    (made : r.members = .ok ms) (free : name ∉ reserved) (distinct : (r.extra.map Prod.fst).Nodup)
    (there : Pairs.get? name r.extra = some v) : Pairs.get? name ms = some v := by
  rw [LogRecord.members] at made
  cases time : r.isoTime with
  | error e =>
    rw [time] at made
    cases made
  | ok time' =>
    cases message : r.message with
    | error e =>
      rw [time, message] at made
      cases made
    | ok message' =>
      rw [time, message] at made
      cases made
      have kept : (fun name => !reserved.contains name) name = true := by simpa using free
      have distinct' := distinct.sublist
        ((List.filter_sublist (p := fun entry => !reserved.contains entry.1)).map Prod.fst)
      rw [Pairs.get?_merge, Pairs.ofList_eq_self distinct',
        Pairs.get?_filter (p := fun name => !reserved.contains name) kept, there, Option.some_or]

end LogRecord

/-! ## Documents -/

namespace Value

variable {k s s' : String} {table table' : List (String × Value)}

/-- The entries of a table whose keys are texts. -/
def textEntries (table : List (String × Value)) : List (Value × Value) :=
  table.map fun (k, v) => (.text k, v)

theorem toMembers_cons (rule : ForeignRule) (entry : String × Value)
    (table : List (String × Value)) :
    toMembers rule (textEntries (entry :: table)) = match toJson rule entry.2 with
      | .error e => .error e
      | .ok member => (toMembers rule (textEntries table)).map ((entry.1, member) :: ·) := by
  rw [textEntries, List.map_cons, toMembers]
  dsimp only [toMember]
  cases toJson rule entry.2 <;> rfl

/-- The members of tables that differ in a text do so too. -/
theorem toMembers_exchanged (rule : ForeignRule)
    (exchanged : Pairs.Exchanged k (.text s) (.text s') table table') :
    (∃ e, toMembers rule (textEntries table) = .error e ∧
      toMembers rule (textEntries table') = .error e) ∨
    ∃ ms ms', toMembers rule (textEntries table) = .ok ms ∧
      toMembers rule (textEntries table') = .ok ms' ∧
      Pairs.Exchanged k (.text s) (.text s') ms ms' := by
  induction exchanged with
  | nil => exact .inr ⟨[], [], rfl, rfl, .nil⟩
  | @cons entry entry' rest rest' here _ ih =>
    obtain ⟨key, value⟩ := entry
    obtain ⟨key', value'⟩ := entry'
    obtain ⟨rfl, values⟩ := here
    rw [toMembers_cons, toMembers_cons]
    have documents : (∃ e, toJson rule value = .error e ∧ toJson rule value' = .error e) ∨
        ∃ m m', toJson rule value = .ok m ∧ toJson rule value' = .ok m' ∧
          (m = m' ∨ key = k ∧ m = .text s ∧ m' = .text s') := by
      rcases values with rfl | ⟨same, rfl, rfl⟩
      · cases toJson rule value with
        | error e => exact .inl ⟨e, rfl, rfl⟩
        | ok m => exact .inr ⟨m, m, rfl, rfl, .inl rfl⟩
      · exact .inr ⟨.text s, .text s', by rw [toJson], by rw [toJson], .inr ⟨same, rfl, rfl⟩⟩
    rcases documents with ⟨e, failed, failed'⟩ | ⟨m, m', made, made', exchange⟩
    · rw [failed, failed']
      exact .inl ⟨e, rfl, rfl⟩
    · rw [made, made']
      rcases ih with ⟨e, failed, failed'⟩ | ⟨ms, ms', rests, rests', later⟩
      · rw [failed, failed']
        exact .inl ⟨e, rfl, rfl⟩
      · rw [rests, rests']
        exact .inr ⟨_, _, rfl, rfl, .cons ⟨rfl, exchange⟩ later⟩

/-- The members of a table have its keys, and the documents of its values. -/
theorem toMembers_eq_ok {rule : ForeignRule} {ms : List (String × Json)} :
    toMembers rule (textEntries table) = .ok ms ↔
      List.Forall₂ (fun entry m => m.1 = entry.1 ∧ toJson rule entry.2 = .ok m.2) table ms := by
  induction table generalizing ms with
  | nil =>
    rw [List.forall₂_nil_left_iff]
    exact ⟨fun made => (Except.ok.inj made).symm, fun none => none ▸ rfl⟩
  | cons entry rest ih =>
    rw [toMembers_cons, List.forall₂_cons_left_iff]
    cases first : toJson rule entry.2 with
    | error e =>
      refine ⟨nofun, ?_⟩
      rintro ⟨m, -, ⟨-, made⟩, -, -⟩
      cases made
    | ok d =>
      constructor
      · intro made
        cases others : toMembers rule (textEntries rest) with
        | error e =>
          rw [others] at made
          cases made
        | ok ms' =>
          rw [others] at made
          exact ⟨(entry.1, d), ms', ⟨rfl, rfl⟩, ih.mp others, (Except.ok.inj made).symm⟩
      · rintro ⟨⟨key, d'⟩, ms', ⟨rfl, made⟩, others, rfl⟩
        rw [ih.mpr others, Except.ok.inj made]
        rfl

theorem keys_toMembers {rule : ForeignRule} {ms : List (String × Json)}
    (made : toMembers rule (textEntries table) = .ok ms) :
    ms.map Prod.fst = table.map Prod.fst := by
  induction toMembers_eq_ok.mp made with
  | nil => rfl
  | cons here _ ih => rw [List.map_cons, List.map_cons, here.1, ih (toMembers_eq_ok.mpr ‹_›)]

theorem get?_toMembers {rule : ForeignRule} {ms : List (String × Json)} {v : Value}
    (made : toMembers rule (textEntries table) = .ok ms) (there : Pairs.get? k table = some v) :
    ∃ d, toJson rule v = .ok d ∧ Pairs.get? k ms = some d := by
  have members := toMembers_eq_ok.mp made
  induction members with
  | nil => cases there
  | @cons entry m rest ms here _ ih =>
    rw [Pairs.get?] at there ⊢
    rw [here.1]
    split at there
    · rename_i same
      rw [if_pos same, ← Option.some.inj there]
      exact ⟨m.2, here.2, rfl⟩
    · rename_i other
      rw [if_neg other]
      exact ih (toMembers_eq_ok.mpr ‹_›) there

end Value

namespace Json

variable {k s s' : String} {ms ms' : List (String × Json)}

/-- What stands behind a member. -/
def writeBehind (alphabet : Alphabet) : List (String × Json) → String
  | [] => ""
  | later => ", " ++ writeMembers alphabet later

theorem writeMembers_cons (alphabet : Alphabet) (entry : String × Json)
    (later : List (String × Json)) :
    writeMembers alphabet (entry :: later) =
      quote alphabet entry.1 ++ ": " ++ (write alphabet entry.2 ++ writeBehind alphabet later) := by
  obtain ⟨key, member⟩ := entry
  cases later with
  | nil => rw [writeMembers, writeBehind, String.append_empty]
  | cons entry later => simp only [writeMembers, writeBehind, String.append_assoc]

theorem fits_exchanged (limit? : Option Nat)
    (exchanged : Pairs.Exchanged k (.text s) (.text s') ms ms') :
    (object ms).fits limit? = (object ms').fits limit? := by
  rw [fits_object, fits_object]
  induction exchanged with
  | nil => rfl
  | cons here _ ih =>
    rw [List.all_cons, List.all_cons, ih]
    rcases here.2 with same | ⟨-, text, text'⟩
    · rw [same]
    · rw [text, text']
      rfl

/-- Objects that are written alike show the same where they differ in a text. -/
theorem quote_of_writeMembers {alphabet : Alphabet}
    (exchanged : Pairs.Exchanged k (.text s) (.text s') ms ms')
    (there : Pairs.get? k ms = some (.text s)) (there' : Pairs.get? k ms' = some (.text s'))
    (same : writeMembers alphabet ms = writeMembers alphabet ms') :
    ∃ x x', quote alphabet s ++ x = quote alphabet s' ++ x' := by
  induction exchanged with
  | nil => cases there
  | @cons entry entry' rest rest' here _ ih =>
    obtain ⟨key, value⟩ := entry
    obtain ⟨key', value'⟩ := entry'
    obtain ⟨rfl, values⟩ := here
    rw [writeMembers_cons, writeMembers_cons] at same
    have behind := (String.append_right_inj _).1 same
    rw [Pairs.get?] at there there'
    split at there
    · rename_i found
      rw [if_pos found] at there'
      cases there
      cases there'
      rw [write, write] at behind
      exact ⟨_, _, behind⟩
    · rename_i other
      rw [if_neg other] at there'
      rcases values with rfl | ⟨key, -, -⟩
      · have later := (String.append_right_inj _).1 behind
        cases rest with
        | nil => cases there
        | cons first rest =>
          cases rest' with
          | nil => cases there'
          | cons first' rest' => exact ih there there' ((String.append_right_inj _).1 later)
      · exact absurd (by simpa using key) other

end Json

/-! ## What records show -/

section

variable {name : String} {r r' : LogRecord}

/-- The JSON objects of both records are written or not, and show the texts if they are alike. -/
theorem LogRecord.Exchanged.structured {s s' : String} (free : name ∉ LogRecord.reserved)
    (exchanged : LogRecord.Exchanged name (.text s) (.text s') r r')
    (distinct : (r.extra.map Prod.fst).Nodup) (distinct' : (r'.extra.map Prod.fst).Nodup)
    (there : Pairs.get? name r.extra = some (.text s))
    (there' : Pairs.get? name r'.extra = some (.text s')) :
    (∃ e, r.structured = .error e ∧ r'.structured = .error e) ∨
      ∃ line line', r.structured = .ok line ∧ r'.structured = .ok line' ∧
        (line = line' → ∃ x x', Json.quote .unicode s ++ x = Json.quote .unicode s' ++ x') := by
  rw [LogRecord.structured, LogRecord.structured]
  rcases exchanged.members free with ⟨e, failed, failed'⟩ | ⟨ms, ms', made, made', members⟩
  · rw [failed, failed']
    exact .inl ⟨e, rfl, rfl⟩
  · rw [made, made']
    dsimp only [Value.ofPairs]
    rw [Value.toJson, Value.toJson]
    rcases Value.toMembers_exchanged .display members with
      ⟨e, failed, failed'⟩ | ⟨js, js', written, written', documents⟩
    · rw [Value.textEntries] at failed failed'
      rw [failed, failed']
      exact .inl ⟨e, rfl, rfl⟩
    · have member := LogRecord.get?_members made free distinct there
      have member' := LogRecord.get?_members made' free distinct' there'
      have document (s : String) : (Value.text s).toJson .display = .ok (.text s) := by rw [Value.toJson]
      obtain ⟨d, made, here⟩ := Value.get?_toMembers written member
      obtain ⟨d', made', here'⟩ := Value.get?_toMembers written' member'
      obtain rfl := Except.ok.inj (made.symm.trans (document s))
      obtain rfl := Except.ok.inj (made'.symm.trans (document s'))
      rw [Value.textEntries] at written written'
      rw [written, written']
      show (∃ e, Json.dump _ _ = .error e ∧ Json.dump _ _ = .error e) ∨
        ∃ line line', Json.dump _ _ = .ok line ∧ Json.dump _ _ = .ok line' ∧ _
      rw [Json.dump, Json.dump, ← Json.fits_exchanged _ documents]
      split
      · refine .inr ⟨_, _, rfl, rfl, fun same => ?_⟩
        rw [Json.write, Json.write, String.append_left_inj, String.append_right_inj] at same
        exact Json.quote_of_writeMembers documents here here' same
      · exact .inl ⟨_, rfl, rfl⟩

namespace Presentation

/-- Whether a presentation shows an attribute attached by a caller. -/
def Shows (name : String) : Presentation → Prop
  | structured => True
  | line format | console format _ => Template.Shows name (Template.pieces format.template)

instance (name : String) (p : Presentation) : Decidable (p.Shows name) :=
  match p with
  | structured => inferInstanceAs (Decidable True)
  | line format | console format _ =>
    inferInstanceAs (Decidable (Template.Shows name (Template.pieces format.template)))

/-- What is not shown does not matter. -/
theorem render_of_not_shows {v v' : Value} {p : Presentation} (hidden : ¬ p.Shows name)
    (free : name ∉ LogRecord.reserved) (exchanged : LogRecord.Exchanged name v v' r r') :
    (p.render r).1 = (p.render r').1 := by
  cases p with
  | structured => exact absurd trivial hidden
  | line format => exact (exchanged.render free hidden).1
  | console format colors =>
    obtain ⟨same, later⟩ := exchanged.render free hidden
    have level := later.value_of_reserved free "levelname" (by decide)
    have palette : Palette.apply (format.render r).2 = Palette.apply (format.render r').2 := by
      funext line
      rw [Palette.apply, Palette.apply, level]
    have rendered (r : LogRecord) : ((console format colors).render r).1 =
        if colors then (format.render r).1.map (Palette.apply (format.render r).2)
        else (format.render r).1 := rfl
    rw [rendered, rendered, same, palette]

end Presentation

end

end GraphClient
