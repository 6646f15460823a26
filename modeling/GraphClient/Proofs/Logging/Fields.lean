import GraphClient.Proofs.Json.Lines
import GraphClient.Proofs.Logging.Attributes

/-!
# Fields of a record that is written as JSON

The object has the record's own fields (`LogRecord.fields`), the report of its error, and the
attributes attached by the caller. A caller can attach nothing under the names of the record's own
attributes (`LogRecord.Attached`), but under the names of the fields, and under `taskName`, which is
not written (`LogRecord.kept`).

* `LogRecord.structured_eq_ok`: what the object is made of.
* `LogRecord.structured_fields`: every other attached attribute is shown, and a field is the record's
  own exactly if no attribute of its name says something else.
* `LogRecord.structured_line`: attributes of other names and values that JSON gives back make one
  line, which is read back as these fields and these attributes.
-/

namespace GraphClient

namespace LogRecord

variable {r : LogRecord} {time message line name : String}

/-- What a record says of itself. -/
def fields (r : LogRecord) (time message : String) : List (String × Value) :=
  [("timestamp", .text time), ("level", .text (levelName r.level)), ("logger", .text r.logger),
   ("message", .text message), ("module", .text r.site.moduleName),
   ("function", .ofOption r.site.function?), ("line", .int r.site.line)]

/-- The names of the fields. -/
def fieldNames : List String :=
  ["timestamp", "level", "logger", "message", "module", "function", "line"]

/-- The report of the error, if there is one. -/
def reported (r : LogRecord) : List (String × Value) :=
  match r.error? with
  | some e => [("exception", .text e.report)]
  | none => []

@[simp] theorem keys_fields (r : LogRecord) (time message : String) :
    (r.fields time message).map Prod.fst = fieldNames := rfl

/-- The names under which a caller can attach nothing: those of the attributes that a record has,
and of the two that are attached to it when a line is written. -/
def refused : List String :=
  ["name", "msg", "args", "levelname", "levelno", "pathname", "filename", "module", "exc_info",
   "exc_text", "stack_info", "lineno", "funcName", "created", "msecs", "relativeCreated", "thread",
   "threadName", "processName", "process", "message", "asctime"]

/-- The attributes of a record that a caller attached: none has a name that is refused, and none is
there twice. -/
structure Attached (r : LogRecord) : Prop where
  free : ∀ name ∈ r.extra.map Prod.fst, name ∉ refused
  distinct : (r.extra.map Prod.fst).Nodup

/-- The attributes that are written as data of the caller. -/
def kept (r : LogRecord) : List (String × Value) :=
  r.extra.filter fun (name, _) => !reserved.contains name

/-- All that is written of a record. -/
def table (r : LogRecord) (time message : String) : List (String × Value) :=
  Pairs.merge (r.fields time message ++ r.reported) r.kept

/-! ## What the object is made of -/

/-- The fields and the report of the error repeat no name. -/
theorem nodup_own (r : LogRecord) (time message : String) :
    ((r.fields time message ++ r.reported).map Prod.fst).Nodup := by
  rw [List.map_append, keys_fields, reported]
  cases r.error? with
  | none => exact (by decide : (fieldNames ++ []).Nodup)
  | some e => exact (by decide : (fieldNames ++ ["exception"]).Nodup)

namespace Attached

theorem value_eq (attached : r.Attached) (listed : name ∈ refused) :
    r.value name = (Pairs.get? name r.standard).getD .null := by
  rw [value, value?, Pairs.get?_of_notMem fun mem => attached.free name mem listed]

/-- Of the names that can be attached, one alone is not written. -/
theorem mem_kept (attached : r.Attached) {v : Value} :
    (name, v) ∈ r.kept ↔ (name, v) ∈ r.extra ∧ name ≠ "taskName" := by
  have only : ∀ name ∈ reserved, name ∉ refused → name = "taskName" := by decide
  rw [kept, List.mem_filter, Bool.not_eq_true', ← Bool.not_eq_true, List.contains_iff_mem]
  refine and_congr_right fun there => not_congr ⟨fun listed => ?_, ?_⟩
  · exact only name listed (attached.free name (List.mem_map_of_mem there))
  · rintro rfl
    decide

theorem distinct_kept (attached : r.Attached) : (r.kept.map Prod.fst).Nodup :=
  attached.distinct.sublist (List.filter_sublist.map Prod.fst)

theorem get?_kept_eq_some (attached : r.Attached) {v : Value} :
    Pairs.get? name r.kept = some v ↔ (name, v) ∈ r.extra ∧ name ≠ "taskName" :=
  ⟨fun found => attached.mem_kept.mp (Pairs.mem_of_get? found),
    fun there => Pairs.get?_of_mem attached.distinct_kept (attached.mem_kept.mpr there)⟩

/-- Nothing is attached under the name of a field that every record has as an attribute. -/
theorem get?_kept_eq_none (attached : r.Attached) (field : name ∈ fieldNames)
    (listed : name ∈ reserved) : Pairs.get? name r.kept = none := by
  have own : ∀ name ∈ fieldNames, name ∈ reserved → name ∈ refused := by decide
  refine Option.eq_none_iff_forall_ne_some.mpr fun v found => ?_
  have there := (attached.get?_kept_eq_some.mp found).1
  exact attached.free name (List.mem_map_of_mem there) (own name field listed)

theorem members_eq (attached : r.Attached) :
    r.members = r.isoTime.bind fun time => r.message.map (r.table time) := by
  have own (name : String) (listed : name ∈ refused) := attached.value_eq listed
  rw [members, own "levelname" (by decide), own "name" (by decide), own "module" (by decide),
    own "funcName" (by decide), own "lineno" (by decide)]
  cases r.isoTime with
  | error e => rfl
  | ok time => cases r.message <;> rfl

/-- What an attribute or a field says in the end. -/
theorem get?_table (attached : r.Attached) (name : String) : Pairs.get? name (r.table time message) =
    (Pairs.get? name r.kept).or (Pairs.get? name (r.fields time message ++ r.reported)) := by
  rw [table, Pairs.get?_merge, Pairs.ofList_eq_self attached.distinct_kept]

theorem taskName_notMem (attached : r.Attached) :
    "taskName" ∉ (r.table time message).map Prod.fst := by
  rw [← Pairs.get?_eq_none_iff, attached.get?_table, Option.or_eq_none_iff]
  constructor
  · exact Option.eq_none_iff_forall_ne_some.mpr fun v found =>
      (attached.get?_kept_eq_some.mp found).2 rfl
  · rw [Pairs.get?_eq_none_iff, List.map_append, keys_fields, reported]
    cases r.error? with
    | none => exact (by decide : "taskName" ∉ fieldNames ++ [])
    | some e => exact (by decide : "taskName" ∉ fieldNames ++ ["exception"])

theorem structured_eq (attached : r.Attached) (moment : r.isoTime = .ok time)
    (said : r.message = .ok message) : r.structured =
      ((Value.ofPairs (r.table time message)).toJson .display).bind (Json.dump .unicode) := by
  rw [structured, attached.members_eq, moment, said]
  rfl

theorem structured_eq_ok (attached : r.Attached) : r.structured = .ok line ↔
    ∃ time message ms, r.isoTime = .ok time ∧ r.message = .ok message ∧
      Value.toMembers .display (Value.textEntries (r.table time message)) = .ok ms ∧
      Json.dump .unicode (.object ms) = .ok line := by
  cases moment : r.isoTime with
  | error e =>
    rw [structured, attached.members_eq, moment]
    constructor
    · rintro ⟨⟩
    · rintro ⟨_, _, _, ⟨⟩, -⟩
  | ok time =>
    cases said : r.message with
    | error e =>
      rw [structured, attached.members_eq, moment, said]
      constructor
      · rintro ⟨⟩
      · rintro ⟨_, _, _, -, ⟨⟩, -⟩
    | ok message =>
      have object : (Value.ofPairs (r.table time message)).toJson .display =
          (Value.toMembers .display (Value.textEntries (r.table time message))).map .object := by
        rw [Value.ofPairs, Value.toJson]
        rfl
      rw [attached.structured_eq moment said, object]
      cases documents : Value.toMembers .display (Value.textEntries (r.table time message)) with
      | error e =>
        constructor
        · rintro ⟨⟩
        · rintro ⟨time', message', ms, ⟨rfl⟩, ⟨rfl⟩, made, -⟩
          cases documents.symm.trans made
      | ok ms =>
        constructor
        · exact fun written => ⟨time, message, ms, rfl, rfl, documents, written⟩
        · rintro ⟨time', message', ms', ⟨rfl⟩, ⟨rfl⟩, made, written⟩
          rw [← Except.ok.inj (documents.symm.trans made)] at written
          exact written

end Attached

/-! ## What the object shows -/

/-- A member of an object is the document of a value. -/
def Shows (ms : List (String × Json)) (name : String) (v : Value) : Prop :=
  ∃ d, v.toJson .display = .ok d ∧ Pairs.get? name ms = some d

/-- An object shows one value under a name at most, up to what is written of it. -/
theorem Shows.toJson_eq {ms : List (String × Json)} {v w : Value} (shows : Shows ms name v)
    (shows' : Shows ms name w) : v.toJson .display = w.toJson .display := by
  obtain ⟨d, made, found⟩ := shows
  obtain ⟨d', made', found'⟩ := shows'
  rw [made, made', Option.some.inj (found.symm.trans found')]

theorem Shows.congr {ms : List (String × Json)} {v w : Value} (shows : Shows ms name v)
    (same : v.toJson .display = w.toJson .display) : Shows ms name w := by
  obtain ⟨d, made, found⟩ := shows
  exact ⟨d, same ▸ made, found⟩

/-- What is written of a record shows every attached attribute under its name but `taskName`, which
is never shown. A field shows what the record says of itself exactly if every attribute of its name
has the same document, and so always if its name is that of an attribute that every record has. -/
theorem structured_fields (attached : r.Attached) (written : r.structured = .ok line) :
    ∃ time message ms, r.isoTime = .ok time ∧ r.message = .ok message ∧
      line = Json.write .unicode (.object ms) ∧ (ms.map Prod.fst).Nodup ∧
      (∀ name v, (name, v) ∈ r.extra → name ≠ "taskName" → Shows ms name v) ∧
      "taskName" ∉ ms.map Prod.fst ∧
      ∀ name v, (name, v) ∈ r.fields time message →
        (Shows ms name v ↔ ∀ w, (name, w) ∈ r.extra → w.toJson .display = v.toJson .display) ∧
        (name ∈ reserved → Shows ms name v) := by
  obtain ⟨time, message, ms, moment, said, made, dumped⟩ := attached.structured_eq_ok.mp written
  have distinct := nodup_own r time message
  have names := Value.keys_toMembers made
  have shown {name v} (found : Pairs.get? name (r.table time message) = some v) : Shows ms name v :=
    Value.get?_toMembers made found
  have extras (name v) (mem : (name, v) ∈ r.extra) (other : name ≠ "taskName") :
      Shows ms name v := by
    refine shown ?_
    rw [attached.get?_table, attached.get?_kept_eq_some.mpr ⟨mem, other⟩, Option.some_or]
  have own (name v) (mem : (name, v) ∈ r.fields time message)
      (absent : Pairs.get? name r.kept = none) : Shows ms name v := by
    refine shown ?_
    rw [attached.get?_table, absent, Option.none_or,
      Pairs.get?_of_mem distinct (List.mem_append_left _ mem)]
  have field {name v} (mem : (name, v) ∈ r.fields time message) : name ∈ fieldNames :=
    keys_fields r time message ▸ List.mem_map_of_mem mem
  have plain : ∀ name ∈ fieldNames, name ≠ "taskName" := by decide
  refine ⟨time, message, ms, moment, said, (Json.dump_eq_ok.mp dumped).2.symm, ?_, extras, ?_,
    fun name v mem => ⟨⟨?_, ?_⟩, ?_⟩⟩
  · rw [names]
    exact Pairs.nodup_merge distinct r.kept
  · exact names ▸ attached.taskName_notMem
  · intro shows w there
    exact (extras name w there (plain name (field mem))).toJson_eq shows
  · intro same
    cases there : Pairs.get? name r.kept with
    | none => exact own name v mem there
    | some w =>
      obtain ⟨pair, other⟩ := attached.get?_kept_eq_some.mp there
      exact (extras name w pair other).congr (same w pair)
  · intro listed
    exact own name v mem (attached.get?_kept_eq_none (field mem) listed)

/-- A record of a call, with attributes of the caller. -/
def ofCall (extra : List (String × Value)) : LogRecord :=
  ⟨"gql_fetch.client", 20, ⟨"/app/mod.py", 42, some "fn", Binary64.ofInt 0⟩,
    .text "sent \"me\"\n", .tuple [], none, extra⟩

theorem isoTime_ofCall {extra : List (String × Value)} (attached : (ofCall extra).Attached) :
    (ofCall extra).isoTime = .ok "1970-01-01T00:00:00" := by
  have created : (ofCall extra).value "created" = .float (Binary64.ofInt 0) :=
    attached.value_eq (by decide)
  have moment : Timestamp.split? (Binary64.ofInt 0) = some (0, 0) := by decide +kernel
  have year : 1 ≤ (Moment.ofSeconds 0).year ∧ (Moment.ofSeconds 0).year ≤ 9999 := by
    decide +kernel
  have iso : (Moment.ofSeconds 0).iso 0 = "1970-01-01T00:00:00" := by decide +kernel
  simp only [isoTime, time, created, moment, if_pos year, iso]

theorem message_ofCall {extra : List (String × Value)} (attached : (ofCall extra).Attached) :
    (ofCall extra).message = .ok "sent \"me\"\n" := by
  rw [message, attached.value_eq (by decide), attached.value_eq (by decide)]
  rfl

theorem structured_fields_ofCall :
    (ofCall [("operation", .text "Me"), ("level", .text "OVERRIDE")]).Attached ∧
      ∃ ms, (ofCall [("operation", .text "Me"), ("level", .text "OVERRIDE")]).structured =
          .ok (Json.write .unicode (.object ms)) ∧
        Shows ms "operation" (.text "Me") ∧ Shows ms "module" (.text "mod") ∧
        Shows ms "logger" (.text "gql_fetch.client") := by
  have attached : (ofCall [("operation", .text "Me"), ("level", .text "OVERRIDE")]).Attached :=
    ⟨by decide, by decide⟩
  have written := attached.structured_eq_ok.mpr
    ⟨_, _, _, isoTime_ofCall attached, message_ofCall attached, rfl, Json.dump_eq_ok.mpr ⟨rfl, rfl⟩⟩
  obtain ⟨time, message, ms, -, -, same, -, extras, -, own⟩ := structured_fields attached written
  have stem : (ofCall []).site.moduleName = "mod" := by decide +kernel
  refine ⟨attached, ms, same ▸ written, extras _ _ List.mem_cons_self (by decide),
    stem ▸ (own "module" _ (by simp [fields, ofCall])).2 (by decide),
    (own "logger" _ (by simp [fields, ofCall])).1.mpr ?_⟩
  intro w mem
  simp [ofCall] at mem

/-- An attribute that takes the place of a field. -/
theorem structured_level_replaced :
    (ofCall [("level", .text "OVERRIDE")]).Attached ∧
      levelName (ofCall [("level", .text "OVERRIDE")]).level = "INFO" ∧
      ∃ ms, (ofCall [("level", .text "OVERRIDE")]).structured =
          .ok (Json.write .unicode (.object ms)) ∧
        Pairs.get? "level" ms = some (.text "OVERRIDE") := by
  have attached : (ofCall [("level", .text "OVERRIDE")]).Attached := ⟨by decide, by decide⟩
  exact ⟨attached, rfl, _, attached.structured_eq_ok.mpr ⟨_, _, _, isoTime_ofCall attached,
    message_ofCall attached, rfl, Json.dump_eq_ok.mpr ⟨rfl, rfl⟩⟩, rfl⟩

/-! ## One line for one record -/

/-- The number of the record's line can be written. -/
def ShortLine (r : LogRecord) : Prop := (Json.int r.site.line).fits (some Decimal.digitLimit)

instance (r : LogRecord) : Decidable r.ShortLine := inferInstanceAs (Decidable (_ = true))

theorem faithful_own (short : r.ShortLine) (time message : String) :
    ∀ entry ∈ r.fields time message ++ r.reported, entry.2.Faithful := by
  have function : (Value.ofOption r.site.function?).Faithful := by
    cases r.site.function? with
    | none => exact .null
    | some name => exact .text name
  have reported : ∀ entry ∈ r.reported, entry.2.Faithful := by
    rw [LogRecord.reported]
    cases r.error? with
    | none => exact List.forall_mem_nil _
    | some e => exact List.forall_mem_singleton.mpr (.text _)
  refine List.forall_mem_append.mpr ⟨?_, reported⟩
  simp only [fields, List.forall_mem_cons]
  exact ⟨.text _, .text _, .text _, .text _, .text _, function, .int short, List.forall_mem_nil _⟩

/-- A record with attributes of values that JSON gives back is written on one line, from which all
that is written of the record is read back. -/
theorem Attached.load_structured (attached : r.Attached) (short : r.ShortLine)
    (faithful : ∀ entry ∈ r.kept, entry.2.Faithful) (moment : r.isoTime = .ok time)
    (said : r.message = .ok message) :
    ∃ line, r.structured = .ok line ∧ Json.Visible line ∧
      (Json.load line).map Json.toValue = .ok (.ofPairs (r.table time message)) ∧
      ((r.table time message).map Prod.fst).Nodup := by
  have distinct : ((r.table time message).map Prod.fst).Nodup :=
    Pairs.nodup_merge (nodup_own r time message) r.kept
  have all : ∀ entry ∈ r.table time message, entry.2.Faithful := by
    intro entry mem
    rcases Pairs.mem_values_merge (List.mem_map_of_mem mem) with there | there
    · obtain ⟨entry', mem', same⟩ := List.mem_map.mp there
      exact same ▸ faithful_own short time message entry' mem'
    · obtain ⟨entry', mem', same⟩ := List.mem_map.mp there
      exact same ▸ faithful entry' mem'
  obtain ⟨d, line, made, dumped, visible, decoded⟩ :=
    (Value.Faithful.table distinct all).load_dump .display .unicode
  refine ⟨line, ?_, visible, decoded, distinct⟩
  rw [attached.structured_eq moment said, made]
  exact dumped

/-- A reply with the end of a line and a quote in it, at some depth. -/
def sampleReply : Value := .list [.ofPairs [("a\n\"b", .int (-3))], .null]

theorem structured_number {n : Int} (long : (Json.int n).fits (some Decimal.digitLimit) = false) :
    (ofCall [("number", .int n)]).Attached ∧
      (ofCall [("number", .int n)]).structured = .error .integerNotWritten := by
  have attached : (ofCall [("number", .int n)]).Attached :=
    ⟨(by decide : ∀ name ∈ ["number"], name ∉ refused), List.nodup_singleton _⟩
  refine ⟨attached, ?_⟩
  rw [attached.structured_eq (isoTime_ofCall attached) (message_ofCall attached)]
  refine if_neg ?_
  rw [Json.fits_object]
  intro all
  have fits := List.all_eq_true.mp all ("number", .int n) (by simp)
  rw [long] at fits
  cases fits

end LogRecord

end GraphClient
