import GraphClient.Proofs.Logging.Attributes
import GraphClient.Proofs.Logging.Levels

/-!
# What comes out on the console

After a set-up on a fresh log a record passes two thresholds on its way to the console: the level of
its logger, and the level of the console's handler, which is the general one of the settings.

* `LogSystem.console_log`: if the handler of the console comes first, and only handlers of files
  after it, the console gets the line of a record exactly if both are passed.
* `LogManager.console_log_of_setUp`: so it is after a set-up, where the first one is
  `LoggingSettings.levelFor`. A component that is to say more than the general level does not.
-/

namespace GraphClient

/-! ## One record on the console -/

namespace LogSystem

/-- No logger has a level, and no handler is attached. -/
structure IsFresh (s : LogSystem) : Prop where
  levels : s.loggers.levels = []
  attached : s.attached = []

/-- The record of what is logged. -/
def recordOf (s : LogSystem) (logger : String) (level : Int) (template arguments : Value) :
    Except Failure LogRecord :=
  LogRecord.make (if Loggers.isRoot logger then Loggers.rootName else logger) level s.site template
    arguments none

end LogSystem

/-- What is written of a text: its line, or nothing if there is no text. -/
def LogHandler.lineOf : Except Failure String → String
  | .ok text => text ++ "\n"
  | .error _ => ""

/-- The line of a record that may not have been made. -/
def Presentation.lineOf (p : Presentation) (made : Except Failure LogRecord) : String :=
  LogHandler.lineOf ((made.bind LogRecord.masked).bind fun r => (p.render r).1)

theorem LogRecord.level_of_make {logger : String} {level : Int} {site : LogSite}
    {template arguments : Value} {error? : Option Raise} {r : LogRecord}
    (made : LogRecord.make logger level site template arguments error? = .ok r) :
    r.level = level := by
  rw [LogRecord.make] at made
  cases unpacked : LogRecord.unpack arguments with
  | error e => rw [unpacked] at made; cases made
  | ok unpacked' => rw [unpacked] at made; cases made; rfl

namespace LogSystem

theorem console_handle {h : LogHandler} (console : h.target = .console) (r : LogRecord)
    (s : LogSystem) : (s.handle h r).2.console =
      s.console ++ LogHandler.lineOf (h.presentation.render r).1 := by
  unfold handle
  dsimp only
  cases (h.presentation.render r).1 with
  | error e => rw [LogHandler.lineOf, String.append_empty]
  | ok text => rw [console]; rfl

theorem console_handle_of_file {h : LogHandler} {f : LogFile} (file : h.target = .file f)
    (r : LogRecord) (s : LogSystem) : (s.handle h r).2.console = s.console := by
  unfold handle
  dsimp only
  split
  · rw [file]
    rfl
  · rfl

/-- Handlers of files write nothing on the console. -/
theorem console_deliver_of_files {places : List Nat} (r : LogRecord) {s : LogSystem}
    (files : ∀ n ∈ places, ∀ h, s.handlers[n]? = some h → ∃ f, h.target = .file f) :
    (deliver r s places).2.console = s.console := by
  induction places generalizing r s with
  | nil => rfl
  | cons n rest ih =>
    have later : ∀ n ∈ rest, ∀ h, s.handlers[n]? = some h → ∃ f, h.target = .file f :=
      fun n mem => files n (List.mem_cons_of_mem _ mem)
    rw [deliver]
    split
    · exact ih r later
    · rename_i h there
      split
      · exact ih r later
      · split
        · rfl
        · rename_i masked _
          obtain ⟨f, file⟩ := files n List.mem_cons_self h there
          have same := (written_handle h masked s).handlers
          rw [ih _ (by rw [same]; exact later), console_handle_of_file file]

/-- A handler of the console comes first, and only handlers of files after it. -/
def ConsoleFirst (s : LogSystem) (h : LogHandler) : Prop :=
  ∃ n rest, s.attached = n :: rest ∧ s.handlers[n]? = some h ∧ h.target = .console ∧
    ∀ n ∈ rest, ∀ h', s.handlers[n]? = some h' → ∃ f, h'.target = .file f

theorem console_deliver {s : LogSystem} {h : LogHandler} (first : s.ConsoleFirst h)
    (r : LogRecord) : (deliver r s s.attached).2.console =
      s.console ++ if h.level ≤ r.level then h.presentation.lineOf (.ok r) else "" := by
  obtain ⟨n, rest, attached, there, console, files⟩ := first
  rw [attached, deliver, there]
  dsimp only
  split
  · rename_i low
    rw [console_deliver_of_files r files, if_neg (by omega), String.append_empty]
  · rename_i high
    rw [if_pos (by omega), Presentation.lineOf]
    simp only [Except.bind]
    cases r.masked with
    | error e => rw [LogHandler.lineOf, String.append_empty]
    | ok masked =>
      have same := (written_handle h masked s).handlers
      dsimp only
      rw [console_deliver_of_files _ (by rw [same]; exact files), console_handle console]

/-- What is logged comes out on the console if it passes the level of the logger and that of the
console's handler. -/
theorem console_log {s : LogSystem} {h : LogHandler} (first : s.ConsoleFirst h)
    (positive : 0 < h.level) (logger : String) (level : Int) (template arguments : Value) :
    (s.log logger level template arguments).2.console = s.console ++
      if h.level ≤ level ∧ s.loggers.effective logger ≤ level then
        h.presentation.lineOf (s.recordOf logger level template arguments) else "" := by
  unfold log
  split
  · rename_i enabled
    obtain ⟨-, taken⟩ := of_decide_eq_true enabled
    rw [recordOf]
    cases made : LogRecord.make (if Loggers.isRoot logger then Loggers.rootName else logger) level
        s.site template arguments none with
    | error e =>
      simp only [made, Presentation.lineOf, LogHandler.lineOf, Except.bind, ite_self,
        String.append_empty]
    | ok r =>
      have same : r.level = level := LogRecord.level_of_make made
      simp only [made, console_deliver first, same, taken, and_true]
  · rename_i disabled
    rw [if_neg, String.append_empty]
    rintro ⟨high, taken⟩
    exact disabled (decide_eq_true ⟨by omega, taken⟩)

end LogSystem

/-! ## After a set-up -/

namespace LogManager

/-- The handler of the console comes first, and after it at most that of a file. -/
theorem plan_console {settings : LoggingSettings} {colors : Bool} {files : FileTree}
    (console : settings.enableConsole = true)
    (ends : (plan settings colors files).result = .ok ()) :
    ∃ p rest, presentation settings (some colors) = .ok p ∧
      (plan settings colors files).handlers =
        ("console", ⟨settings.level.number, p, .console, false⟩) :: rest ∧
      ∀ h ∈ rest, ∃ f, h.2.target = .file f := by
  rw [plan, Plan.andThen] at ends ⊢
  rw [planConsole, if_pos console] at ends ⊢
  cases made : presentation settings (some colors) with
  | error e => rw [made] at ends; cases ends
  | ok p =>
    rw [made] at ends
    refine ⟨p, _, rfl, rfl, fun h mem => ?_⟩
    rcases installs_planFile settings files with none | ⟨h', one, -, -, file⟩
    · exact absurd (none ▸ mem) List.not_mem_nil
    · cases List.mem_singleton.1 (one ▸ mem)
      exact file

theorem cleared_initial (s : LogSystem) : cleared (initial, s) = (initial, s) := rfl

/-- On a fresh log the settings decide alone who takes a record. -/
theorem consoleFirst_of_setUp {settings : LoggingSettings} {m : LogManager} {s₀ s : LogSystem}
    (console : settings.enableConsole = true) (fresh : s₀.IsFresh)
    (ends : run (setUp settings) (initial, s₀) = (.ok (), m, s)) :
    s.loggers = leveled settings.componentLevels ⟨settings.level.number, []⟩ ∧
      ∃ p, presentation settings (some s₀.showsColors) = .ok p ∧
        s.ConsoleFirst ⟨settings.level.number, p, .console, false⟩ := by
  have follows := setUp_follows settings (initial, s₀)
  rw [ends] at follows
  obtain ⟨p, rest, made, planned, files⟩ := plan_console console follows.ends.symm
  obtain ⟨-, -, -, handlers, attached, loggers, -⟩ := follows
  dsimp only at handlers attached loggers
  rw [planned, cleared_initial, List.map_cons] at handlers
  rw [planned, cleared_initial, fresh.attached, List.length_cons, List.range'_succ,
    List.nil_append] at attached
  rw [fresh.levels] at loggers
  refine ⟨loggers, p, made, _, _, attached, ?_, rfl, fun n mem h there => ?_⟩
  · rw [handlers, List.getElem?_append_right (Nat.le_refl _), Nat.sub_self]
    rfl
  · obtain ⟨k, rfl⟩ := Nat.exists_eq_add_of_le (List.mem_range'_1.1 mem).1
    rw [handlers, List.getElem?_append_right (by omega),
      show s₀.handlers.length + 1 + k - s₀.handlers.length = k + 1 by omega,
      List.getElem?_cons_succ, List.getElem?_map, Option.map_eq_some_iff] at there
    obtain ⟨named, there, rfl⟩ := there
    exact files named (List.mem_of_getElem? there)

/-- After a set-up on a fresh log, a record comes out on the console exactly if its level reaches
the general level and the one that the settings give to its logger. -/
theorem console_log_of_setUp {settings : LoggingSettings} {m : LogManager} {s₀ s : LogSystem}
    (console : settings.enableConsole = true)
    (named : ∀ c ∈ settings.componentLevels, Loggers.isRoot c.1 = false) (fresh : s₀.IsFresh)
    (ends : run (setUp settings) (initial, s₀) = (.ok (), m, s)) :
    ∃ p, presentation settings (some s₀.showsColors) = .ok p ∧
      ∀ logger level template arguments,
        (s.log logger level template arguments).2.console = s.console ++
          if settings.level.number ≤ level ∧ settings.levelFor logger ≤ level then
            p.lineOf (s.recordOf logger level template arguments) else "" := by
  obtain ⟨loggers, p, made, first⟩ := consoleFirst_of_setUp console fresh ends
  refine ⟨p, made, fun logger level template arguments => ?_⟩
  rw [LogSystem.console_log first settings.level.number_pos, loggers, effective_leveled named]

/-! A component may say less than the others, but not more. -/

/-- Settings that write messages only. -/
def messagesOf (component : String) (level : LogLevel) : LoggingSettings :=
  { LoggingSettings.default with format := "%(message)s", componentLevels := [(component, level)] }

theorem fresh_unused : unused.IsFresh := ⟨rfl, rfl⟩

theorem presentation_messagesOf (component : String) (level : LogLevel) (colors : Bool) :
    presentation (messagesOf component level) (some colors) =
      .ok (.console ⟨"%(message)s", none⟩ colors) := by
  have field : LineFormat.hasField "%(message)s".toList = true := by decide +kernel
  have given : "%(message)s".isEmpty = false := by decide +kernel
  have made : LineFormat.make "%(message)s" none = .ok ⟨"%(message)s", none⟩ := by
    simp only [LineFormat.make, given, Bool.false_eq_true, if_false, field, if_true, Option.filter]
  have unstructured : (messagesOf component level).enableStructured = false := rfl
  rw [presentation, unstructured, if_neg Bool.false_ne_true]
  exact congrArg (Except.map _) made

/-- A set-up with these settings succeeds. -/
theorem run_setUp_messagesOf (component : String) (level : LogLevel) :
    ∃ m s, run (setUp (messagesOf component level)) (initial, unused) = (.ok (), m, s) ∧
      s.site = unused.site := by
  have follows := setUp_follows (messagesOf component level) (initial, unused)
  have console : planConsole (messagesOf component level) false .empty =
      .single "console" LogLevel.info.number .console .empty
        (.ok (.console ⟨"%(message)s", none⟩ false)) := by
    rw [← presentation_messagesOf component level false]
    rfl
  have planned : (plan (messagesOf component level) false .empty).result = .ok () := by
    rw [plan, console]
    rfl
  exact ⟨_, _, Prod.ext (follows.ends.trans planned) rfl, follows.site⟩

open Template in
/-- The template that names the message alone. -/
theorem fill_message {table : List (String × Value)} {s : String}
    (found : Pairs.get? "message" table = some (.text s)) :
    Template.fill "%(message)s" (.ofPairs table) = .ok s := by
  let d : Directive := ⟨some "message", ⟨false, false, false, false, false⟩, none, none, some 's'⟩
  have pieces : pieces "%(message)s" = [.directive d] := by decide +kernel
  have chosen : (Source.ofValue (.ofPairs table)).chosen d = .ok [.text s] := by
    show (entryOf (.ofPairs table) "message").map _ = _
    rw [entryOf_ofPairs, found]
    rfl
  have bare (s : String) : (⟨d.flags, 0, none⟩ : Measure).text s = s := by
    simp [Measure.text, Measure.padText, d, repeated]
  have written : (Source.ofValue (.ofPairs table)).write d = .ok (s, []) := by
    rw [Source.write, chosen]
    exact congrArg (fun s => Except.ok (s, [])) (bare s)
  rw [Template.fill, pieces, Source.fill, written]
  exact congrArg Except.ok String.append_empty

/-- The line of an empty message. -/
theorem lineOf_empty : (Presentation.console ⟨"%(message)s", none⟩ false).lineOf
    (unused.recordOf "a" 10 (.text "") (.tuple [])) = "\n" := by
  let r : LogRecord := ⟨"a", 10, unused.site, .text "", .tuple [], none, []⟩
  let f : LineFormat := ⟨"%(message)s", none⟩
  have made : unused.recordOf "a" 10 (.text "") (.tuple []) = .ok r := rfl
  have hidden : Mask.apply "" = "" := by decide +kernel
  have message : r.message = .ok "" := rfl
  have masked : r.masked = .ok r := by
    rw [LogRecord.masked, message]
    show Except.ok (r.withMessage (Mask.apply "")) = _
    rw [hidden]
    rfl
  have untimed : f.usesTime = false := by decide +kernel
  have filled : f.fill (r.attach "message" (.text "")) = .ok "" := by
    rw [LineFormat.fill, fill_message (by rw [Pairs.get?_merge]; rfl)]
  have rendered : (f.render r).1 = .ok "" := by
    rw [LineFormat.render, message]
    simp only [untimed, Bool.false_eq_true, if_false, filled]
    rfl
  rw [made, Presentation.lineOf]
  simp only [Except.bind, masked, Presentation.render, Bool.false_eq_true, if_false]
  rw [rendered]
  rfl

theorem console_log_of_setUp_less :
    ∃ m s, run (setUp (messagesOf "a" .error)) (initial, unused) = (.ok (), m, s) ∧
      ∀ template arguments,
        (s.log "a.b" 30 template arguments).2.console = s.console ∧
        (s.log "b" 30 template arguments).2.console = s.console ++
          (Presentation.console ⟨"%(message)s", none⟩ false).lineOf
            (s.recordOf "b" 30 template arguments) := by
  obtain ⟨m, s, ends, -⟩ := run_setUp_messagesOf "a" .error
  obtain ⟨p, made, logged⟩ := console_log_of_setUp rfl (by decide) fresh_unused ends
  cases made.symm.trans (presentation_messagesOf "a" .error false)
  have below : (messagesOf "a" .error).levelFor "a.b" = 40 := by decide +kernel
  have other : (messagesOf "a" .error).levelFor "b" = 20 := by decide +kernel
  refine ⟨m, s, ends, fun template arguments => ⟨?_, ?_⟩⟩
  · rw [logged, below, if_neg (by decide), String.append_empty]
  · rw [logged, other, if_pos (by decide)]

/-- The settings give the component a level that the record reaches, and the record has a line, but
the console's handler leaves it out. -/
theorem console_log_more :
    ∃ m s, run (setUp (messagesOf "a" .debug)) (initial, unused) = (.ok (), m, s) ∧
      (messagesOf "a" .debug).levelFor "a" = 10 ∧
      (Presentation.console ⟨"%(message)s", none⟩ false).lineOf
        (s.recordOf "a" 10 (.text "") (.tuple [])) = "\n" ∧
      (s.log "a" 10 (.text "") (.tuple [])).2.console = s.console := by
  obtain ⟨m, s, ends, site⟩ := run_setUp_messagesOf "a" .debug
  obtain ⟨-, p, -, first⟩ := consoleFirst_of_setUp rfl fresh_unused ends
  have low : ¬ LogLevel.info.number ≤ 10 := by decide
  refine ⟨m, s, ends, by decide +kernel, ?_, ?_⟩
  · rw [← lineOf_empty, LogSystem.recordOf, LogSystem.recordOf, site]
  · rw [LogSystem.console_log first (LogLevel.number_pos .info),
      if_neg fun passes => low passes.1, String.append_empty]

end LogManager

end GraphClient
