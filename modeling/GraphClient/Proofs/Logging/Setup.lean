import GraphClient.Proofs.Logging.Delivery

/-!
# What the calls of a manager do

* `LogManager.run` is how a step of a manager ends and what it leaves.
* `LogManager.plan` says what a set-up will do: which handlers it installs, and where it fails. It
  depends on the settings, on the files and on the colours of the console, and not on what was set
  up before.
* `LogManager.setUp_follows`: a set-up clears away what the manager had set up, follows its plan,
  and gives the levels of components if nothing failed.
-/

namespace GraphClient

namespace LogManager

/-! ## Steps -/

/-- How a step ends, and what it leaves. -/
def run {α : Type} (a : Action α) (st : LogManager × LogSystem) :
    Except Failure α × (LogManager × LogSystem) :=
  Id.run ((ExceptT.run a).run st)

section Steps

variable {α β : Type} {st : LogManager × LogSystem}

theorem run_bind (a : Action α) (f : α → Action β) :
    run (a >>= f) st = match run a st with
      | (.ok x, st') => run (f x) st'
      | (.error e, st') => (.error e, st') := by
  unfold run
  simp only [bind, ExceptT.bind, ExceptT.run, ExceptT.mk, StateT.run, StateT.bind, Id.run]
  rcases (a : StateM _ _) st with ⟨result, st'⟩
  cases result <;> rfl

theorem run_bind_of_ok {a : Action α} {x : α} {st' : LogManager × LogSystem}
    (h : run a st = (.ok x, st')) (f : α → Action β) : run (a >>= f) st = run (f x) st' := by
  rw [run_bind, h]

theorem run_get_bind (f : LogManager × LogSystem → Action β) :
    run (get >>= f) st = run (f st) st := rfl

theorem run_onSystem_bind (g : LogSystem → LogSystem) (f : Unit → Action β) :
    run (onSystem g >>= f) st = run (f ()) (st.1, g st.2) := rfl

theorem run_onManager_bind (g : LogManager → LogManager) (f : Unit → Action β) :
    run (onManager g >>= f) st = run (f ()) (g st.1, st.2) := rfl

theorem run_ok_bind (x : α) (f : α → Action β) : run (ofExcept (.ok x) >>= f) st = run (f x) st :=
  rfl

theorem run_error_bind (e : Failure) (f : α → Action β) :
    run (ofExcept (.error e) >>= f) st = (.error e, st) := rfl

theorem run_ofExcept (x : Except Failure α) : run (ofExcept x) st = (x, st) := by
  cases x <;> rfl

theorem run_log (logger : String) (level : Int) (template arguments : Value) :
    run (log logger level template arguments) st =
      ((st.2.log logger level template arguments).1,
        (st.1, (st.2.log logger level template arguments).2)) := by
  obtain ⟨m, s⟩ := st
  rw [log, run_get_bind]
  exact run_ofExcept _

end Steps

/-! ## Taking handlers away, and installing them -/

/-- The places of the handlers that a manager knows. -/
def places (m : LogManager) : List Nat := m.handlers.map Prod.snd

/-- Handlers with the places that they get. -/
def numbered (start : Nat) (handlers : List (String × LogHandler)) : List (String × Nat) :=
  (handlers.zipIdx start).map fun (h, n) => (h.1, n)

/-- The names of numbered handlers are theirs, and the places count on. -/
theorem map_fst_numbered (start : Nat) (hs : List (String × LogHandler)) :
    (numbered start hs).map Prod.fst = hs.map Prod.fst := by
  rw [numbered, List.map_map]
  conv_rhs => rw [← List.zipIdx_map_fst start hs, List.map_map]
  rfl

theorem map_snd_numbered (start : Nat) (hs : List (String × LogHandler)) :
    (numbered start hs).map Prod.snd = List.range' start hs.length := by
  rw [numbered, List.map_map]
  exact List.zipIdx_map_snd start hs

/-- What is left when a manager has taken its handlers away. -/
def cleaned (st : LogManager × LogSystem) : LogManager × LogSystem :=
  (initial, st.1.places.foldl (fun s n => s.detach n) st.2)

/-- What is left when a manager has installed handlers. -/
def installed (handlers : List (String × LogHandler)) (st : LogManager × LogSystem) :
    LogManager × LogSystem :=
  ({ st.1 with handlers := Pairs.merge st.1.handlers (numbered st.2.handlers.length handlers) },
    { st.2 with
      handlers := st.2.handlers ++ handlers.map Prod.snd
      attached := st.2.attached ++ List.range' st.2.handlers.length handlers.length })

/-- Detaching handlers closes them and takes them off the list, and does nothing else. -/
theorem foldl_detach (ns : List Nat) (s : LogSystem) :
    ns.foldl (fun s n => s.detach n) s =
      { s with
        handlers := ns.foldl (fun hs n => hs.modify n fun h => { h with isClosed := true })
          s.handlers
        attached := ns.foldl List.erase s.attached } := by
  induction ns generalizing s with
  | nil => rfl
  | cons n ns ih => exact ih (s.detach n)

theorem run_cleanUp (st : LogManager × LogSystem) : run cleanUp st = (.ok (), cleaned st) := by
  rw [cleaned, places, List.foldl_map]
  rfl

theorem installed_nil (st : LogManager × LogSystem) : installed [] st = st := by
  simp only [installed, numbered, List.zipIdx_nil, List.map_nil, List.append_nil, List.length_nil,
    List.range'_zero]
  rfl

theorem installed_append (hs hs' : List (String × LogHandler)) (st : LogManager × LogSystem) :
    installed (hs ++ hs') st = installed hs' (installed hs st) := by
  simp only [installed, numbered, List.zipIdx_append, List.map_append, List.length_append,
    List.length_map, List.append_assoc, ← List.range'_append_1, Pairs.merge, List.foldl_append]

/-! ## The plan of a set-up -/

/-- What a set-up will do: the handlers that it installs, the files it leaves, and how it ends. -/
structure Plan where
  handlers : List (String × LogHandler)
  files : FileTree
  result : Except Failure Unit

namespace Plan

/-- One handler, if its presentation can be made. -/
def single (name : String) (level : Int) (target : LogTarget) (files : FileTree) :
    Except Failure Presentation → Plan
  | .ok p => ⟨[(name, ⟨level, p, target, false⟩)], files, .ok ()⟩
  | .error e => ⟨[], files, .error e⟩

/-- One plan after another, unless the first one fails. -/
def andThen (p : Plan) (next : FileTree → Plan) : Plan :=
  match p.result with
  | .ok () => ⟨p.handlers ++ (next p.files).handlers, (next p.files).files, (next p.files).result⟩
  | .error _ => p

/-- What is left when a plan was followed. -/
def follow (p : Plan) (st : LogManager × LogSystem) : LogManager × LogSystem :=
  installed p.handlers (st.1, { st.2 with files := p.files })

end Plan

/-- The plan for the console. -/
def planConsole (settings : LoggingSettings) (colors : Bool) (files : FileTree) : Plan :=
  if settings.enableConsole then
    .single "console" settings.level.number .console files (presentation settings (some colors))
  else ⟨[], files, .ok ()⟩

/-- The plan for a file. -/
def planFile (settings : LoggingSettings) (files : FileTree) : Plan :=
  match settings.enableFile, settings.filePath? with
  | true, some path =>
    match files.makeDirectories ⟨Location.baseOf path, []⟩ (Path.parts path).dropLast with
    | .error e => ⟨[], files, .error e⟩
    | .ok files =>
      match files.openFile (Location.ofPath path) with
      | .error e => ⟨[], files, .error e⟩
      | .ok files =>
        .single "file" settings.level.number
          (.file ⟨Location.ofPath path, settings.maxFileSize, settings.backupCount⟩) files
          (presentation settings none)
  | _, _ => ⟨[], files, .ok ()⟩

/-- The plan of a set-up: the console first, then the file. -/
def plan (settings : LoggingSettings) (colors : Bool) (files : FileTree) : Plan :=
  (planConsole settings colors files).andThen (planFile settings)

/-! ## What is in a plan -/

/-- A plan has at most one handler, open, of a level, and for targets of a kind. -/
def Plan.Installs (p : Plan) (name : String) (level : Int) (kind : LogTarget → Prop) : Prop :=
  p.handlers = [] ∨ ∃ h : LogHandler, p.handlers = [(name, h)] ∧ h.level = level ∧
    h.isClosed = false ∧ kind h.target

theorem installs_single (name : String) (level : Int) {kind : LogTarget → Prop} {target : LogTarget}
    (meets : kind target) (files : FileTree) (made : Except Failure Presentation) :
    (Plan.single name level target files made).Installs name level kind := by
  cases made with
  | ok p => exact .inr ⟨_, rfl, rfl, rfl, meets⟩
  | error e => exact .inl rfl

theorem installs_planConsole (settings : LoggingSettings) (colors : Bool) (files : FileTree) :
    (planConsole settings colors files).Installs "console" settings.level.number
      (· = .console) := by
  unfold planConsole
  split
  · refine installs_single _ _ ?_ _ _
    rfl
  · exact .inl rfl

theorem installs_planFile (settings : LoggingSettings) (files : FileTree) :
    (planFile settings files).Installs "file" settings.level.number fun t => ∃ f, t = .file f := by
  unfold planFile
  split
  · split
    · exact .inl rfl
    · split
      · exact .inl rfl
      · exact installs_single _ _ ⟨_, rfl⟩ _ _
  · exact .inl rfl

/-- The handlers of a plan: that of the console, that of a file, both or none. -/
theorem plan_handlers (settings : LoggingSettings) (colors : Bool) (files : FileTree) :
    ((plan settings colors files).handlers.map Prod.fst).Sublist ["console", "file"] ∧
      ∀ h ∈ (plan settings colors files).handlers,
        h.2.level = settings.level.number ∧ h.2.isClosed = false := by
  have console := installs_planConsole settings colors files
  unfold plan Plan.andThen
  split
  · have file := installs_planFile settings (planConsole settings colors files).files
    rcases console with none | ⟨h, one, level, unclosed, -⟩ <;>
      rcases file with none' | ⟨h', one', level', unclosed', -⟩
    · simp [none, none']
    · simp [none, one', level', unclosed']
    · simp [one, none', level, unclosed]
    · simp [one, one', level, unclosed, level', unclosed']
  · rcases console with none | ⟨h, one, level, unclosed, -⟩
    · simp [none]
    · simp [one, level, unclosed]

/-! ## Following the plan -/

/-- A step does what a plan says, which the files decide. -/
def Planned (a : Action Unit) (plan : LogSystem → Plan) : Prop :=
  ∀ st, run a st = ((plan st.2).result, (plan st.2).follow st)

theorem planned_nothing (st : LogManager × LogSystem) :
    run (pure () : Action Unit) st =
      ((⟨[], st.2.files, .ok ()⟩ : Plan).result, (⟨[], st.2.files, .ok ()⟩ : Plan).follow st) := by
  rw [Plan.follow, installed_nil]
  rfl

theorem run_single (settings : LoggingSettings) (name : String) (target : LogTarget)
    (made : Except Failure Presentation) (st : LogManager × LogSystem) :
    run (do
        let p ← ofExcept made
        install name ⟨settings.level.number, p, target, false⟩) st =
      ((Plan.single name settings.level.number target st.2.files made).result,
        (Plan.single name settings.level.number target st.2.files made).follow st) := by
  cases made with
  | error e => rw [run_error_bind, Plan.single, Plan.follow, installed_nil]
  | ok p => rfl

theorem planned_console (settings : LoggingSettings) :
    Planned (if settings.enableConsole then setUpConsole settings else pure ())
      fun s => planConsole settings s.showsColors s.files := by
  intro st
  unfold planConsole
  split
  · rw [setUpConsole, run_get_bind]
    exact run_single settings "console" .console _ st
  · exact planned_nothing st

theorem planned_file (settings : LoggingSettings) :
    Planned (match settings.enableFile, settings.filePath? with
      | true, some path => setUpFile settings path
      | _, _ => pure ())
      fun s => planFile settings s.files := by
  rintro ⟨m, s⟩
  unfold planFile
  split
  · rename_i path _ _
    rw [setUpFile, run_get_bind]
    dsimp only
    cases s.files.makeDirectories ⟨Location.baseOf path, []⟩ (Path.parts path).dropLast with
    | error e => rw [run_error_bind, Plan.follow, installed_nil]
    | ok files =>
      rw [run_ok_bind, run_onSystem_bind]
      dsimp only
      cases files.openFile (Location.ofPath path) with
      | error e => rw [run_error_bind, Plan.follow, installed_nil]
      | ok files' =>
        rw [run_ok_bind, run_onSystem_bind]
        exact run_single settings "file" _ _ (m, { s with files := files' })
  · exact planned_nothing (m, s)

/-- Two steps with plans have the plans one after another. -/
theorem Planned.andThen {a b : Action Unit} {p : LogSystem → Plan} {q : FileTree → Plan}
    (first : Planned a p) (second : Planned b fun s => q s.files) :
    Planned (a >>= fun _ => b) fun s => (p s).andThen q := by
  intro st
  rw [run_bind, first st]
  cases ends : (p st.2).result with
  | error e => simp only [Plan.andThen, ends]
  | ok _ =>
    simp only [Plan.andThen, ends, second ((p st.2).follow st)]
    rw [Plan.follow, Plan.follow, Plan.follow, installed_append]
    rfl

/-- The handlers that settings ask for. -/
def setUpHandlers (settings : LoggingSettings) : Action Unit :=
  (if settings.enableConsole then setUpConsole settings else pure ()) >>= fun _ =>
  match settings.enableFile, settings.filePath? with
    | true, some path => setUpFile settings path
    | _, _ => pure ()

theorem planned_setUpHandlers (settings : LoggingSettings) :
    Planned (setUpHandlers settings) fun s => plan settings s.showsColors s.files :=
  (planned_console settings).andThen (planned_file settings)

/-! ## Setting up -/

/-- The steps of a set-up that nothing can stop: levels of components, and the report. -/
def conclude (settings : LoggingSettings) : Action Unit := do
  setUpComponents settings
  onManager fun m => { m with isConfigured := true }
  log ownLogger LogLevel.debug.number (.text "Logging system configured successfully") (.tuple [])

/-- A set-up as one stage after another. -/
theorem setUp_eq (settings : LoggingSettings) :
    setUp settings = get >>= fun st =>
      (if st.1.isConfigured then cleanUp else pure ()) >>= fun _ =>
      (onSystem fun s => { s with loggers := { s.loggers with root := settings.level.number } })
        >>= fun _ =>
      setUpHandlers settings >>= fun _ => conclude settings := by
  simp only [setUp, setUpHandlers, bind_assoc]
  congr 1
  funext st
  obtain ⟨m, s⟩ := st
  dsimp only
  -- A stage that is left out is followed by the same steps.
  cases m.isConfigured <;> cases settings.enableConsole <;> cases settings.enableFile <;>
    cases settings.filePath? <;>
    simp only [Bool.false_eq_true, if_true, if_false, pure_bind, conclude]

/-- What is left of what was set up before, when a set-up begins. -/
def cleared (st : LogManager × LogSystem) : LogManager × LogSystem :=
  if st.1.isConfigured then cleaned st else st

/-- The loggers with the levels of components. -/
def leveled (components : List (String × LogLevel)) (l : Loggers) : Loggers :=
  components.foldl (fun l (name, level) => l.setLevel name level.number) l

/-- How a set-up ends and what it leaves: what its plan says, on what was there. -/
structure Follows (settings : LoggingSettings) (st : LogManager × LogSystem)
    (out : Except Failure Unit × (LogManager × LogSystem)) : Prop where
  ends : out.1 = (plan settings st.2.showsColors st.2.files).result
  configured : out.2.1.isConfigured = out.1.isOk
  named : out.2.1.handlers = Pairs.merge (cleared st).1.handlers
    (numbered (cleared st).2.handlers.length (plan settings st.2.showsColors st.2.files).handlers)
  handlers : out.2.2.handlers = (cleared st).2.handlers ++
    (plan settings st.2.showsColors st.2.files).handlers.map Prod.snd
  attached : out.2.2.attached = (cleared st).2.attached ++
    List.range' (cleared st).2.handlers.length
      (plan settings st.2.showsColors st.2.files).handlers.length
  loggers : out.2.2.loggers = leveled (if out.1.isOk then settings.componentLevels else [])
    { st.2.loggers with root := settings.level.number }
  site : out.2.2.site = st.2.site

theorem run_cleared (st : LogManager × LogSystem) :
    run (if st.1.isConfigured then cleanUp else pure ()) st = (.ok (), cleared st) := by
  unfold cleared
  split
  · exact run_cleanUp st
  · rfl

/-- Clearing away leaves a manager that is not configured, and touches the handlers only. -/
theorem cleared_eq (st : LogManager × LogSystem) :
    (cleared st).1.isConfigured = false ∧ (cleared st).2.loggers = st.2.loggers ∧
      (cleared st).2.showsColors = st.2.showsColors ∧ (cleared st).2.files = st.2.files ∧
      (cleared st).2.site = st.2.site := by
  unfold cleared
  split
  · rw [cleaned, foldl_detach]
    exact ⟨rfl, rfl, rfl, rfl, rfl⟩
  · rename_i unconfigured
    exact ⟨Bool.eq_false_iff.2 unconfigured, rfl, rfl, rfl, rfl⟩

/-- Nothing stops a set-up once its handlers are installed. -/
theorem run_conclude (settings : LoggingSettings) (st : LogManager × LogSystem) :
    ∃ s, LogSystem.Written
        { st.2 with loggers := leveled settings.componentLevels st.2.loggers } s ∧
      run (conclude settings) st = (.ok (), ({ st.1 with isConfigured := true }, s)) := by
  refine ⟨_, LogSystem.written_log ownLogger LogLevel.debug.number
    (.text "Logging system configured successfully") (.tuple []) _, ?_⟩
  rw [conclude, setUpComponents, run_onSystem_bind, run_onManager_bind, run_log,
    LogSystem.log_plain]
  rfl

/-- A set-up does what its plan says. -/
theorem setUp_follows (settings : LoggingSettings) (st : LogManager × LogSystem) :
    Follows settings st (run (setUp settings) st) := by
  obtain ⟨unconfigured, loggers, colors, files, site⟩ := cleared_eq st
  rw [setUp_eq, run_get_bind, run_bind_of_ok (run_cleared st), run_onSystem_bind, run_bind,
    planned_setUpHandlers]
  simp only [colors, files, loggers]
  cases ends : (plan settings st.2.showsColors st.2.files).result with
  | error e =>
    exact ⟨ends.symm, unconfigured, rfl, rfl, rfl, rfl, site⟩
  | ok _ =>
    obtain ⟨s, written, concluded⟩ := run_conclude settings
      ((plan settings st.2.showsColors st.2.files).follow ((cleared st).1,
        { (cleared st).2 with
          loggers := { st.2.loggers with root := settings.level.number }
          files := st.2.files
          showsColors := st.2.showsColors }))
    dsimp only
    rw [concluded]
    exact ⟨ends.symm, rfl, rfl, written.handlers, written.attached, written.loggers,
      written.site.trans site⟩

/-! ## Calls -/

/-- The calls of a manager that change the log. -/
inductive Call where
  | setUp (settings : LoggingSettings)
  | setLevel (level : LogLevel) (component? : Option String)
  | cleanUp

/-- How a call ends, and what it leaves. -/
def Call.run (st : LogManager × LogSystem) : Call → Except Failure Unit × (LogManager × LogSystem)
  | .setUp settings => LogManager.run (LogManager.setUp settings) st
  | .setLevel level component? => LogManager.run (LogManager.setLevel level component?) st
  | .cleanUp => LogManager.run LogManager.cleanUp st

/-- Giving handlers a level does nothing else. -/
theorem foldl_setHandlerLevel (level : Int) (ns : List Nat) (s : LogSystem) :
    ns.foldl (fun s n => s.setHandlerLevel level n) s =
      { s with
        handlers := ns.foldl (fun hs n => hs.modify n fun h => { h with level := level })
          s.handlers } := by
  induction ns generalizing s with
  | nil => rfl
  | cons n ns ih => exact ih (s.setHandlerLevel level n)

/-- A level is given to a logger. That of the root goes to the manager's handlers too; no component
and one without a name mean the root. -/
theorem run_setLevel (level : LogLevel) (component? : Option String)
    (st : LogManager × LogSystem) :
    run (setLevel level component?) st = (.ok (), (st.1,
      { st.2 with
        loggers := st.2.loggers.setLevel (component?.getD "") level.number
        handlers := (if component?.getD "" = "" then st.1.places else []).foldl
          (fun hs n => hs.modify n fun h => { h with level := level.number })
          st.2.handlers })) := by
  have root : run (setLevel level none) st = (.ok (), (st.1, st.1.places.foldl
      (fun s n => s.setHandlerLevel level.number n)
      { st.2 with loggers := { st.2.loggers with root := level.number } })) := by
    rw [places, List.foldl_map]
    rfl
  rw [foldl_setHandlerLevel] at root
  cases component? with
  | none => exact root
  | some component =>
    by_cases named : component = ""
    · subst named
      exact root
    · have other : setLevel level (some component) =
          onSystem fun s => { s with loggers := s.loggers.setLevel component level.number } := by
        unfold setLevel
        split
        · contradiction
        · rename_i same
          exact absurd (Option.some.inj same) named
        · rename_i same
          cases same
          rfl
      rw [other, Option.getD_some, if_neg named]
      rfl

/-- No failed set-up has left handlers. -/
def Settled (m : LogManager) : Prop := m.isConfigured = true ∨ m.handlers = []

/-- A set-up then begins without handlers. -/
theorem Settled.cleared {st : LogManager × LogSystem} (h : st.1.Settled) :
    (cleared st).1.handlers = [] := by
  unfold LogManager.cleared
  split
  · rfl
  · rename_i unconfigured
    exact h.resolve_left unconfigured

/-- A call that succeeds leaves none either. -/
theorem Settled.run {st : LogManager × LogSystem} (h : st.1.Settled) {c : Call}
    (succeeds : (c.run st).1 = .ok ()) : (c.run st).2.1.Settled := by
  cases c with
  | setUp settings =>
    have configured := (setUp_follows settings st).configured
    simp only [Call.run] at succeeds ⊢
    rw [succeeds] at configured
    exact .inl configured
  | setLevel level component? =>
    simp only [Call.run, run_setLevel]
    exact h
  | cleanUp =>
    simp only [Call.run, run_cleanUp]
    exact .inr rfl

/-! ## A sample -/

/-- A log at its beginning. -/
def unused : LogSystem := .initial false ⟨"", 0, none, default⟩

/-- Settings for JSON on the console, with levels of components. -/
def jsonLines (components : List (String × LogLevel)) : LoggingSettings :=
  { LoggingSettings.default with enableStructured := true, componentLevels := components }

theorem plan_jsonLines (components : List (String × LogLevel)) (colors : Bool) (files : FileTree) :
    plan (jsonLines components) colors files =
      ⟨[("console", ⟨20, .structured, .console, false⟩)], files, .ok ()⟩ := rfl

end LogManager

end GraphClient
