import GraphClient.Logging.System
import GraphClient.Settings.Logging

/-!
# Managing the log

A `LogManager` sets the log up as settings say and takes its handlers away again.

* `LogManager.setUp` takes away what it set up before, then sets levels and handlers. It may fail
  half-way, and what it did until then stays.
* `LogManager.setLevel` changes the level of one logger, or of the root and the handlers.
* `LogManager.cleanUp` detaches and closes the handlers; levels stay.
-/

namespace GraphClient

/-- What a manager knows: whether it set the log up, and its handlers by name. -/
structure LogManager where
  isConfigured : Bool
  handlers : List (String × Nat)
deriving DecidableEq, Inhabited

namespace LogManager

def initial : LogManager := ⟨false, []⟩

/-- A step of a manager on the log. What was done before a failure stays. -/
abbrev Action := ExceptT Failure (StateM (LogManager × LogSystem))

/-- Changes the log. -/
def onSystem (f : LogSystem → LogSystem) : Action Unit := modify fun (m, s) => (m, f s)

/-- Changes what the manager knows. -/
def onManager (f : LogManager → LogManager) : Action Unit := modify fun (m, s) => (f m, s)

def ofExcept {α : Type} : Except Failure α → Action α
  | .ok a => pure a
  | .error e => throw e

/-- The logger that reports on the log itself. -/
def ownLogger : String := "gql_fetch.logging.manager"

/-- Detaches and closes the manager's handlers. -/
def cleanUp : Action Unit :=
  modify fun (m, s) => (initial, m.handlers.foldl (fun s (_, n) => s.detach n) s)

/-- Attaches a handler under a name. -/
def install (name : String) (h : LogHandler) : Action Unit :=
  modify fun (m, s) =>
    ({ m with handlers := Pairs.set name s.handlers.length m.handlers }, s.attach h)

/-- How records are written on the console or in a file. -/
def presentation (settings : LoggingSettings) (console? : Option Bool) :
    Except Failure Presentation :=
  if settings.enableStructured then .ok .structured
  else (LineFormat.make settings.format none).map fun format =>
    match console? with
    | some colors => .console format colors
    | none => .line format

/-- Sets up the handler of the console. -/
def setUpConsole (settings : LoggingSettings) : Action Unit := do
  let (_, s) ← get
  let p ← ofExcept (presentation settings (some s.showsColors))
  install "console" ⟨settings.level.number, p, .console, false⟩

/-- Sets up the handler of a file. Its directory is made, and the file too. -/
def setUpFile (settings : LoggingSettings) (path : String) : Action Unit := do
  let (_, s) ← get
  let directories := (Path.parts path).dropLast
  let files ← ofExcept (s.files.makeDirectories ⟨Location.baseOf path, []⟩ directories)
  onSystem fun s => { s with files := files }
  let location := Location.ofPath path
  let files ← ofExcept (files.openFile location)
  onSystem fun s => { s with files := files }
  let p ← ofExcept (presentation settings none)
  install "file" ⟨settings.level.number, p,
    .file ⟨location, settings.maxFileSize, settings.backupCount⟩, false⟩

/-- Gives components their levels. -/
def setUpComponents (settings : LoggingSettings) : Action Unit :=
  onSystem fun s => { s with
    loggers := settings.componentLevels.foldl
      (fun l (name, level) => l.setLevel name level.number) s.loggers }

/-- Logs a message through a logger. -/
def log (logger : String) (level : Int) (template arguments : Value) : Action Unit := do
  let (m, s) ← get
  let (logged, s) := s.log logger level template arguments
  set (m, s)
  ofExcept logged

/-- Sets the log up as settings say. -/
def setUp (settings : LoggingSettings) : Action Unit := do
  let (m, _) ← get
  if m.isConfigured then cleanUp
  onSystem fun s => { s with loggers := { s.loggers with root := settings.level.number } }
  if settings.enableConsole then setUpConsole settings
  match settings.enableFile, settings.filePath? with
  | true, some path => setUpFile settings path
  | _, _ => pure ()
  setUpComponents settings
  onManager fun m => { m with isConfigured := true }
  log ownLogger LogLevel.debug.number (.text "Logging system configured successfully") (.tuple [])

/-- Sets the level of a component, or if none is named that of the root and of the manager's
handlers. -/
def setLevel (level : LogLevel) (component? : Option String) : Action Unit :=
  match component? with
  | none | some "" =>
    modify fun (m, s) =>
      (m, m.handlers.foldl (fun s (_, n) => s.setHandlerLevel level.number n)
        { s with loggers := { s.loggers with root := level.number } })
  | some component =>
    onSystem fun s => { s with loggers := s.loggers.setLevel component level.number }

end LogManager

end GraphClient
