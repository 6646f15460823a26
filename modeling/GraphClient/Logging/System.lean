import GraphClient.Files
import GraphClient.Logging.Filter
import GraphClient.Logging.Loggers
import GraphClient.Logging.Presentation

/-!
# The log

A `LogSystem` holds the loggers, the handlers with those that are attached, and what was written.
A record that is severe enough for its logger goes to every attached handler in order; a handler
for which it is severe enough masks it and writes it.

* `LogSystem.log` delivers a record. Masking may fail, which ends the delivery; a record that
  cannot be written is left out by the handler.
* A file that would reach its greatest size with the next record is set aside first (`rollOver`).
-/

namespace GraphClient

/-- A file to write to, the size it may not reach, and how many old files are kept. -/
structure LogFile where
  location : Location
  maxSize : Int
  backups : Int
deriving DecidableEq, Inhabited

/-- Where a handler writes. -/
inductive LogTarget where
  | console
  | file (f : LogFile)
deriving DecidableEq, Inhabited

/-- A handler of records. Every handler masks what it writes. -/
structure LogHandler where
  level : Int
  presentation : Presentation
  target : LogTarget
  isClosed : Bool
deriving DecidableEq, Inhabited

/-- The state of the log. Handlers are known by their place in the list of all that were made. -/
structure LogSystem where
  loggers : Loggers
  handlers : List LogHandler
  attached : List Nat
  console : String
  files : FileTree
  /-- Whether the console shows colours. -/
  showsColors : Bool
  /-- Where and when the records of this library are made. -/
  site : LogSite
deriving Inhabited

namespace LogFile

/-- The location of an old file by its number. -/
def backup (f : LogFile) (n : Nat) : Location :=
  { f.location with
    names := f.location.names.dropLast
      ++ [f.location.names.getLastD "" ++ "." ++ toString n] }

/-- Makes room for the newest old file: each one gets the next number, the last one goes. -/
def shift (f : LogFile) : Nat → FileTree → FileTree
  | 0, t => t
  | n + 1, t => f.shift n (t.move (f.backup (n + 1)) (f.backup (n + 2)))

/-- Sets the file aside and begins a new one. If no old files are kept it is just opened again. -/
def rollOver (f : LogFile) (t : FileTree) : FileTree :=
  let t :=
    if 0 < f.backups then (f.shift (f.backups.toNat - 1) t).move f.location (f.backup 1) else t
  match t.node? f.location with
  | some _ => t
  | none => t.put f.location (.file [])

/-- Whether a file is full: with the line it would reach its greatest size. -/
def isFull (f : LogFile) (line : String) (t : FileTree) : Bool :=
  0 < f.maxSize ∧ f.maxSize ≤ ((t.content? f.location).getD []).length + line.length

/-- Writes a line to the file. -/
def write (f : LogFile) (line : String) (t : FileTree) : FileTree :=
  (if f.isFull line t then f.rollOver t else t).append f.location line

end LogFile

namespace LogSystem

/-- The log at the beginning: warnings and worse, and no handlers. -/
def initial (showsColors : Bool) (site : LogSite) : LogSystem :=
  ⟨⟨30, []⟩, [], [], "", .empty, showsColors, site⟩

/-- Makes a handler and attaches it. -/
def attach (h : LogHandler) (s : LogSystem) : LogSystem :=
  { s with handlers := s.handlers ++ [h], attached := s.attached ++ [s.handlers.length] }

/-- Detaches a handler and closes it. -/
def detach (n : Nat) (s : LogSystem) : LogSystem :=
  { s with
    handlers := s.handlers.modify n fun h => { h with isClosed := true }
    attached := s.attached.erase n }

/-- Gives a handler a level. -/
def setHandlerLevel (level : Int) (n : Nat) (s : LogSystem) : LogSystem :=
  { s with handlers := s.handlers.modify n fun h => { h with level := level } }

/-- Writes a line to a target. -/
def write (target : LogTarget) (line : String) (s : LogSystem) : LogSystem :=
  match target with
  | .console => { s with console := s.console ++ line }
  | .file f => { s with files := f.write line s.files }

/-- A masked record at a handler: the line, if one can be made, is written. -/
def handle (h : LogHandler) (r : LogRecord) (s : LogSystem) : LogRecord × LogSystem :=
  let (written, r) := h.presentation.render r
  match written with
  | .ok text => (r, s.write h.target (text ++ "\n"))
  | .error _ => (r, s)

/-- A record at the given handlers in order. -/
def deliver (r : LogRecord) (s : LogSystem) : List Nat → Except Failure Unit × LogSystem
  | [] => (.ok (), s)
  | n :: rest =>
    match s.handlers[n]? with
    | none => deliver r s rest
    | some h =>
      if r.level < h.level then deliver r s rest
      else match r.masked with
        | .error e => (.error e, s)
        | .ok masked =>
          let (r, s) := s.handle h masked
          deliver r s rest

/-- Whether records of a level are taken by a logger; levels are positive. -/
def isEnabled (s : LogSystem) (logger : String) (level : Int) : Bool :=
  0 < level ∧ s.loggers.effective logger ≤ level

/-- Logs a message through a logger. -/
def log (logger : String) (level : Int) (template arguments : Value) (s : LogSystem) :
    Except Failure Unit × LogSystem :=
  if s.isEnabled logger level then
    let name := if Loggers.isRoot logger then Loggers.rootName else logger
    match LogRecord.make name level s.site template arguments none with
    | .error e => (.error e, s)
    | .ok r => deliver r s s.attached
  else (.ok (), s)

end LogSystem

end GraphClient
