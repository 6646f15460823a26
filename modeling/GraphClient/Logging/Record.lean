import GraphClient.Failure.Basic
import GraphClient.Template.Fill
import GraphClient.Time.Pattern

/-!
# Log records

A `LogRecord` holds what was logged, where and when. Callers may attach further attributes, and
one with the name of a standard attribute takes its place.

* `LogRecord.value?` is the value of an attribute by name.
* `LogRecord.message` is the template filled with the arguments.
-/

namespace GraphClient

/-- The name of a level by its number. -/
def levelName (n : Int) : String :=
  match n with
  | 0 => "NOTSET"
  | 10 => "DEBUG"
  | 20 => "INFO"
  | 30 => "WARNING"
  | 40 => "ERROR"
  | 50 => "CRITICAL"
  | _ => "Level " ++ toString n

/-- Where and when a record is made: the file, the line and the function, and the time in seconds
since the start of 1970. -/
structure LogSite where
  path : String
  line : Int
  function? : Option String
  created : Binary64
deriving DecidableEq, Inhabited

/-- A log record. -/
structure LogRecord where
  logger : String
  level : Int
  site : LogSite
  template : Value
  arguments : Value
  error? : Option Raise
  extra : List (String × Value)
deriving Inhabited

/-- The name of an error with the place of its class. -/
def Raise.qualifiedName : Raise → String
  | .fault (.general .cancelled _) => "asyncio.exceptions.CancelledError"
  | .fault f@(.general ..) => f.name
  | .fault f@(.network ..) => "aiohttp.client_exceptions." ++ f.name
  | .own cls _ _ => "gql_fetch.exceptions." ++ cls.name
  | .stopIteration _ => "StopIteration"

/-- An error as it ends a report: its name, and what it says if it says anything. -/
def Raise.report (e : Raise) : String :=
  let text := e.toThrown.text
  if text.isEmpty then e.qualifiedName else e.qualifiedName ++ ": " ++ text

namespace LogSite

/-- The name of the file. -/
def fileName (s : LogSite) : String :=
  String.ofList (s.path.toList.reverse.takeWhile (· ≠ '/')).reverse

/-- The name of the file without its last ending. Dots at the beginning are no ending. -/
def moduleName (s : LogSite) : String :=
  let chars := s.fileName.toList
  let stem := (chars.reverse.dropWhile (· ≠ '.')).drop 1
  if stem.all (· = '.') then s.fileName else String.ofList stem.reverse

end LogSite

namespace LogRecord

/-- The arguments of a template. A map that is the only argument serves its keys; an empty one
does not. -/
def unpack (arguments : Value) : Except Failure Value :=
  match arguments.decideTruth with
  | .error e => .error e
  | .ok false => .ok arguments
  | .ok true =>
    match arguments.items? with
    | some [_] =>
      arguments.first.map fun
        | .map (entry :: entries) => .map (entry :: entries)
        | _ => arguments
    | some _ => .ok arguments
    | none => .error (.misuse .type ("object of type '" ++ arguments.typeName ++ "' has no len()"))

/-- A record of what was logged. -/
def make (logger : String) (level : Int) (site : LogSite) (template arguments : Value)
    (error? : Option Raise) : Except Failure LogRecord :=
  (unpack arguments).map fun unpacked => ⟨logger, level, site, template, unpacked, error?, []⟩

/-- The attributes that every record has. -/
def standard (r : LogRecord) : List (String × Value) :=
  [("name", .text r.logger), ("msg", r.template), ("args", r.arguments),
   ("levelname", .text (levelName r.level)), ("levelno", .int r.level),
   ("pathname", .text r.site.path), ("filename", .text r.site.fileName),
   ("module", .text r.site.moduleName), ("exc_info", .null), ("exc_text", .null),
   ("stack_info", .null), ("lineno", .int r.site.line), ("funcName", .ofOption r.site.function?),
   ("created", .float r.site.created),
   ("msecs", .float (Binary64.ofInt (Timestamp.thousandths r.site.created))),
   ("threadName", .text "MainThread"), ("processName", .text "MainProcess")]

/-- The names of attributes that are not written as data of the caller. -/
def reserved : List String :=
  ["name", "msg", "args", "levelname", "levelno", "pathname", "filename", "module", "lineno",
   "funcName", "created", "msecs", "relativeCreated", "thread", "threadName", "processName",
   "process", "taskName", "message", "exc_info", "exc_text", "stack_info"]

/-- The value of an attribute. -/
def value? (r : LogRecord) (name : String) : Option Value :=
  match Pairs.get? name r.extra with
  | some v => some v
  | none => Pairs.get? name r.standard

/-- The value of an attribute, or of one that is not there. -/
def value (r : LogRecord) (name : String) : Value := (r.value? name).getD .null

/-- Attaches an attribute. -/
def attach (name : String) (v : Value) (r : LogRecord) : LogRecord :=
  { r with extra := Pairs.set name v r.extra }

/-- The message: the template as text, filled with the arguments if there are any. -/
def message (r : LogRecord) : Except Failure String :=
  let template := (r.value "msg").display
  let arguments := r.value "args"
  match arguments.decideTruth with
  | .error e => .error e
  | .ok false => .ok template
  | .ok true => Template.fill template arguments

/-- Replaces the message by a text that needs no arguments. -/
def withMessage (s : String) (r : LogRecord) : LogRecord :=
  { r with
    template := .text s
    arguments := .tuple []
    extra := Pairs.erase "args" (Pairs.erase "msg" r.extra) }

/-- The time of the record in seconds. -/
def time (r : LogRecord) : Except Failure Binary64 :=
  match r.value "created" with
  | .float x => .ok x
  | .int n => Value.intToDouble n
  | .bool b => Value.intToDouble b.toInt
  | v => .error (.misuse .type
      ("'" ++ v.typeName ++ "' object cannot be interpreted as an integer"))

/-- The failure of a time that is no moment. -/
def noMoment (t : Binary64) : Failure :=
  if t.isNaN then .misuse .value "cannot convert float NaN to integer"
  else .misuse .overflow "cannot convert float infinity to integer"

end LogRecord

end GraphClient
