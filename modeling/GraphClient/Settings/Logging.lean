import GraphClient.Settings.Check
import GraphClient.Settings.Path

/-!
# Settings of the log

`LoggingSettings` say at which level records are kept, where they go and how they are written.
-/

namespace GraphClient

/-- The levels that settings can name. -/
inductive LogLevel where
  | debug | info | warning | error | critical
deriving DecidableEq, Inhabited

namespace LogLevel

/-- The name of a level. -/
def name : LogLevel → String
  | debug => "DEBUG"
  | info => "INFO"
  | warning => "WARNING"
  | error => "ERROR"
  | critical => "CRITICAL"

/-- The number of a level; a higher one is more severe. -/
def number : LogLevel → Int
  | debug => 10
  | info => 20
  | warning => 30
  | error => 40
  | critical => 50

def all : List LogLevel := [debug, info, warning, error, critical]

/-- The level of a name. -/
def ofName? (s : String) : Option LogLevel := all.find? (·.name == s)

/-- A level is given by its name and nothing else. -/
def check : Value → Check.Result LogLevel
  | .text s =>
    match ofName? s with
    | some l => .ok l
    | none => .error .choice
  | _ => .error .choice

end LogLevel

/-- Settings of the log. -/
structure LoggingSettings where
  level : LogLevel
  format : String
  filePath? : Option String
  maxFileSize : Int
  backupCount : Int
  enableConsole : Bool
  enableFile : Bool
  enableStructured : Bool
  componentLevels : List (String × LogLevel)
deriving DecidableEq

namespace LoggingSettings

def default : LoggingSettings :=
  ⟨.info, "%(asctime)s - %(name)s - %(levelname)s - %(message)s", none, 10 * 1024 * 1024, 5, true,
    false, false, []⟩

instance : Inhabited LoggingSettings := ⟨default⟩

/-- The settings as a table, in order of declaration. -/
def toTable (s : LoggingSettings) : List (String × Value) :=
  [("level", .text s.level.name), ("format", .text s.format),
   ("file_path", (s.filePath?.map Value.path).getD .null),
   ("max_file_size", .int s.maxFileSize), ("backup_count", .int s.backupCount),
   ("enable_console", .bool s.enableConsole), ("enable_file", .bool s.enableFile),
   ("enable_structured", .bool s.enableStructured),
   ("component_levels", .ofPairs (s.componentLevels.map fun (k, l) => (k, .text l.name)))]

/-- The names of the settings. -/
def names : List String := default.toTable.map (·.1)

/-- A path, or none. -/
def checkPath : Value → Check.Result (Option String)
  | .null => .ok none
  | .text s => .ok (some (Path.normalize s))
  | .path p => .ok (some p)
  | _ => .error .pathType

/-- Settings made from a map; what is not given has its default, what is no setting is ignored. -/
def check : Value → Except (List Violation) LoggingSettings
  | .map entries =>
    let flag (name : String) (initial : Bool) : Checked Bool :=
      .field entries name (some initial) (Check.here Check.bool)
    let number (name : String) (initial : Int) : Checked Int :=
      .field entries name (some initial) (Check.here Check.int)
    (LoggingSettings.mk
      <$> .field entries "level" (some default.level) (Check.here LogLevel.check)
      <*> .field entries "format" (some default.format) (Check.here Check.text)
      <*> .field entries "file_path" (some none) (Check.here checkPath)
      <*> number "max_file_size" default.maxFileSize
      <*> number "backup_count" default.backupCount
      <*> flag "enable_console" default.enableConsole
      <*> flag "enable_file" default.enableFile
      <*> flag "enable_structured" default.enableStructured
      <*> .field entries "component_levels" (some []) (Check.mapOf LogLevel.check)).toExcept
  | _ => .error [⟨[], .modelType⟩]

end LoggingSettings

end GraphClient
