import GraphClient.Decimal.Numeral
import GraphClient.Value.Basic

/-!
# Settings from the environment

`Variable` lists the variables that are read, each for one setting. `Environment.convert` reads a
text as a truth value or a number where it is one; `Environment.settings` collects what the
variables of an environment say.
-/

namespace GraphClient

/-- The variables of an environment, by name. -/
abbrev Environment := List (String × String)

/-- A variable that gives a setting. -/
inductive Variable where
  | endpoint | timeout | connectTimeout | verifySsl | userAgent | logLevel | logFile
deriving DecidableEq, Inhabited

namespace Variable

/-- The variables in the order in which they are read. -/
def all : List Variable :=
  [endpoint, timeout, connectTimeout, verifySsl, userAgent, logLevel, logFile]

/-- What the name of every variable starts with. -/
def namePrefix : String := "GQL_FETCH_"

/-- The name of a variable. -/
def name (v : Variable) : String :=
  namePrefix ++ match v with
    | endpoint => "ENDPOINT"
    | timeout => "TIMEOUT"
    | connectTimeout => "CONNECT_TIMEOUT"
    | verifySsl => "VERIFY_SSL"
    | userAgent => "USER_AGENT"
    | logLevel => "LOG_LEVEL"
    | logFile => "LOG_FILE"

/-- The group of settings that a variable belongs to, if any. -/
def group? : Variable → Option String
  | endpoint => none
  | timeout | connectTimeout | verifySsl | userAgent => some "transport"
  | logLevel | logFile => some "logging"

/-- The name of the setting within its group. -/
def setting : Variable → String
  | endpoint => "endpoint"
  | timeout => "timeout"
  | connectTimeout => "connect_timeout"
  | verifySsl => "verify_ssl"
  | userAgent => "user_agent"
  | logLevel => "level"
  | logFile => "file_path"

/-- Whether a setting is taken as the text that it is. -/
def isText : Variable → Bool
  | endpoint | userAgent | logLevel | logFile => true
  | timeout | connectTimeout | verifySsl => false

end Variable

namespace Environment

/-- The words for a truth value. Letter case does not count, and no letter outside ASCII has one
of their letters as its small form. -/
def truthWord? (s : String) : Option Bool :=
  let word := String.ofList (s.toList.map Char.toLower)
  if ["true", "yes", "1", "on"].contains word then some true
  else if ["false", "no", "0", "off"].contains word then some false
  else none

/-- A text with a point as a double, one without as an integer. -/
def number? (s : String) : Option Value :=
  if s.toList.contains '.' then (Decimal.readFloat? s).map .float
  else (Decimal.readInt? s).map .int

/-- A text as a truth value, else as a number, else as itself. -/
def convert (s : String) : Value :=
  match truthWord? s with
  | some b => .bool b
  | none => (number? s).getD (.text s)

/-- The value that a variable gives its setting. -/
def valueOf (v : Variable) (s : String) : Value := if v.isText then .text s else convert s

/-- Sets a setting of a group, which is begun if there is none. -/
def setIn (group name : String) (v : Value) (table : List (Value × Value)) :
    List (Value × Value) :=
  let inner := match Value.lookup? group table with
    | some (.map entries) => entries
    | _ => []
  Pairs.set (.text group) (.map (Pairs.set (.text name) v inner)) table

/-- Adds what one variable says. A log file also turns writing to it on. -/
def addVariable (env : Environment) (table : List (Value × Value)) (v : Variable) :
    List (Value × Value) :=
  match Pairs.get? v.name env with
  | none => table
  | some s =>
    match v.group? with
    | none => Pairs.set (.text v.setting) (valueOf v s) table
    | some group =>
      let table := setIn group v.setting (valueOf v s) table
      if v = .logFile then setIn group "enable_file" (.bool true) table else table

/-- The settings that an environment gives, by group. -/
def settings (env : Environment) : List (Value × Value) := Variable.all.foldl (addVariable env) []

end Environment

end GraphClient
