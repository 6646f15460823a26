import GraphClient.Settings.Attributes
import GraphClient.Settings.Check

/-!
# Settings of the transport

`TransportSettings` are the time limits, the sizes of the connection pool and the identity that
the transport uses. They are checked when they are made (`check`), and the object that holds them
checks every later assignment to one of them (`setChecked`).
-/

namespace GraphClient

/-- Settings of the transport. -/
structure TransportSettings where
  timeout : Binary64
  connectTimeout : Binary64
  sockReadTimeout : Binary64
  maxConnections : Int
  maxConnectionsPerHost : Int
  verifySsl : Bool
  userAgent : String
deriving DecidableEq

namespace TransportSettings

def default : TransportSettings :=
  ⟨.ofInt 30, .ofInt 10, .ofInt 30, 100, 30, true, "gql-fetch/1.0"⟩

instance : Inhabited TransportSettings := ⟨default⟩

/-- The settings as a table, in order of declaration. -/
def toTable (s : TransportSettings) : List (String × Value) :=
  [("timeout", .float s.timeout), ("connect_timeout", .float s.connectTimeout),
   ("sock_read_timeout", .float s.sockReadTimeout), ("max_connections", .int s.maxConnections),
   ("max_connections_per_host", .int s.maxConnectionsPerHost), ("verify_ssl", .bool s.verifySsl),
   ("user_agent", .text s.userAgent)]

/-- The names of the settings. -/
def names : List String := default.toTable.map (·.1)

/-- The violations of entries that are no settings, in order. -/
def extraViolations (names : List String) : List (Value × Value) → List Violation
  | [] => []
  | (k, _) :: rest =>
    match k with
    | .text name =>
      if names.contains name then extraViolations names rest
      else ⟨[k], .extraForbidden⟩ :: extraViolations names rest
    | _ => ⟨[k], .invalidKey⟩ :: extraViolations names rest

/-- Settings made from a map; what is not given has its default. -/
def check : Value → Except (List Violation) TransportSettings
  | .map entries =>
    let limit (name : String) (initial : Binary64) : Checked Binary64 :=
      .field entries name (some initial) (Check.here (Check.floatFrom 1))
    let size (name : String) (initial : Int) : Checked Int :=
      .field entries name (some initial) (Check.here (Check.intFrom 1))
    let checked := TransportSettings.mk <$> limit "timeout" default.timeout
      <*> limit "connect_timeout" default.connectTimeout
      <*> limit "sock_read_timeout" default.sockReadTimeout
      <*> size "max_connections" default.maxConnections
      <*> size "max_connections_per_host" default.maxConnectionsPerHost
      <*> .field entries "verify_ssl" (some default.verifySsl) (Check.here Check.bool)
      <*> .field entries "user_agent" (some default.userAgent) (Check.here Check.text)
    (checked.also (extraViolations names entries)).toExcept
  | _ => .error [⟨[], .modelType⟩]

/-- The settings that are limits of time. -/
def limitNames : List String := ["timeout", "connect_timeout", "sock_read_timeout"]

/-- The settings that are sizes of the pool. -/
def sizeNames : List String := ["max_connections", "max_connections_per_host"]

/-- What a setting makes of a value that is assigned to it. -/
def accept (name : String) (v : Value) : Check.Result Value :=
  if name ∈ limitNames then (Check.floatFrom 1 v).map .float
  else if name ∈ sizeNames then (Check.intFrom 1 v).map .int
  else if name = "verify_ssl" then (Check.bool v).map .bool
  else if name = "user_agent" then (Check.text v).map .text
  else .error .noSuchAttribute

/-- The settings with another value of one of them, which is of its kind. -/
def withSetting (s : TransportSettings) : String → Value → TransportSettings
  | "timeout", .float x => { s with timeout := x }
  | "connect_timeout", .float x => { s with connectTimeout := x }
  | "sock_read_timeout", .float x => { s with sockReadTimeout := x }
  | "max_connections", .int n => { s with maxConnections := n }
  | "max_connections_per_host", .int n => { s with maxConnectionsPerHost := n }
  | "verify_ssl", .bool b => { s with verifySsl := b }
  | "user_agent", .text t => { s with userAgent := t }
  | _, _ => s

/-- The settings after a value was assigned to a setting, by its name. The value is checked, and a
name of no setting is refused. A hidden name does not come this far (`Attributes.assign`). -/
def assign (s : TransportSettings) (name : String) (v : Value) :
    Except (List Violation) TransportSettings :=
  match accept name v with
  | .ok w => .ok (s.withSetting name w)
  | .error rule => .error [⟨[.text name], rule⟩]

/-- The attributes of the object that holds the settings. -/
def attributes (s : TransportSettings) : Attributes := .ofTable s.toTable

/-- Sets a setting of the object to what the check makes of a value. It is set in a copy of the
attributes, which then takes their place. -/
def setChecked (name : String) (v : Value) : Access Unit := do
  let copy ← get
  match accept name v with
  | .ok w => set (Pairs.set (.text name) w copy)
  | .error rule => throw (.invalid [⟨[.text name], rule⟩])

end TransportSettings

end GraphClient
