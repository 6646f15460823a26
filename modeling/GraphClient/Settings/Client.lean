import GraphClient.Settings.Logging
import GraphClient.Settings.Transport

/-!
# Settings of the client

`ClientSettings` are the endpoint, the headers of every request, and the settings of the
transport and of the log.
-/

namespace GraphClient

/-- The headers that every request carries unless others are given. -/
def defaultHeaders : List (String × String) :=
  [("Content-Type", "application/json"), ("Accept", "application/json")]

/-- Settings of the client. -/
structure ClientSettings where
  endpoint : String
  headers : List (String × String)
  transport : TransportSettings
  logging : LoggingSettings
deriving DecidableEq

namespace ClientSettings

/-- An endpoint is an address that starts with `http://` or `https://`. -/
def checkEndpoint (v : Value) : Check.Result String :=
  match Check.text v with
  | .error rule => .error rule
  | .ok s =>
    if "http://".toList.isPrefixOf s.toList || "https://".toList.isPrefixOf s.toList then .ok s
    else .error (.custom "Value error, Endpoint must be an http:// or https:// URL")

/-- The settings as a table, in order of declaration. -/
def toTable (s : ClientSettings) : List (String × Value) :=
  [("endpoint", .text s.endpoint),
   ("headers", .ofPairs (s.headers.map fun (k, v) => (k, .text v))),
   ("transport", .ofPairs s.transport.toTable), ("logging", .ofPairs s.logging.toTable)]

/-- The names of the settings. -/
def names : List String := ["endpoint", "headers", "transport", "logging"]

/-- Settings made from a map: the endpoint has to be given, the rest has defaults. -/
def check : Value → Except (List Violation) ClientSettings
  | .map entries =>
    let checked : Checked ClientSettings := ClientSettings.mk
      <$> Checked.field entries "endpoint" none (Check.here checkEndpoint)
      <*> Checked.field entries "headers" (some []) (Check.mapOf Check.text)
      <*> Checked.field entries "transport" (some .default) TransportSettings.check
      <*> Checked.field entries "logging" (some .default) LoggingSettings.check
    (checked.also (TransportSettings.extraViolations names entries)).toExcept
  | _ => .error [⟨[], .modelType⟩]

/-- The default headers, overridden by the configured ones. -/
def mergedHeaders (s : ClientSettings) : List (String × String) :=
  Pairs.merge defaultHeaders s.headers

end ClientSettings

namespace Settings

/-- Makes settings from named values, whose names have to be texts. -/
def construct {α : Type} (check : Value → Except (List Violation) α)
    (entries : List (Value × Value)) : Except Failure α :=
  if entries.all fun (k, _) => k matches .text _ then
    match check (.map entries) with
    | .ok a => .ok a
    | .error violations => .error (.invalid violations)
  else .error (.misuse .type "keywords must be strings")

end Settings

end GraphClient
