import GraphClient.Client.Post
import GraphClient.Middleware.Chain
import GraphClient.Middleware.Basic
import GraphClient.Selection.Operation

/-!
# The client

A client has an address, headers, a registry of middleware and a transport.

* `Client.run` takes the registry and the headers of the moment it starts: the chain and the
  request of a run are its own.
* `Client.use` registers all of its arguments or none.
* `Client.build` makes the text of an operation and logs it.
-/

namespace GraphClient.Client

variable {M : Type}

/-- Sends the run's request to the transport. -/
def send : Flow M :=
  .perform .request fun r =>
    match r.body with
    | .error e => .fail e
    | .ok body => Transport.post r.url r.headers body

/-- Makes the request of a run, of the client's address and a copy of its headers. -/
def createRequest (query vars : Value) (rest : Flow M) : Flow M :=
  .perform .defaults fun (url, headers) =>
    .perform (.edit fun _ => ⟨url, query, headers, vars⟩) fun _ => rest

/-- Runs an operation through the middleware registered when it starts. -/
def run (behaviour : M → Flow M → Flow M) (query vars : Value) : Flow M :=
  createRequest query vars <| .perform .registry fun ms =>
    (DispatchChain.mk ms behaviour send).dispatch

/-- Registers middleware. -/
def use (inertType? : M → Option String) (arguments : List (Argument M)) : Flow M :=
  match Registry.accepted inertType? arguments with
  | .error e => .fail e
  | .ok ms => .perform (.register ms) fun _ => .ret (.bool true)

/-- Closes the transport if the client made it. -/
def close : Flow M :=
  .perform .transport fun (transport, owned) =>
    match transport, owned with
    | .pooled, true => Pooled.close
    | _, _ => .ret .null

/-- Runs an operation and closes the client afterwards, however the run ends. -/
def runAndClose (behaviour : M → Flow M → Flow M) (query vars : Value) : Flow M :=
  (run behaviour query vars).andThen fun outcome => close.onValue fun _ => .done outcome

/-- The logger of the client. -/
def loggerName : String := "gql_fetch.client"

/-- The text of an operation with its keyword. -/
def build (type : OperationType) (schema name : Value) : Recording String := do
  let operation := type.withKeyword (← Operation.build schema name)
  Recording.log ⟨10, loggerName, "Built " ++ type.keyword ++ ": " ++ operation⟩
  return operation

/-- The headers of a client: the default ones, overridden by those given. -/
def initialHeaders (headers : Headers) : Headers :=
  Pairs.merge (defaultHeaders.map fun (k, v) => (k, .text v)) headers

/-- A client at an address, before anything has happened. -/
def make (url : Value) (headers : Headers) (transport : Transport) (settings : TransportSettings)
    (answers : List Exchange) (sessions : SessionSource) : World M :=
  { trace := [], logs := [], calls := [], answers := answers, url := url,
    headers := initialHeaders headers, registry := [], transport := transport,
    ownsTransport := transport == .pooled, settings := settings, sessions := sessions,
    closeDelay? := none, pool := .empty, requests := [] }

/-- A client as its settings say. -/
def ofSettings (s : ClientSettings) (transport : Transport) (answers : List Exchange)
    (sessions : SessionSource) : World M :=
  make (.text s.endpoint) (s.mergedHeaders.map fun (k, v) => (k, .text v)) transport s.transport
    answers sessions

end GraphClient.Client
